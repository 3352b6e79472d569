import OpenCollabEval.Python.JsonReadable

/-!
# Flat documents

A dict of names, flags and texts that is written with its keys in order and read again holds the same
values under the same keys.
-/

namespace Python

/-- A value without parts that can be written. -/
inductive Json.Flat : Json → Prop where
  | null : Flat .null
  | bool (b : Bool) : Flat (.bool b)
  | str (s : Str) (text : s.Readable) : Flat (.str s)

/-- A dict with distinct keys and flat values, all of which can be written. -/
structure Obj.Flat (o : Obj) : Prop where
  distinct : (o.map (·.1)).Nodup
  keys : ∀ entry ∈ o, Str.Readable entry.1
  values : ∀ entry ∈ o, entry.2.Flat

theorem Str.readable_of_small {s : Str} (h : ∀ c ∈ s, c < 128) : s.Readable where
  points c hc := by
    have hsmall := h c hc
    omega
  separate := by
    refine List.Pairwise.isChain (List.pairwise_of_forall_mem_list fun c hc d _ => ?_)
    have hsmall := h c hc
    rw [Bool.and_eq_false_iff]
    left
    simp only [isHighSurrogate, Bool.and_eq_false_iff, decide_eq_false_iff_not]
    omega

theorem Json.Flat.readable {v : Json} (h : v.Flat) (depth : Nat) : v.Readable depth := by
  cases h with
  | null => exact .null depth
  | bool b => exact .bool depth b
  | str s text => exact .str depth s text

theorem Json.Flat.reorder_eq {v : Json} (h : v.Flat) (format : DumpFormat) :
    format.reorder v = v := by
  cases h <;> rfl

namespace Obj

/-- With distinct keys, a dict holds the entries that it looks up. -/
theorem lookup_eq_some_iff_mem {o : Obj} (h : (o.map (·.1)).Nodup) {key : Str} {value : Json} :
    o.lookup key = some value ↔ (key, value) ∈ o := by
  induction o with
  | nil => simp
  | cons entry rest ih =>
    obtain ⟨key', value'⟩ := entry
    rw [List.map_cons, List.nodup_cons] at h
    rw [List.lookup_cons, List.mem_cons, Prod.mk.injEq]
    by_cases heq : key = key'
    · subst heq
      have hfresh : (key, value) ∉ rest := fun hmem => h.1 (List.mem_map.mpr ⟨_, hmem, rfl⟩)
      simp [hfresh, eq_comm]
    · simp [heq, beq_eq_false_iff_ne.mpr heq, ih h.2]

/-- The order of distinct keys does not matter to a lookup. -/
theorem lookup_of_perm {o o' : Obj} (hperm : o.Perm o') (h : (o'.map (·.1)).Nodup) (key : Str) :
    o.lookup key = o'.lookup key := by
  have hkeys : (o.map (·.1)).Nodup := (hperm.map _).nodup_iff.mpr h
  ext value
  rw [lookup_eq_some_iff_mem hkeys, lookup_eq_some_iff_mem h, hperm.mem_iff]

theorem get_of_perm {o o' : Obj} (hperm : o.Perm o') (h : (o'.map (·.1)).Nodup) (key : Str) :
    o.get key = o'.get key := by
  rw [get, get, lookup_of_perm hperm h]

theorem keysAre_of_perm {o o' : Obj} (hperm : o.Perm o') (h : (o'.map (·.1)).Nodup)
    (keys : List Str) : o.keysAre keys = o'.keysAre keys := by
  rw [Bool.eq_iff_iff]
  simp only [keysAre, has, lookup_of_perm hperm h, Bool.and_eq_true, List.all_eq_true,
    hperm.mem_iff]

theorem get_append (o o' : Obj) (key : Str) :
    Obj.get (o ++ o') key = if o.has key then o.get key else o'.get key := by
  rw [get, get, get, has, List.lookup_append]
  cases o.lookup key <;> simp

/-- A dict has a key exactly when an entry has it. -/
theorem has_iff_mem {o : Obj} {key : Str} : o.has key = true ↔ key ∈ o.map (·.1) := by
  rw [← not_iff_not, Bool.not_eq_true, has, Option.isSome_eq_false_iff, Option.isNone_iff_eq_none,
    List.lookup_eq_none_iff]
  simp only [bne_iff_ne, List.mem_map, not_exists, not_and]
  exact ⟨fun h entry hentry heq => h entry hentry heq.symm,
    fun h entry hentry heq => h entry hentry heq.symm⟩

theorem keysAre_iff {o : Obj} {keys : List Str} :
    o.keysAre keys = true ↔ ∀ key, key ∈ o.map (·.1) ↔ key ∈ keys := by
  simp only [keysAre, Bool.and_eq_true, List.all_eq_true, has_iff_mem, List.contains_iff_mem]
  constructor
  · rintro ⟨hin, hhas⟩ key
    refine ⟨fun hkey => ?_, hhas key⟩
    obtain ⟨entry, hentry, rfl⟩ := List.mem_map.mp hkey
    exact hin entry hentry
  · intro h
    exact ⟨fun entry hentry => (h entry.1).mp (List.mem_map_of_mem hentry), fun key hkey =>
      (h key).mpr hkey⟩

/-- The keys of a dict after one of them got another value. -/
theorem keys_set {o : Obj} {key : Str} {value : Json} (h : o.has key = true) :
    (o.set key value).map (·.1) = o.map (·.1) := by
  rw [set, if_pos h, List.map_map]
  refine List.map_congr_left fun entry _ => ?_
  by_cases heq : entry.1 = key <;> simp [heq]

theorem has_set {o : Obj} {key : Str} {value : Json} (h : o.has key = true) (key' : Str) :
    (o.set key value).has key' = o.has key' := by
  rw [Bool.eq_iff_iff, has_iff_mem, has_iff_mem, keys_set h]

theorem mem_set {o : Obj} {key : Str} {value : Json} (h : o.has key = true) {entry : Str × Json}
    (hentry : entry ∈ o.set key value) : entry ∈ o ∨ entry = (key, value) := by
  rw [set, if_pos h] at hentry
  obtain ⟨old, hold, rfl⟩ := List.mem_map.mp hentry
  split
  · exact .inr rfl
  · exact .inl hold

/-- The value of a key that was set, and of every other key. -/
theorem get_set {o : Obj} {key : Str} {value : Json} (h : o.has key = true) (key' : Str) :
    (o.set key value).get key' = if key' = key then value else o.get key' := by
  have hlookup : ∀ rest : Obj, (rest.map fun entry => if entry.1 = key then (key, value) else entry).lookup
      key' = if key' = key then (rest.lookup key).map fun _ => value else rest.lookup key' := by
    intro rest
    induction rest with
    | nil => simp
    | cons entry rest ih =>
      obtain ⟨k, v⟩ := entry
      rw [List.map_cons, List.lookup_cons]
      by_cases hk : k = key
      · subst hk
        by_cases hk' : key' = k
        · simp [hk']
        · simp [hk', beq_eq_false_iff_ne.mpr hk', ih, List.lookup_cons]
      · by_cases hk' : key' = k
        · subst hk'
          simp [hk]
        · simp [hk, beq_eq_false_iff_ne.mpr hk', ih, List.lookup_cons, beq_eq_false_iff_ne.mpr (Ne.symm hk)]
  rw [get, set, if_pos h, hlookup]
  obtain ⟨found, hfound⟩ := Option.isSome_iff_exists.mp h
  split
  · simp [hfound]
  · rfl

variable {o : Obj}

theorem Flat.set {key : Str} {value : Json} (h : o.Flat) (hkey : o.has key = true)
    (hvalue : value.Flat) : (o.set key value).Flat where
  distinct := keys_set hkey ▸ h.distinct
  keys entry hentry := by
    rcases mem_set hkey hentry with hold | rfl
    · exact h.keys entry hold
    · obtain ⟨old, hold, heq⟩ := List.mem_map.mp (has_iff_mem.mp hkey)
      exact heq ▸ h.keys old hold
  values entry hentry := by
    rcases mem_set hkey hentry with hold | rfl
    · exact h.values entry hold
    · exact hvalue

theorem Flat.arrange (h : o.Flat) (format : DumpFormat) : Flat (format.arrange o) where
  distinct := ((DumpFormat.arrange_perm o).map _).nodup_iff.mpr h.distinct
  keys entry hentry := h.keys entry ((DumpFormat.arrange_perm o).mem_iff.mp hentry)
  values entry hentry := h.values entry ((DumpFormat.arrange_perm o).mem_iff.mp hentry)

/-- A flat document is read back with its keys in order. -/
theorem Flat.loads_dumps (h : o.Flat) (depth : Nat) {space : Str}
    (hspace : ∀ c ∈ space, isJsonSpace c = true) :
    loads (depth + 1) (DumpFormat.sorted.dumps (.dict o) ++ space) =
      .ok (.dict (DumpFormat.sorted.arrange o)) := by
  have hreadable : Json.Readable (depth + 1) (.dict o) :=
    .dict depth o h.distinct h.keys fun entry hentry => (h.values entry hentry).readable depth
  rw [DumpFormat.loads_dumps_append DumpFormat.standard_sorted hreadable hspace,
    DumpFormat.reorder, DumpFormat.reorderEntries_eq_map, DumpFormat.arrange_map]
  congr 2
  refine (List.map_congr_left fun entry hentry => ?_).trans (List.map_id _)
  have hmem := (DumpFormat.arrange_perm o).mem_iff.mp hentry
  rw [(h.values entry hmem).reorder_eq]
  rfl

theorem Flat.get_arrange (h : o.Flat) (format : DumpFormat) (key : Str) :
    Obj.get (format.arrange o) key = o.get key :=
  get_of_perm (DumpFormat.arrange_perm o) h.distinct key

theorem Flat.keysAre_arrange (h : o.Flat) (format : DumpFormat) (keys : List Str) :
    Obj.keysAre (format.arrange o) keys = o.keysAre keys :=
  keysAre_of_perm (DumpFormat.arrange_perm o) h.distinct keys

end Obj

end Python
