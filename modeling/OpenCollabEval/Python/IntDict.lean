import OpenCollabEval.Python.Error
import Mathlib.Data.List.Sort
import Mathlib.Data.Int.Order.Basic

/-!
# Dictionaries with integer keys

A `dict` whose keys are integers, filled by `setdefault`. A dictionary that is filled from a list of keyed
items is the view of the list that groups the items by key: adding an item at the end of the list is
one update of the dictionary.
-/

namespace Python

/-- A `dict` with integer keys: the keys in the order of their insertion, and the values. -/
@[ext]
structure IntDict (α : Type) where
  keys : List Int
  find : Int → Option α

namespace IntDict

variable {α β ε : Type}

/-- `{}`. -/
def empty : IntDict α := ⟨[], fun _ => none⟩

/-- The value of a key is replaced; the update sees the value before, if there is one. -/
def upsert (d : IntDict α) (key : Int) (update : Option α → Except ε α) : Except ε (IntDict α) := do
  let value ← update (d.find key)
  return ⟨if (d.find key).isSome then d.keys else d.keys ++ [key],
    Function.update d.find key (some value)⟩

/-- `[(key, d[key]) for key in sorted(d)]`. -/
def sortedItems (d : IntDict α) : List (Int × α) :=
  (d.keys.insertionSort (· ≤ ·)).filterMap fun key => (d.find key).map (key, ·)

/-- The items of a key, in order. -/
def group (key : Int) (items : List (Int × β)) : List β :=
  (items.filter (·.1 == key)).map (·.2)

/-- The dictionary of the groups of a list, each seen by a view. -/
def ofGroups (view : List β → α) (items : List (Int × β)) : IntDict α where
  keys := (items.map (·.1)).eraseDups
  find key := if group key items = [] then none else some (view (group key items))

theorem ofGroups_nil (view : List β → α) : ofGroups view [] = empty := by
  rfl

@[simp]
theorem group_append (key : Int) (items others : List (Int × β)) :
    group key (items ++ others) = group key items ++ group key others := by
  simp [group]

@[simp]
theorem group_nil (key : Int) : group key ([] : List (Int × β)) = [] := rfl

@[simp]
theorem group_cons_self (key : Int) (b : β) (items : List (Int × β)) :
    group key ((key, b) :: items) = b :: group key items := by
  simp [group]

theorem group_cons_of_ne {key other : Int} (h : key ≠ other) (b : β) (items : List (Int × β)) :
    group other ((key, b) :: items) = group other items := by
  simp [group, h]

theorem group_eq_nil_iff (key : Int) (items : List (Int × β)) :
    group key items = [] ↔ key ∉ items.map (·.1) := by
  simp only [group, List.map_eq_nil_iff, List.filter_eq_nil_iff, beq_iff_eq, List.mem_map,
    not_exists, not_and]

/-- One more item is one update. -/
theorem ofGroups_concat (view : List β → α) (items : List (Int × β)) (key : Int) (b : β) :
    ofGroups view (items ++ [(key, b)]) =
      ⟨if ((ofGroups view items).find key).isSome then (ofGroups view items).keys
        else (ofGroups view items).keys ++ [key],
        Function.update (ofGroups view items).find key (some (view (group key items ++ [b])))⟩ := by
  ext1
  · simp only [ofGroups, List.map_append, List.map_cons, List.map_nil, List.eraseDups_append]
    by_cases hkey : key ∈ items.map (·.1)
    · have hgroup : group key items ≠ [] := fun h => (group_eq_nil_iff key items).mp h hkey
      simp [hgroup, List.removeAll, hkey]
    · have hgroup : group key items = [] := (group_eq_nil_iff key items).mpr hkey
      simp [hgroup, List.removeAll, hkey, List.eraseDups_cons]
  · funext other
    by_cases hother : other = key
    · subst hother
      simp [ofGroups]
    · have hsame : group other (items ++ [(key, b)]) = group other items := by
        rw [group_append, group_cons_of_ne (Ne.symm hother), group_nil, List.append_nil]
      simp only [ofGroups, hsame, Function.update_of_ne hother]

/-- What holds of the groups of a longer list holds of the group that grows, when it holds of the
others. -/
theorem forall_group_concat_iff {P : List β → Prop} {items : List (Int × β)}
    (h : ∀ key, P (group key items)) (key : Int) (b : β) :
    (∀ other, P (group other (items ++ [(key, b)]))) ↔ P (group key items ++ [b]) := by
  constructor
  · intro hall
    simpa using hall key
  · intro hgrown other
    by_cases hother : key = other
    · subst hother
      simpa using hgrown
    · rw [group_append, group_cons_of_ne hother, group_nil, List.append_nil]
      exact h other

/-- When an update extends the view of a group that stays well formed, the update of the dictionary does
the same for all groups. -/
theorem upsert_ofGroups_iff {P : List β → Prop} {view : List β → α} {items : List (Int × β)}
    (h : ∀ key, P (group key items)) {key : Int} {b : β} {update : Option α → Except ε α}
    (hupdate : ∀ a, update ((ofGroups view items).find key) = .ok a ↔
      P (group key items ++ [b]) ∧ a = view (group key items ++ [b])) (d : IntDict α) :
    (ofGroups view items).upsert key update = .ok d ↔
      (∀ other, P (group other (items ++ [(key, b)]))) ∧ d = ofGroups view (items ++ [(key, b)]) := by
  simp only [upsert, bind_eq_ok_iff, hupdate, forall_group_concat_iff h, ofGroups_concat]
  constructor
  · rintro ⟨a, ⟨hgrown, rfl⟩, hd⟩
    exact ⟨hgrown, (Except.ok.inj hd).symm⟩
  · rintro ⟨hgrown, rfl⟩
    exact ⟨_, ⟨hgrown, rfl⟩, rfl⟩

/-- The sorted items depend on the set of the keys only. -/
theorem sortedItems_congr {d e : IntDict α} (hkeys : d.keys.Perm e.keys) (hfind : d.find = e.find) :
    d.sortedItems = e.sortedItems := by
  have hsorted : d.keys.insertionSort (· ≤ ·) = e.keys.insertionSort (· ≤ ·) := by
    have hperm := ((List.perm_insertionSort (· ≤ ·) d.keys).trans hkeys).trans
      (List.perm_insertionSort (· ≤ ·) e.keys).symm
    apply hperm.eq_of_pairwise
    · intro a b _ _ (hab : a ≤ b) hba
      exact le_antisymm hab hba
    · exact List.pairwise_insertionSort (· ≤ ·) d.keys
    · exact List.pairwise_insertionSort (· ≤ ·) e.keys
  rw [sortedItems, sortedItems, hsorted, hfind]

/-- The sorted items of a list are those of its groups. -/
theorem mem_sortedItems_ofGroups {view : List β → α} {items : List (Int × β)} {key : Int} {a : α} :
    (key, a) ∈ (ofGroups view items).sortedItems ↔
      group key items ≠ [] ∧ a = view (group key items) := by
  simp only [sortedItems, List.mem_filterMap, Option.map_eq_some_iff, Prod.mk.injEq]
  constructor
  · rintro ⟨other, -, value, hfind, rfl, rfl⟩
    simp only [ofGroups] at hfind
    split_ifs at hfind with hempty
    exact ⟨hempty, (Option.some.inj hfind).symm⟩
  · rintro ⟨hnonempty, rfl⟩
    refine ⟨key, ?_, view (group key items), by simp [ofGroups, hnonempty], rfl, rfl⟩
    rw [List.mem_insertionSort, ofGroups, List.mem_eraseDups]
    by_contra hkey
    exact hnonempty ((group_eq_nil_iff key items).mpr hkey)

section SortedKeys

variable {γ : Type} {items : List (Int × β)}

/-- The keys of some items in their order. -/
def sortedKeys (items : List (Int × β)) : List Int :=
  (items.map (·.1)).eraseDups.insertionSort (· ≤ ·)

theorem mem_sortedKeys {key : Int} : key ∈ sortedKeys items ↔ group key items ≠ [] := by
  rw [sortedKeys, List.mem_insertionSort, List.mem_eraseDups, ne_eq, group_eq_nil_iff, not_not]

/-- The sorted items are the views of the groups, key by key. -/
theorem sortedItems_ofGroups (view : List β → α) (items : List (Int × β)) :
    (ofGroups view items).sortedItems =
      (sortedKeys items).map fun key => (key, view (group key items)) := by
  have hgroups : ∀ key ∈ sortedKeys items,
      ((ofGroups view items).find key).map (key, ·) = some (key, view (group key items)) := by
    intro key hkey
    simp [ofGroups, mem_sortedKeys.mp hkey]
  rw [← List.filterMap_eq_map]
  exact List.filterMap_congr hgroups

/-- A list without its duplicates has none. -/
theorem nodup_eraseDups {α : Type} [BEq α] [LawfulBEq α] (xs : List α) : xs.eraseDups.Nodup := by
  induction xs using List.reverseRecOn with
  | nil => simp
  | append_singleton xs x ih =>
    rw [List.eraseDups_append]
    by_cases hx : x ∈ xs
    · simpa [List.removeAll, hx] using ih
    · simpa [List.removeAll, hx, List.eraseDups_cons, List.nodup_append] using
        ⟨ih, fun a ha heq => hx (heq ▸ ha)⟩

/-- The sorted keys depend on the groups that are not empty only. -/
theorem sortedKeys_congr {others : List (Int × γ)}
    (h : ∀ key, group key items = [] ↔ group key others = []) :
    sortedKeys items = sortedKeys others := by
  have hmem : ∀ key, key ∈ (items.map (·.1)).eraseDups ↔ key ∈ (others.map (·.1)).eraseDups := by
    intro key
    rw [List.mem_eraseDups, List.mem_eraseDups, ← not_iff_not, ← group_eq_nil_iff,
      ← group_eq_nil_iff]
    exact h key
  have hperm := (List.perm_ext_iff_of_nodup (nodup_eraseDups _)
    (nodup_eraseDups _)).mpr hmem
  have hsorted := (List.perm_insertionSort (· ≤ ·) _).trans
    (hperm.trans (List.perm_insertionSort (· ≤ ·) _).symm)
  apply hsorted.eq_of_pairwise
  · intro a b _ _ (hab : a ≤ b) hba
    exact le_antisymm hab hba
  · exact List.pairwise_insertionSort (· ≤ ·) _
  · exact List.pairwise_insertionSort (· ≤ ·) _

end SortedKeys

end IntDict

end Python
