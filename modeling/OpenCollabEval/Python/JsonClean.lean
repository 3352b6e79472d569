import OpenCollabEval.Python.JsonUnescapedRead

/-!
# JSON values that can be encoded

A value whose strings have no surrogate is written as text that UTF-8 can encode, and no other value is.
-/

namespace Python

/-- Text without surrogates. -/
def Str.Clean (s : Str) : Prop := ∀ c ∈ s, isSurrogate c = false

namespace Str.Clean

theorem nil : Str.Clean [] := by simp [Str.Clean]

@[simp]
theorem append_iff (s t : Str) : Str.Clean (s ++ t) ↔ s.Clean ∧ t.Clean := by
  simp [Str.Clean, or_imp, forall_and]

@[simp]
theorem cons_iff (c : Nat) (s : Str) : Str.Clean (c :: s) ↔ isSurrogate c = false ∧ s.Clean := by
  simp [Str.Clean]

@[simp]
theorem flatten_iff (parts : List Str) : Str.Clean parts.flatten ↔ ∀ part ∈ parts, part.Clean := by
  simp only [Str.Clean, List.mem_flatten, forall_exists_index, and_imp]
  exact ⟨fun h part hpart c hc => h c part hpart hc, fun h c part hpart hc => h part hpart c hc⟩

/-- Joined parts are clean when the separator is. -/
theorem join_iff {separator : Str} (hseparator : separator.Clean) (parts : List Str) :
    Str.Clean (Str.join separator parts) ↔ ∀ part ∈ parts, part.Clean := by
  induction parts with
  | nil => simp [Str.join, List.intercalate, Str.Clean]
  | cons first rest ih =>
    cases rest with
    | nil => simp [Str.join_singleton]
    | cons second rest => simp [Str.join_cons_cons, ih, hseparator]

/-- Text of small code points is clean. -/
theorem of_small {s : Str} (h : ∀ c ∈ s, c < 128) : s.Clean := by
  intro c hc
  have hsmall := h c hc
  simp only [isSurrogate, Bool.and_eq_false_iff, decide_eq_false_iff_not]
  omega

/-- Clean text can be written. -/
theorem readable {s : Str} (h : s.Clean) (hpoints : ∀ c ∈ s, c < 0x110000) : s.Readable where
  points := hpoints
  separate := by
    refine List.Pairwise.isChain (List.pairwise_of_forall_mem_list fun c hc d _ => ?_)
    have hclean := h c hc
    simp only [isSurrogate, Bool.and_eq_false_iff, decide_eq_false_iff_not] at hclean
    simp only [isHighSurrogate, Bool.and_eq_false_iff, decide_eq_false_iff_not]
    omega

end Str.Clean

/-- `s.encode("utf-8")` succeeds on clean text only. -/
theorem Str.encode_iff (s : Str) (bytes : List Nat) :
    s.encode = .ok bytes ↔ s.Clean ∧ bytes = s.encodeSurrogatePass := by
  rw [Str.encode]
  have hclean : s.any isSurrogate = true ↔ ¬s.Clean := by simp [Str.Clean]
  split_ifs with h
  · simp [hclean.mp h]
  · have hs : s.Clean := by
      by_contra hs
      exact h (hclean.mpr hs)
    simp [hs, eq_comm (b := bytes)]

namespace Json

/-- The induction over the structure of a value. -/
theorem induct {P : Json → Prop} (atom : ∀ v, v.asList = none → v.asDict = none → P v)
    (items : ∀ values, (∀ v ∈ values, P v) → P (.list values))
    (fields : ∀ entries : Obj, (∀ entry ∈ entries, P entry.2) → P (.dict entries)) (v : Json) : P v :=
  match v with
  | .list values => items values fun v hv => by
      have hsize := List.sizeOf_lt_of_mem hv
      exact induct atom items fields v
  | .dict entries => fields entries fun entry hentry => by
      have hsize := List.sizeOf_lt_of_mem hentry
      have hentry : sizeOf entry.2 < sizeOf entry := by
        obtain ⟨key, v⟩ := entry
        simp only [Prod.mk.sizeOf_spec]
        omega
      exact induct atom items fields entry.2
  | .null => atom .null rfl rfl
  | .bool b => atom (.bool b) rfl rfl
  | .int n => atom (.int n) rfl rfl
  | .float x => atom (.float x) rfl rfl
  | .str s => atom (.str s) rfl rfl
termination_by sizeOf v

/-- A value whose strings and keys have no surrogate. -/
inductive Clean : Json → Prop where
  | null : Clean .null
  | bool (b : Bool) : Clean (.bool b)
  | int (n : Int) : Clean (.int n)
  | float (x : PyFloat) : Clean (.float x)
  | str (s : Str) (text : s.Clean) : Clean (.str s)
  | list (items : List Json) (values : ∀ v ∈ items, Clean v) : Clean (.list items)
  | dict (entries : Obj) (keys : ∀ entry ∈ entries, Str.Clean entry.1)
      (values : ∀ entry ∈ entries, Clean entry.2) : Clean (.dict entries)

@[simp]
theorem clean_null : Clean .null := .null

@[simp]
theorem clean_str_iff (s : Str) : Clean (.str s) ↔ s.Clean :=
  ⟨fun h => by cases h; assumption, fun h => .str s h⟩

@[simp]
theorem clean_list_iff (items : List Json) : Clean (.list items) ↔ ∀ v ∈ items, Clean v :=
  ⟨fun h => by cases h; assumption, fun h => .list items h⟩

@[simp]
theorem clean_dict_iff (entries : Obj) :
    Clean (.dict entries) ↔ ∀ entry ∈ entries, Str.Clean entry.1 ∧ Clean entry.2 :=
  ⟨fun h => by
    cases h with
    | dict _ keys values => exact fun entry hentry => ⟨keys entry hentry, values entry hentry⟩,
    fun h => .dict entries (fun entry hentry => (h entry hentry).1) fun entry hentry =>
      (h entry hentry).2⟩

/-- A value that was read at one depth can be read at a greater one. -/
theorem Readable.mono {depth deeper : Nat} {v : Json} (h : v.Readable depth) (hle : depth ≤ deeper) :
    v.Readable deeper := by
  induction h generalizing deeper with
  | null => exact .null deeper
  | bool _ b => exact .bool deeper b
  | int _ n short => exact .int deeper n short
  | float _ x => exact .float deeper x
  | str _ s text => exact .str deeper s text
  | list depth items values ih =>
    obtain ⟨below, rfl⟩ : ∃ below, deeper = below + 1 := ⟨deeper - 1, by omega⟩
    exact .list below items fun v hv => ih v hv (by omega)
  | dict depth entries distinct keys values ih =>
    obtain ⟨below, rfl⟩ : ∃ below, deeper = below + 1 := ⟨deeper - 1, by omega⟩
    exact .dict below entries distinct keys fun entry hentry => ih entry hentry (by omega)

/-- A value that a reader can build: code points, integers that are not too long, distinct keys. -/
inductive Sound : Json → Prop where
  | null : Sound .null
  | bool (b : Bool) : Sound (.bool b)
  | int (n : Int) (short : (natStr n.natAbs).length ≤ maxIntDigits) : Sound (.int n)
  | float (x : PyFloat) : Sound (.float x)
  | str (s : Str) (points : ∀ c ∈ s, c < 0x110000) : Sound (.str s)
  | list (items : List Json) (values : ∀ v ∈ items, Sound v) : Sound (.list items)
  | dict (entries : Obj) (distinct : (entries.map (·.1)).Nodup)
      (keys : ∀ entry ∈ entries, ∀ c ∈ entry.1, c < 0x110000)
      (values : ∀ entry ∈ entries, Sound entry.2) : Sound (.dict entries)

/-- What was read is sound. -/
theorem Readable.sound {depth : Nat} {v : Json} (h : v.Readable depth) : v.Sound := by
  induction h with
  | null => exact .null
  | bool _ b => exact .bool b
  | int _ n short => exact .int n short
  | float _ x => exact .float x
  | str _ s text => exact .str s text.points
  | list _ items values ih => exact .list items ih
  | dict _ entries distinct keys values ih =>
    exact .dict entries distinct (fun entry hentry => (keys entry hentry).points) ih

/-- A bound for a list of values. -/
theorem exists_depth {α : Type} {value : α → Json} {items : List α}
    (h : ∀ item ∈ items, ∃ depth, (value item).Readable depth) :
    ∃ depth, ∀ item ∈ items, (value item).Readable depth := by
  induction items with
  | nil => exact ⟨0, by simp⟩
  | cons item rest ih =>
    obtain ⟨first, hfirst⟩ := h item (by simp)
    obtain ⟨others, hothers⟩ := ih fun other hother => h other (by simp [hother])
    refine ⟨max first others, ?_⟩
    rw [List.forall_mem_cons]
    exact ⟨hfirst.mono (le_max_left _ _), fun other hother =>
      (hothers other hother).mono (le_max_right _ _)⟩

/-- A sound value without surrogates is read back at some depth. -/
theorem Sound.readable {v : Json} (h : v.Sound) (hclean : v.Clean) : ∃ depth, v.Readable depth := by
  induction h with
  | null => exact ⟨0, .null 0⟩
  | bool b => exact ⟨0, .bool 0 b⟩
  | int n short => exact ⟨0, .int 0 n short⟩
  | float x => exact ⟨0, .float 0 x⟩
  | str s points => exact ⟨0, .str 0 s (((clean_str_iff s).mp hclean).readable points)⟩
  | list items values ih =>
    rw [clean_list_iff] at hclean
    obtain ⟨depth, hdepth⟩ := @exists_depth Json id items fun v hv => ih v hv (hclean v hv)
    exact ⟨depth + 1, .list depth items hdepth⟩
  | dict entries distinct keys values ih =>
    rw [clean_dict_iff] at hclean
    obtain ⟨depth, hdepth⟩ := @exists_depth (Str × Json) (·.2) entries
      fun entry hentry => ih entry hentry (hclean entry hentry).2
    exact ⟨depth + 1, .dict depth entries distinct
      (fun entry hentry => (hclean entry hentry).1.readable (keys entry hentry)) hdepth⟩

end Json

/-- A written code point is clean when the code point is. -/
theorem clean_dumpCharUnescaped (c : Nat) :
    Str.Clean (dumpCharUnescaped c) ↔ Str.isSurrogate c = false := by
  have hsmall : ∀ d < 128, ∀ e ∈ dumpChar d, e < 128 := by decide +kernel
  have hnot (hc : c < 128) : Str.isSurrogate c = false := by
    simp only [Str.isSurrogate, Bool.and_eq_false_iff, decide_eq_false_iff_not]
    omega
  rw [dumpCharUnescaped]
  split_ifs with hcontrol hmark
  · simp [hnot (by omega), Str.Clean.of_small (hsmall c (by omega))]
  · simp only [Bool.or_eq_true, beq_iff_eq] at hmark
    simp [hnot (by omega), Str.Clean.of_small (hsmall c (by omega))]
  · simp [Str.Clean.nil]

theorem clean_dumpStrUnescaped (s : Str) : Str.Clean (dumpStrUnescaped s) ↔ s.Clean := by
  have hquote : Str.isSurrogate 34 = false := by decide
  have hflat : Str.Clean (s.flatMap dumpCharUnescaped) ↔ s.Clean := by
    induction s with
    | nil => simp
    | cons c s ih => simp [clean_dumpCharUnescaped, ih]
  simp [dumpStrUnescaped, hquote, hflat, Str.Clean.nil]

/-- A written number is clean. -/
theorem NumberText.Valid.clean {t : NumberText} (h : t.Valid) : t.text.Clean := by
  apply Str.Clean.of_small
  refine h.forall_text (P := fun c => c < 128) ?_ ?_
  · intro c hc
    simp only [Str.isDigit, Bool.and_eq_true, decide_eq_true_iff] at hc
    omega
  · decide

namespace DumpFormat

variable {format : DumpFormat}

/-- The written text is clean exactly when the value is. -/
theorem clean_dumpsUnescaped (hcomma : format.itemSeparator.Clean)
    (hcolon : format.keySeparator.Clean) (v : Json) :
    Str.Clean (format.dumpsUnescaped v) ↔ v.Clean := by
  induction v using Json.induct with
  | atom v hlist hdict =>
    cases v with
    | null => simp [dumpsUnescaped, lit, Str.Clean, Str.isSurrogate]
    | bool b =>
      refine iff_of_true ?_ (.bool b)
      cases b <;> simp [dumpsUnescaped, lit, Str.Clean, Str.isSurrogate]
    | int n =>
      refine iff_of_true ?_ (.int n)
      have htext : format.dumpsUnescaped (.int n) = (intText n).text := (intText_text n).symm
      exact htext ▸ (intText_valid n).clean
    | float x =>
      refine iff_of_true ?_ (.float x)
      cases x with
      | nan => simp [dumpsUnescaped, dumpFloat, lit, Str.Clean, Str.isSurrogate]
      | inf negative =>
        cases negative <;> simp [dumpsUnescaped, dumpFloat, lit, Str.Clean, Str.isSurrogate]
      | finite negative significand exponent normal =>
        exact (PyFloat.Magnitude.numberText_valid negative ⟨significand, exponent, normal⟩).clean
    | str s => simp [dumpsUnescaped, clean_dumpStrUnescaped]
    | list values => simp [Json.asList] at hlist
    | dict entries => simp [Json.asDict] at hdict
  | items values ih =>
    have hopen : Str.isSurrogate 91 = false := by decide
    have hclose : Str.isSurrogate 93 = false := by decide
    simp only [dumpsUnescaped_list, Str.Clean.cons_iff, Str.Clean.append_iff,
      Str.Clean.join_iff hcomma, hopen, hclose, Str.Clean.nil, true_and, and_true, List.forall_mem_map,
      Json.clean_list_iff]
    exact forall₂_congr ih
  | fields entries ih =>
    have hopen : Str.isSurrogate 123 = false := by decide
    have hclose : Str.isSurrogate 125 = false := by decide
    simp only [dumpsUnescaped_dict, Str.Clean.cons_iff, Str.Clean.append_iff,
      Str.Clean.join_iff hcomma, hopen, hclose, Str.Clean.nil, true_and, and_true, List.forall_mem_map,
      Json.clean_dict_iff, clean_dumpStrUnescaped, hcolon, (format.arrange_perm entries).mem_iff]
    exact forall₂_congr fun entry hentry => and_congr_right fun _ => ih entry hentry

end DumpFormat

end Python
