import OpenCollabEval.Python.JsonLoads

/-!
# JSON that is written and read

What `json.dumps` writes, `json.loads` reads back: the same value, with its keys in the order that they
were written in.

* `Json.Readable`: the values that a text can stand for.
* `DumpFormat.scanOnce_dumps`: a written value is read back from the start of a text.
* `DumpFormat.loads_dumps`: a written text is read back.
-/

namespace Python

/-- Text that escapes can write: code points, and no two surrogates that a reader would join. -/
structure Str.Readable (s : Str) : Prop where
  points : ∀ c ∈ s, c < 0x110000
  separate : s.IsChain fun c d => (isHighSurrogate c && isLowSurrogate d) = false

/-- The code units that a code point is written as. -/
def charUnits (c : Nat) : List StringUnit :=
  if c == 34 || c == 92 || c == 10 || c == 13 || c == 9 || c == 12 || c == 8 ||
      (32 ≤ c && c ≤ 126) then [(c, false)]
  else if c < 0x10000 then [(c, true)]
  else [(0xD800 + (c - 0x10000) / 0x400, true), (0xDC00 + (c - 0x10000) % 0x400, true)]

/-- An escaped code unit is read back. -/
theorem scanUnits_unicodeEscape {unit : Nat} (h : unit < 65536) (rest : Str) :
    scanUnits .plain (unicodeEscape unit ++ rest) =
      (scanUnits .plain rest).map fun r => ((unit, true) :: r.1, r.2) := by
  have hlit : lit "\\u" = [92, 117] := rfl
  rw [unicodeEscape, hexPadded_four h, hlit]
  have hvalue : 16 * (16 * (16 * (16 * 0 + unit / 4096) + unit / 256 % 16) + unit / 16 % 16) +
      unit % 16 = unit := by omega
  simp only [List.cons_append, List.nil_append, scanUnits, Nat.reduceBEq, Bool.false_eq_true,
    if_false, if_true, hexValue_hexDigit (show unit / 4096 < 16 by omega),
    hexValue_hexDigit (show unit / 256 % 16 < 16 by omega),
    hexValue_hexDigit (show unit / 16 % 16 < 16 by omega),
    hexValue_hexDigit (show unit % 16 < 16 by omega), Option.bind_some, hvalue]

/-- A written code point is read back. -/
theorem scanUnits_dumpChar {c : Nat} (h : c < 0x110000) (rest : Str) :
    scanUnits .plain (dumpChar c ++ rest) =
      (scanUnits .plain rest).map fun r => (charUnits c ++ r.1, r.2) := by
  unfold dumpChar
  split
  next hc => rw [beq_iff_eq.mp hc]; rfl
  split
  next hc => rw [beq_iff_eq.mp hc]; rfl
  split
  next hc => rw [beq_iff_eq.mp hc]; rfl
  split
  next hc => rw [beq_iff_eq.mp hc]; rfl
  split
  next hc => rw [beq_iff_eq.mp hc]; rfl
  split
  next hc => rw [beq_iff_eq.mp hc]; rfl
  split
  next hc => rw [beq_iff_eq.mp hc]; rfl
  next h34 h92 h10 h13 h9 h12 h8 =>
  split
  next hprint =>
    have hspace : ¬ c < 32 := by simp at hprint; omega
    simp [scanUnits, h34, h92, hspace, charUnits, hprint]
  next hprint =>
  have hunits : charUnits c = if c < 0x10000 then [(c, true)]
      else [(0xD800 + (c - 0x10000) / 0x400, true), (0xDC00 + (c - 0x10000) % 0x400, true)] := by
    rw [charUnits, if_neg]
    simp_all
  split
  next hsmall =>
    rw [scanUnits_unicodeEscape hsmall, hunits, if_pos hsmall]
    rfl
  next hlarge =>
    rw [List.append_assoc, scanUnits_unicodeEscape (by omega), scanUnits_unicodeEscape (by omega),
      hunits, if_neg hlarge]
    cases scanUnits .plain rest <;> rfl

/-- A written string is read back as its code units. -/
theorem scanUnits_dumpStr {s : Str} (h : ∀ c ∈ s, c < 0x110000) (rest : Str) :
    scanUnits .plain (s.flatMap dumpChar ++ 34 :: rest) = some (s.flatMap charUnits, rest) := by
  induction s with
  | nil => simp [scanUnits]
  | cons c s ih =>
    rw [List.flatMap_cons, List.append_assoc, scanUnits_dumpChar (h c (by simp)),
      ih fun d hd => h d (by simp [hd])]
    rfl

/-- The units of a code point are joined to it, when they are not joined to what follows. -/
theorem joinUnits_charUnits {c : Nat} (h : c < 0x110000) {units : List StringUnit}
    (hnext : ∀ u ∈ units.head?, (isHighSurrogate c && isLowSurrogate u.1) = false) :
    joinUnits (charUnits c ++ units) = c :: joinUnits units := by
  have hsingle : ∀ escaped, joinUnits ((c, escaped) :: units) = c :: joinUnits units := by
    intro escaped
    cases units with
    | nil => rfl
    | cons u units =>
      obtain ⟨d, escaped'⟩ := u
      have hno := hnext (d, escaped') (by simp)
      rw [joinUnits, if_neg]
      rw [Bool.and_assoc, hno, Bool.and_false]
      simp
  unfold charUnits
  split
  · exact hsingle false
  split
  · exact hsingle true
  next hlarge =>
    have hhigh : isHighSurrogate (0xD800 + (c - 0x10000) / 0x400) = true := by
      simp only [isHighSurrogate, Bool.and_eq_true, decide_eq_true_iff]
      omega
    have hlow : isLowSurrogate (0xDC00 + (c - 0x10000) % 0x400) = true := by
      simp only [isLowSurrogate, Bool.and_eq_true, decide_eq_true_iff]
      omega
    have hjoin : joinSurrogates (0xD800 + (c - 0x10000) / 0x400)
        (0xDC00 + (c - 0x10000) % 0x400) = c := by
      unfold joinSurrogates
      omega
    simp [joinUnits, hhigh, hlow, hjoin]

/-- The first unit of a code point is low exactly when the code point is. -/
theorem isLowSurrogate_head_charUnits {c : Nat} (h : c < 0x110000) {units : List StringUnit} :
    ∀ u ∈ (charUnits c ++ units).head?, isLowSurrogate u.1 = isLowSurrogate c := by
  unfold charUnits
  split
  · simp
  split
  · simp
  next hlarge =>
    simp only [List.cons_append, List.head?_cons, Option.mem_def, Option.some.injEq,
      forall_eq', isLowSurrogate]
    rw [Bool.eq_iff_iff]
    simp only [Bool.and_eq_true, decide_eq_true_iff]
    omega

/-- The units of a readable text are joined to it. -/
theorem joinUnits_flatMap {s : Str} (h : s.Readable) : joinUnits (s.flatMap charUnits) = s := by
  obtain ⟨hpoints, hseparate⟩ := h
  induction s with
  | nil => rfl
  | cons c s ih =>
    have hrest := ih (fun d hd => hpoints d (by simp [hd])) hseparate.tail
    rw [List.flatMap_cons, joinUnits_charUnits (hpoints c (by simp)), hrest]
    cases s with
    | nil => simp
    | cons d s =>
      intro u hu
      rw [List.flatMap_cons] at hu
      rw [isLowSurrogate_head_charUnits (hpoints d (by simp)) u hu]
      exact (List.isChain_cons_cons.mp hseparate).1

/-- A written string is read back. -/
theorem scanString_dumpStr {s : Str} (h : s.Readable) (rest : Str) :
    scanString (s.flatMap dumpChar ++ 34 :: rest) = .ok (s, rest) := by
  rw [scanString, scanUnits_dumpStr h.points]
  simp [joinUnits_flatMap h]

/-- The values that a text read with `depth` can stand for. -/
inductive Json.Readable : Nat → Json → Prop where
  | null (depth : Nat) : Readable depth .null
  | bool (depth : Nat) (b : Bool) : Readable depth (.bool b)
  | int (depth : Nat) (n : Int) (short : (natStr n.natAbs).length ≤ maxIntDigits) :
      Readable depth (.int n)
  | float (depth : Nat) (x : PyFloat) : Readable depth (.float x)
  | str (depth : Nat) (s : Str) (text : s.Readable) : Readable depth (.str s)
  | list (depth : Nat) (items : List Json) (values : ∀ v ∈ items, Readable depth v) :
      Readable (depth + 1) (.list items)
  | dict (depth : Nat) (entries : Obj) (distinct : (entries.map (·.1)).Nodup)
      (keys : ∀ entry ∈ entries, Str.Readable entry.1)
      (values : ∀ entry ∈ entries, Readable depth entry.2) : Readable (depth + 1) (.dict entries)

namespace DumpFormat

/-- A separator that a reader skips: its mark, and white space. -/
def IsSeparator (mark : Nat) (separator : Str) : Prop :=
  ∃ space, separator = mark :: space ∧ ∀ c ∈ space, isJsonSpace c = true

/-- A format that JSON allows. -/
structure Standard (format : DumpFormat) : Prop where
  item : IsSeparator 44 format.itemSeparator
  key : IsSeparator 58 format.keySeparator

theorem standard_plain : plain.Standard :=
  ⟨⟨[32], rfl, by simp [isJsonSpace]⟩, ⟨[32], rfl, by simp [isJsonSpace]⟩⟩

theorem standard_sorted : sorted.Standard :=
  ⟨⟨[32], rfl, by simp [isJsonSpace]⟩, ⟨[32], rfl, by simp [isJsonSpace]⟩⟩

theorem standard_canonical : canonical.Standard :=
  ⟨⟨[], rfl, by simp⟩, ⟨[], rfl, by simp⟩⟩

theorem standard_compact : compact.Standard :=
  ⟨⟨[], rfl, by simp⟩, ⟨[], rfl, by simp⟩⟩

variable (format : DumpFormat)

/-- The entries of a dict in the order that they are written in. -/
def arrange {α : Type} (entries : List (Str × α)) : List (Str × α) :=
  if format.sortKeys then entries.insertionSort (Str.le ·.1 ·.1) else entries

mutual

/-- A value with its keys in the order that they are written in. -/
def reorder : Json → Json
  | .list items => .list (reorderItems items)
  | .dict entries => .dict (format.arrange (reorderEntries entries))
  | v => v

/-- The items of a list, each with its keys in order. -/
def reorderItems : List Json → List Json
  | [] => []
  | v :: rest => reorder v :: reorderItems rest

/-- The entries of a dict, the value of each with its keys in order. -/
def reorderEntries : List (Str × Json) → List (Str × Json)
  | [] => []
  | (key, v) :: rest => (key, reorder v) :: reorderEntries rest

end

theorem dumpItems_eq_map (items : List Json) : format.dumpItems items = items.map format.dumps := by
  induction items with
  | nil => rfl
  | cons v rest ih => rw [dumpItems, ih, List.map_cons]

theorem reorderItems_eq_map (items : List Json) :
    format.reorderItems items = items.map format.reorder := by
  induction items with
  | nil => rfl
  | cons v rest ih => rw [reorderItems, ih, List.map_cons]

theorem dumpEntries_eq_map (entries : Obj) :
    format.dumpEntries entries = entries.map fun entry => (entry.1, format.dumps entry.2) := by
  induction entries with
  | nil => rfl
  | cons entry rest ih => rw [dumpEntries, ih, List.map_cons]

theorem reorderEntries_eq_map (entries : Obj) :
    format.reorderEntries entries = entries.map fun entry => (entry.1, format.reorder entry.2) := by
  induction entries with
  | nil => rfl
  | cons entry rest ih => rw [reorderEntries, ih, List.map_cons]

variable {format}

/-- The order of the entries depends on their keys only. -/
theorem arrange_map {α β : Type} (g : α → β) (entries : List (Str × α)) :
    format.arrange (entries.map fun entry => (entry.1, g entry.2)) =
      (format.arrange entries).map fun entry => (entry.1, g entry.2) := by
  unfold arrange
  split
  · exact (List.map_insertionSort (fun a b : Str × α => Str.le a.1 b.1 = true)
      (fun a b : Str × β => Str.le a.1 b.1 = true) _ entries fun _ _ _ _ => Iff.rfl).symm
  · rfl

theorem arrange_perm {α : Type} (entries : List (Str × α)) :
    (format.arrange entries).Perm entries := by
  unfold arrange
  split
  · exact List.perm_insertionSort (fun a b : Str × α => Str.le a.1 b.1 = true) entries
  · exact List.Perm.refl _

/-- A written dict: its entries in order. -/
theorem dumps_dict (entries : Obj) :
    format.dumps (.dict entries) = 123 :: (Str.join format.itemSeparator
      ((format.arrange entries).map fun entry =>
        dumpStr entry.1 ++ format.keySeparator ++ format.dumps entry.2) ++ [125]) := by
  have hsort : (if format.sortKeys then
      (format.dumpEntries entries).insertionSort (Str.le ·.1 ·.1)
        else format.dumpEntries entries) =
      (format.arrange entries).map fun entry => (entry.1, format.dumps entry.2) := by
    rw [dumpEntries_eq_map, ← arrange_map]
    rfl
  rw [dumps]
  simp only [hsort, List.map_map]
  rfl

/-- A written list. -/
theorem dumps_list (items : List Json) :
    format.dumps (.list items) =
      91 :: (Str.join format.itemSeparator (items.map format.dumps) ++ [93]) := by
  rw [dumps, dumpItems_eq_map]
  rfl

end DumpFormat

/-- A number's text starts with a digit, or with a minus sign and a digit. -/
theorem NumberText.Valid.text_eq {t : NumberText} (h : t.Valid) :
    ∃ c rest, Str.isDigit c = true ∧ t.text = (if t.negative then [45] else []) ++ c :: rest := by
  obtain ⟨c, ds, hwhole, hc⟩ : ∃ c ds, t.whole = c :: ds ∧ Str.isDigit c = true := by
    rcases h.whole with hzero | ⟨⟨hne, hdigits⟩, -⟩
    · exact ⟨48, [], hzero, rfl⟩
    · obtain ⟨c, ds, hwhole⟩ := List.exists_cons_of_ne_nil hne
      exact ⟨c, ds, hwhole, hdigits c (by simp [hwhole])⟩
  exact ⟨c, ds ++ (t.fractionText ++ t.exponentText), hc, by rw [text, hwhole, List.cons_append]⟩

/-- A number is no name. -/
theorem scanAtom_text {t : NumberText} {rest : Str} (h : t.Valid) (hrest : EndsNumber rest) :
    scanAtom (t.text ++ rest) = (numberValue t).map (·, rest) := by
  have hnone : (namedValues.find? fun entry => Str.startsWith (t.text ++ rest) entry.1) = none := by
    obtain ⟨c, tail, hc, htext⟩ := h.text_eq
    rw [htext]
    have hne : 110 ≠ c ∧ 116 ≠ c ∧ 102 ≠ c ∧ 78 ≠ c ∧ 73 ≠ c ∧ 45 ≠ c :=
      ⟨(isDigit_ne hc rfl).symm, (isDigit_ne hc rfl).symm, (isDigit_ne hc rfl).symm,
        (isDigit_ne hc rfl).symm, (isDigit_ne hc rfl).symm, (isDigit_ne hc rfl).symm⟩
    cases t.negative <;> simp [namedValues, Str.startsWith, lit, List.isPrefixOf, hne]
  rw [scanAtom, hnone]
  dsimp only
  rw [scanNumber_text h hrest]

/-- A text that starts a value which is no string, array or object. -/
def StartsAtom (s : Str) : Prop :=
  ∃ c rest, s = c :: rest ∧ c ∉ [34, 91, 123, 93, 32, 9, 10, 13, 0xFEFF]

theorem scanOnce_of_startsAtom {s : Str} (h : StartsAtom s) (depth : Nat) (rest : Str) :
    scanOnce depth (s ++ rest) = scanAtom (s ++ rest) := by
  obtain ⟨c, tail, rfl, hc⟩ := h
  simp only [List.mem_cons, not_or] at hc
  cases depth <;> simp [scanOnce, hc]

theorem NumberText.Valid.startsAtom {t : NumberText} (h : t.Valid) : StartsAtom t.text := by
  obtain ⟨c, rest, hc, htext⟩ := h.text_eq
  cases hnegative : t.negative with
  | true =>
    rw [hnegative] at htext
    exact ⟨45, c :: rest, htext, by decide⟩
  | false =>
    rw [hnegative] at htext
    refine ⟨c, rest, htext, ?_⟩
    simp only [Str.isDigit, Bool.and_eq_true, decide_eq_true_iff] at hc
    simp only [List.mem_cons, List.not_mem_nil, or_false]
    omega

/-- An integer as a number's text. -/
def intText (n : Int) : NumberText := ⟨decide (n < 0), natStr n.natAbs, none, none⟩

theorem intText_text (n : Int) : (intText n).text = intStr n := by
  cases n with
  | ofNat n => simp [intText, NumberText.text, NumberText.fractionText, NumberText.exponentText,
      intStr]
  | negSucc n => simp [intText, NumberText.text, NumberText.fractionText,
      NumberText.exponentText, intStr, Int.negSucc_lt_zero, Int.natAbs_negSucc]

theorem intText_valid (n : Int) : (intText n).Valid where
  whole := by
    by_cases h : n.natAbs = 0
    · exact .inl (by simp [intText, h, natStr])
    · obtain ⟨c, rest, htext, hc⟩ := natStr_eq_cons h
      exact .inr ⟨⟨natStr_ne_nil _, fun d hd => isDigit_of_mem_natStr hd⟩, by
        simp [intText, htext, hc]⟩
  fraction := by simp [intText]
  exponent := by simp [intText]

theorem numberValue_intText {n : Int} (h : (natStr n.natAbs).length ≤ maxIntDigits) :
    numberValue (intText n) = .ok (.int n) := by
  rw [numberValue, if_pos ⟨rfl, rfl⟩, if_neg (by simpa [intText] using h)]
  simp only [intText, digitsValue_natStr, decide_eq_true_iff, Except.ok.injEq, Json.int.injEq]
  split <;> omega

theorem numberValue_float (negative : Bool) (m : PyFloat.Magnitude) :
    numberValue (m.numberText negative) =
      .ok (.float (.finite negative m.significand m.exponent m.normal)) := by
  rw [numberValue, if_neg]
  · simp [PyFloat.ofMagnitude]
  · rintro ⟨hfraction, hexponent⟩
    rcases PyFloat.Magnitude.numberText_isFloat negative m with h | h
    · exact h hfraction
    · exact h hexponent


/-- A text that starts a value: no white space, no closing bracket and no byte order mark. -/
def StartsValue (s : Str) : Prop := ∃ c rest, s = c :: rest ∧ c ∉ [93, 32, 9, 10, 13, 0xFEFF]

theorem StartsAtom.startsValue {s : Str} (h : StartsAtom s) : StartsValue s := by
  obtain ⟨c, rest, rfl, hc⟩ := h
  simp only [List.mem_cons, not_or] at hc ⊢
  exact ⟨c, rest, rfl, by simp [hc]⟩

theorem skipSpace_of_startsValue {s : Str} (h : StartsValue s) (rest : Str) :
    skipSpace (s ++ rest) = s ++ rest := by
  obtain ⟨c, tail, rfl, hc⟩ := h
  simp only [List.mem_cons, not_or] at hc
  simp [skipSpace, isJsonSpace, hc]

@[simp]
theorem skipSpace_comma (s : Str) : skipSpace (44 :: s) = 44 :: s := rfl

@[simp]
theorem skipSpace_colon (s : Str) : skipSpace (58 :: s) = 58 :: s := rfl

@[simp]
theorem skipSpace_bracket (s : Str) : skipSpace (93 :: s) = 93 :: s := rfl

@[simp]
theorem skipSpace_brace (s : Str) : skipSpace (125 :: s) = 125 :: s := rfl

@[simp]
theorem skipSpace_quote (s : Str) : skipSpace (34 :: s) = 34 :: s := rfl

theorem skipSpace_spaces {space s : Str} (h : ∀ c ∈ space, isJsonSpace c = true)
    (hs : skipSpace s = s) : skipSpace (space ++ s) = s := by
  rw [skipSpace, List.dropWhile_append_of_pos h]
  exact hs

theorem Str.join_cons_cons (separator first second : Str) (rest : List Str) :
    Str.join separator (first :: second :: rest) =
      first ++ (separator ++ Str.join separator (second :: rest)) := by
  simp [Str.join, List.intercalate]

theorem Str.join_map_cons_cons {α : Type} (separator : Str) (text : α → Str) (first second : α)
    (rest : List α) : Str.join separator ((first :: second :: rest).map text) =
      text first ++ (separator ++ Str.join separator ((second :: rest).map text)) :=
  Str.join_cons_cons separator (text first) (text second) (rest.map text)

theorem Str.join_singleton (separator text : Str) : Str.join separator [text] = text := by
  simp [Str.join, List.intercalate]

theorem endsNumber_comma (rest : Str) : EndsNumber (44 :: rest) := by
  simp [EndsNumber, Str.isDigit]

theorem endsNumber_bracket (rest : Str) : EndsNumber (93 :: rest) := by
  simp [EndsNumber, Str.isDigit]

theorem endsNumber_brace (rest : Str) : EndsNumber (125 :: rest) := by
  simp [EndsNumber, Str.isDigit]

section Nested

variable {inner : Str → Except PyErr (Json × Str)} {separator : Str}

/-- A text that is read as a value whatever follows it. -/
def ReadsAs (inner : Str → Except PyErr (Json × Str)) (text : Str) (v : Json) : Prop :=
  StartsValue text ∧ ∀ rest, EndsNumber rest → inner (text ++ rest) = .ok (v, rest)

/-- At least one code point for every text that starts a value. -/
theorem length_le_join (texts : List Str) (h : ∀ text ∈ texts, StartsValue text) :
    texts.length ≤ (Str.join separator texts).length := by
  induction texts with
  | nil => simp
  | cons first rest ih =>
    obtain ⟨c, tail, hfirst, -⟩ := h first (by simp)
    have hrest := ih fun text htext => h text (by simp [htext])
    cases rest with
    | nil => simp [Str.join_singleton, hfirst]
    | cons second rest =>
      rw [Str.join_cons_cons, hfirst]
      simp only [List.length_append, List.length_cons] at hrest ⊢
      omega

/-- The items of a written list are read back. -/
theorem scanItems_join (hseparator : DumpFormat.IsSeparator 44 separator)
    {items : List (Str × Json)} (hinner : ∀ item ∈ items, ReadsAs inner item.1 item.2)
    (hne : items ≠ []) {n : Nat} (hn : items.length ≤ n) (rest : Str) :
    scanItems inner n (Str.join separator (items.map (·.1)) ++ 93 :: rest) =
      .ok (items.map (·.2), rest) := by
  induction items generalizing n with
  | nil => exact absurd rfl hne
  | cons first others ih =>
    obtain ⟨-, hfirst⟩ := hinner first (by simp)
    cases n with
    | zero => simp at hn
    | succ n =>
      cases others with
      | nil =>
        rw [List.map_singleton, Str.join_singleton, scanItems, hfirst _ (endsNumber_bracket rest)]
        rfl
      | cons second others =>
        obtain ⟨space, rfl, hspace⟩ := hseparator
        have hstart := (hinner second (by simp)).1
        have hskip : skipSpace (space ++
            (Str.join (44 :: space) ((second :: others).map (·.1)) ++ 93 :: rest)) =
              Str.join (44 :: space) ((second :: others).map (·.1)) ++ 93 :: rest := by
          refine skipSpace_spaces hspace ?_
          cases others with
          | nil =>
            rw [List.map_singleton, Str.join_singleton]
            exact skipSpace_of_startsValue hstart _
          | cons third others =>
            rw [Str.join_map_cons_cons, List.append_assoc]
            exact skipSpace_of_startsValue hstart _
        have hrest := ih (fun item hitem => hinner item (by simp [hitem])) (by simp)
          (Nat.le_of_succ_le_succ hn)
        rw [Str.join_map_cons_cons, scanItems]
        simp only [List.append_assoc, List.cons_append]
        rw [hfirst _ (endsNumber_comma _)]
        simp only [ok_bind, skipSpace_comma]
        rw [hskip, hrest]
        rfl

/-- A written list is read back. -/
theorem scanArray_join (hseparator : DumpFormat.IsSeparator 44 separator)
    {items : List (Str × Json)} (hinner : ∀ item ∈ items, ReadsAs inner item.1 item.2)
    (rest : Str) :
    scanArray inner (Str.join separator (items.map (·.1)) ++ 93 :: rest) =
      .ok (.list (items.map (·.2)), rest) := by
  cases items with
  | nil => simp [scanArray, Str.join, List.intercalate]
  | cons first others =>
    obtain ⟨c, tail, hjoin, hc⟩ :
        StartsValue (Str.join separator ((first :: others).map (·.1))) := by
      obtain ⟨c, tail, hfirst, hc⟩ := (hinner first (by simp)).1
      cases others with
      | nil => exact ⟨c, tail, by rw [List.map_singleton, Str.join_singleton, hfirst], hc⟩
      | cons second others =>
        exact ⟨c, tail ++ (separator ++ Str.join separator ((second :: others).map (·.1))),
          by rw [Str.join_map_cons_cons, hfirst, List.cons_append], hc⟩
    have hlength := @length_le_join separator ((first :: others).map (·.1))
      fun text htext => by
        obtain ⟨item, hitem, rfl⟩ := List.mem_map.mp htext
        exact (hinner item hitem).1
    have hitems := scanItems_join hseparator hinner (by simp)
      (n := (Str.join separator ((first :: others).map (·.1)) ++ 93 :: rest).length)
      (by rw [List.length_map] at hlength; rw [List.length_append]; omega) rest
    have hskip : skipSpace (Str.join separator ((first :: others).map (·.1)) ++ 93 :: rest) =
        Str.join separator ((first :: others).map (·.1)) ++ 93 :: rest :=
      skipSpace_of_startsValue ⟨c, tail, hjoin, hc⟩ _
    rw [scanArray, hskip]
    rw [hjoin] at hitems ⊢
    split
    next heq =>
      simp only [List.mem_cons, not_or] at hc
      exact absurd (List.cons.inj heq).1 hc.1
    · rw [hitems]
      rfl

/-- A written entry of a dict is read back. -/
theorem scanEntry_field {colon key text : Str} {v : Json}
    (hcolon : DumpFormat.IsSeparator 58 colon) (hkey : key.Readable)
    (htext : ReadsAs inner text v) {rest : Str} (hrest : EndsNumber rest) :
    scanEntry inner (dumpStr key ++ colon ++ text ++ rest) = .ok ((key, v), rest) := by
  obtain ⟨space, rfl, hspace⟩ := hcolon
  have hskip : skipSpace (space ++ (text ++ rest)) = text ++ rest :=
    skipSpace_spaces hspace (skipSpace_of_startsValue htext.1 rest)
  have hentry : dumpStr key ++ 58 :: space ++ text ++ rest =
      34 :: (key.flatMap dumpChar ++ 34 :: 58 :: (space ++ (text ++ rest))) := by
    simp [dumpStr]
  rw [hentry, scanEntry, scanString_dumpStr hkey]
  simp only [ok_bind, skipSpace_colon]
  rw [hskip, htext.2 rest hrest]
  rfl

/-- The entries of a written dict are read back. -/
theorem scanEntries_join (hseparator : DumpFormat.IsSeparator 44 separator) {α : Type}
    {text : α → Str} {entry : α → Str × Json} {fields : List α}
    (hquote : ∀ field ∈ fields, ∃ tail, text field = 34 :: tail)
    (hread : ∀ field ∈ fields, ∀ rest, EndsNumber rest →
      scanEntry inner (text field ++ rest) = .ok (entry field, rest))
    (hne : fields ≠ []) {n : Nat} (hn : fields.length ≤ n) (rest : Str) :
    scanEntries inner n (Str.join separator (fields.map text) ++ 125 :: rest) =
      .ok (fields.map entry, rest) := by
  induction fields generalizing n with
  | nil => exact absurd rfl hne
  | cons first others ih =>
    have hfirst := hread first (by simp)
    cases n with
    | zero => simp at hn
    | succ n =>
      cases others with
      | nil =>
        rw [List.map_singleton, Str.join_singleton, scanEntries, hfirst _ (endsNumber_brace rest)]
        rfl
      | cons second others =>
        obtain ⟨space, rfl, hspace⟩ := hseparator
        obtain ⟨tail, htail⟩ := hquote second (by simp)
        have hskip : skipSpace (space ++
            (Str.join (44 :: space) ((second :: others).map text) ++ 125 :: rest)) =
              Str.join (44 :: space) ((second :: others).map text) ++ 125 :: rest := by
          refine skipSpace_spaces hspace ?_
          cases others with
          | nil => simp [Str.join_singleton, htail]
          | cons third others => simp [Str.join_cons_cons, htail]
        have hrest := ih (fun field hfield => hquote field (by simp [hfield]))
          (fun field hfield => hread field (by simp [hfield])) (by simp)
          (Nat.le_of_succ_le_succ hn)
        rw [Str.join_map_cons_cons, scanEntries]
        simp only [List.append_assoc, List.cons_append]
        rw [hfirst _ (endsNumber_comma _)]
        simp only [ok_bind, skipSpace_comma]
        rw [hskip, hrest]
        rfl

/-- A written dict is read back. -/
theorem scanObject_join (hseparator : DumpFormat.IsSeparator 44 separator) {α : Type}
    {text : α → Str} {entry : α → Str × Json} {fields : List α}
    (hquote : ∀ field ∈ fields, ∃ tail, text field = 34 :: tail)
    (hread : ∀ field ∈ fields, ∀ rest, EndsNumber rest →
      scanEntry inner (text field ++ rest) = .ok (entry field, rest)) (rest : Str) :
    scanObject inner (Str.join separator (fields.map text) ++ 125 :: rest) =
      .ok (.dict (Obj.ofPairs (fields.map entry)), rest) := by
  cases fields with
  | nil => simp [scanObject, Str.join, List.intercalate, Obj.ofPairs]
  | cons first others =>
    obtain ⟨tail, hjoin⟩ : ∃ tail, Str.join separator ((first :: others).map text) = 34 :: tail := by
      obtain ⟨tail, htail⟩ := hquote first (by simp)
      cases others with
      | nil => exact ⟨tail, by rw [List.map_singleton, Str.join_singleton, htail]⟩
      | cons second others =>
        exact ⟨tail ++ (separator ++ Str.join separator ((second :: others).map text)),
          by rw [Str.join_map_cons_cons, htail, List.cons_append]⟩
    have hlength := @length_le_join separator ((first :: others).map text)
      fun t ht => by
        obtain ⟨field, hfield, rfl⟩ := List.mem_map.mp ht
        obtain ⟨tail, htail⟩ := hquote field hfield
        exact ⟨34, tail, htail, by decide⟩
    have hentries := scanEntries_join hseparator hquote hread (by simp)
      (n := (Str.join separator ((first :: others).map text) ++ 125 :: rest).length)
      (by rw [List.length_map] at hlength; rw [List.length_append]; omega) rest
    rw [scanObject, hjoin, List.cons_append, skipSpace_quote]
    rw [hjoin, List.cons_append] at hentries
    simp only [hentries]
    rfl

end Nested

/-- A text that is read as a value is that value's document, whatever white space follows it. -/
theorem loads_of_readsAs {depth : Nat} {text : Str} {v : Json}
    (h : ReadsAs (scanOnce depth) text v) {space : Str}
    (hspace : ∀ c ∈ space, isJsonSpace c = true) : loads depth (text ++ space) = .ok v := by
  obtain ⟨hstart, hread⟩ := h
  have hends : EndsNumber space := by
    intro c hc
    have hwhite := hspace c (List.mem_of_mem_head? hc)
    simp only [isJsonSpace, Bool.or_eq_true, beq_iff_eq] at hwhite
    rcases hwhite with ((rfl | rfl) | rfl) | rfl <;> decide
  have hskip := skipSpace_of_startsValue hstart space
  have hrest : skipSpace space = [] := by
    simpa [skipSpace, List.dropWhile_eq_nil_iff] using hspace
  have hbom : (text ++ space).head? ≠ some 0xFEFF := by
    obtain ⟨c, tail, htext, hc⟩ := hstart
    rw [htext]
    rintro hhead
    simp_all
  rw [loads, if_neg (by simpa using hbom), hskip, hread space hends, ok_bind]
  simp [hrest]

/-- A dict of pairs with distinct keys is those pairs. -/
theorem Obj.ofPairs_of_nodup {pairs : Obj} (h : (pairs.map (·.1)).Nodup) :
    Obj.ofPairs pairs = pairs := by
  have hfold : ∀ before : Obj, (before ++ pairs).map (·.1) |>.Nodup →
      pairs.foldl (fun o entry => Obj.set o entry.1 entry.2) before = before ++ pairs := by
    clear h
    induction pairs with
    | nil => simp
    | cons entry rest ih =>
      intro before hnodup
      have hnew : Obj.has before entry.1 = false := by
        rw [Obj.has, Option.isSome_eq_false_iff, Option.isNone_iff_eq_none,
          List.lookup_eq_none_iff]
        intro other hother
        rw [List.map_append, List.nodup_append] at hnodup
        have hne := hnodup.2.2 other.1 (List.mem_map_of_mem hother) entry.1 (by simp)
        simpa using Ne.symm hne
      rw [List.foldl_cons, Obj.set, hnew]
      simpa using ih (before ++ [entry]) (by simpa using hnodup)
  exact hfold [] (by simpa using h)

namespace DumpFormat

variable {format : DumpFormat}

/-- What is written for a value that is no string, list or dict is read back. -/
theorem scanOnce_of_atom {v : Json} {depth : Nat} {rest : Str} (hstart : StartsAtom (format.dumps v))
    (hatom : scanAtom (format.dumps v ++ rest) = .ok (v, rest)) :
    scanOnce depth (format.dumps v ++ rest) = .ok (v, rest) := by
  rw [scanOnce_of_startsAtom hstart, hatom]

/-- A written value is read back, whatever ends a number after it. -/
theorem readsAs_dumps (hformat : format.Standard) {depth : Nat} {v : Json}
    (hv : v.Readable depth) : ReadsAs (scanOnce depth) (format.dumps v) (format.reorder v) := by
  have hatom : ∀ {depth : Nat} {v : Json}, format.reorder v = v → StartsAtom (format.dumps v) →
      (∀ rest, EndsNumber rest → scanAtom (format.dumps v ++ rest) = .ok (v, rest)) →
      ReadsAs (scanOnce depth) (format.dumps v) (format.reorder v) := by
    intro depth v hsame hstart hscan
    refine ⟨hstart.startsValue, fun rest hrest => ?_⟩
    rw [hsame]
    exact scanOnce_of_atom hstart (hscan rest hrest)
  induction hv with
  | null depth => exact hatom (v := .null) rfl ⟨110, _, rfl, by decide⟩ fun _ _ => rfl
  | bool depth b =>
    cases b with
    | true => exact hatom (v := .bool true) rfl ⟨116, _, rfl, by decide⟩ fun _ _ => rfl
    | false => exact hatom (v := .bool false) rfl ⟨102, _, rfl, by decide⟩ fun _ _ => rfl
  | int depth n short =>
    have htext : format.dumps (.int n) = (intText n).text := (intText_text n).symm
    refine hatom rfl (htext ▸ (intText_valid n).startsAtom) fun rest hrest => ?_
    rw [htext, scanAtom_text (intText_valid n) hrest, numberValue_intText short]
    rfl
  | float depth x =>
    cases x with
    | nan => exact hatom (v := .float .nan) rfl ⟨78, _, rfl, by decide⟩ fun _ _ => rfl
    | inf negative =>
      cases negative with
      | true => exact hatom (v := .float (.inf true)) rfl ⟨45, _, rfl, by decide⟩ fun _ _ => rfl
      | false => exact hatom (v := .float (.inf false)) rfl ⟨73, _, rfl, by decide⟩ fun _ _ => rfl
    | finite negative significand exponent normal =>
      have hvalid := PyFloat.Magnitude.numberText_valid negative ⟨significand, exponent, normal⟩
      refine hatom rfl hvalid.startsAtom fun rest hrest => ?_
      exact (scanAtom_text hvalid hrest).trans (by rw [numberValue_float]; rfl)
  | str depth s text =>
    refine ⟨⟨34, _, rfl, by decide⟩, fun rest _ => ?_⟩
    have hsplit : format.dumps (.str s) ++ rest = 34 :: (s.flatMap dumpChar ++ 34 :: rest) := by
      simp [dumps, dumpStr]
    rw [hsplit]
    cases depth <;> simp [scanOnce, scanString_dumpStr text, reorder, Except.map]
  | list depth items values ih =>
    refine ⟨⟨91, _, dumps_list items, by decide⟩, fun rest _ => ?_⟩
    have hitems := @scanArray_join (scanOnce depth) _ hformat.item
      (items.map fun v => (format.dumps v, format.reorder v)) (by simpa using ih) rest
    simp only [List.map_map, Function.comp_def] at hitems
    rw [dumps_list, List.cons_append, List.append_assoc, scanOnce]
    simp only [Nat.reduceBEq, Bool.false_eq_true, if_false, if_true]
    exact hitems.trans (by rw [reorder, reorderItems_eq_map])
  | dict depth entries distinct keys values ih =>
    refine ⟨⟨123, _, dumps_dict entries, by decide⟩, fun rest _ => ?_⟩
    have hperm := format.arrange_perm entries
    have hfields := @scanObject_join (scanOnce depth) _ hformat.item _
      (fun entry : Str × Json => dumpStr entry.1 ++ format.keySeparator ++ format.dumps entry.2)
      (fun entry => (entry.1, format.reorder entry.2)) (format.arrange entries) (fun entry _ => ⟨_, rfl⟩)
      (fun entry hentry rest hrest => by
        have hmem := hperm.mem_iff.mp hentry
        exact scanEntry_field hformat.key (keys entry hmem) (ih entry hmem) hrest) rest
    rw [dumps_dict, List.cons_append, List.append_assoc, scanOnce]
    simp only [Nat.reduceBEq, Bool.false_eq_true, if_false, if_true]
    refine hfields.trans ?_
    rw [Obj.ofPairs_of_nodup, reorder, reorderEntries_eq_map, arrange_map]
    rw [List.map_map]
    exact (hperm.map _).nodup_iff.mpr distinct

/-- A written text is read back, whatever white space follows it. -/
theorem loads_dumps_append (hformat : format.Standard) {depth : Nat} {v : Json}
    (hv : v.Readable depth) {space : Str} (hspace : ∀ c ∈ space, isJsonSpace c = true) :
    loads depth (format.dumps v ++ space) = .ok (format.reorder v) :=
  loads_of_readsAs (readsAs_dumps hformat hv) hspace

/-- A written text is read back. -/
theorem loads_dumps (hformat : format.Standard) {depth : Nat} {v : Json} (hv : v.Readable depth) :
    loads depth (format.dumps v) = .ok (format.reorder v) := by
  simpa using @loads_dumps_append format hformat depth v hv [] (by simp)

end DumpFormat

end Python
