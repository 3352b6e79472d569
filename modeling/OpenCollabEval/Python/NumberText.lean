import Mathlib.Algebra.Order.Field.Rat
import OpenCollabEval.Python.Digits

/-!
# The text of a number

A number as JSON writes it: a sign, whole digits, and perhaps a fraction and an exponent. Reading
takes the longest number that a text starts with, and gets back what was written.
-/

namespace Python

/-- The parts of a number's text. -/
structure NumberText where
  negative : Bool
  whole : Str
  fraction : Option Str
  /-- The sign and the digits after `e`. -/
  exponent : Option (Str × Str)
  deriving DecidableEq

namespace NumberText

/-- The fraction with its point. -/
def fractionText (t : NumberText) : Str := t.fraction.elim [] fun ds => 46 :: ds

/-- The exponent with its letter. -/
def exponentText (t : NumberText) : Str := t.exponent.elim [] fun e => 101 :: (e.1 ++ e.2)

/-- The written number. -/
def text (t : NumberText) : Str :=
  (if t.negative then [45] else []) ++ (t.whole ++ (t.fractionText ++ t.exponentText))

/-- The number that some signed digits write. -/
def exponentValue (e : Str × Str) : Int :=
  if e.1 = [45] then -digitsValue e.2 else digitsValue e.2

/-- The number without its sign. -/
def magnitude (t : NumberText) : ℚ :=
  digitsValue (t.whole ++ t.fraction.getD []) *
    10 ^ ((t.exponent.map exponentValue).getD 0 - (t.fraction.getD []).length)

/-- Nonempty decimal digits. -/
def AreDigits (s : Str) : Prop := s ≠ [] ∧ ∀ c ∈ s, Str.isDigit c = true

/-- What the parts of a number have to be. -/
structure Valid (t : NumberText) : Prop where
  whole : t.whole = [48] ∨ AreDigits t.whole ∧ t.whole.head? ≠ some 48
  fraction : ∀ ds, t.fraction = some ds → AreDigits ds
  exponent : ∀ e, t.exponent = some e → (e.1 = [] ∨ e.1 = [43] ∨ e.1 = [45]) ∧ AreDigits e.2

end NumberText

/-- The digits that a text starts with, and the rest. -/
def spanDigits (s : Str) : Str × Str := s.span Str.isDigit

/-- `0|[1-9]\d*` -/
def scanWhole : Str → Option (Str × Str)
  | [] => none
  | c :: rest =>
    if c == 48 then some ([48], rest)
    else if Str.isDigit c then some (spanDigits (c :: rest)) else none

/-- `(\.\d+)?` -/
def scanFraction : Str → Option Str × Str
  | [] => (none, [])
  | c :: rest =>
    if c == 46 then
      let (ds, tail) := spanDigits rest
      if ds.isEmpty then (none, c :: rest) else (some ds, tail)
    else (none, c :: rest)

/-- `[-+]?` -/
def scanSign : Str → Str × Str
  | [] => ([], [])
  | c :: rest => if c == 43 || c == 45 then ([c], rest) else ([], c :: rest)

/-- `([eE][-+]?\d+)?` -/
def scanExponent : Str → Option (Str × Str) × Str
  | [] => (none, [])
  | c :: rest =>
    if c == 101 || c == 69 then
      let (sign, digits) := scanSign rest
      let (ds, tail) := spanDigits digits
      if ds.isEmpty then (none, c :: rest) else (some (sign, ds), tail)
    else (none, c :: rest)

/-- `-?` -/
def scanMinus : Str → Bool × Str
  | [] => (false, [])
  | c :: rest => if c == 45 then (true, rest) else (false, c :: rest)

/-- The longest number that a text starts with, and the rest. -/
def scanNumber (s : Str) : Option (NumberText × Str) := do
  let (negative, s) := scanMinus s
  let (whole, s) ← scanWhole s
  let (fraction, s) := scanFraction s
  let (exponent, s) := scanExponent s
  return (⟨negative, whole, fraction, exponent⟩, s)

/-- A text that does not start with something that could belong to a number. -/
def EndsNumber (s : Str) : Prop :=
  ∀ c ∈ s.head?, Str.isDigit c = false ∧ c ≠ 46 ∧ c ≠ 101 ∧ c ≠ 69

theorem isDigit_ne {c d : Nat} (h : Str.isDigit c = true) (hd : Str.isDigit d = false) : c ≠ d := by
  rintro rfl
  simp [hd] at h

theorem spanDigits_append {ds rest : Str} (hds : ∀ c ∈ ds, Str.isDigit c = true)
    (hrest : ∀ c ∈ rest.head?, Str.isDigit c = false) : spanDigits (ds ++ rest) = (ds, rest) := by
  have htail : rest.span Str.isDigit = ([], rest) := by
    cases rest with
    | nil => rfl
    | cons c rest => simp [List.span_eq_takeWhile_dropWhile, hrest c (by simp)]
  rw [List.span_eq_takeWhile_dropWhile, Prod.mk.injEq] at htail
  rw [spanDigits, List.span_eq_takeWhile_dropWhile, List.takeWhile_append_of_pos hds,
    List.dropWhile_append_of_pos hds, htail.1, htail.2, List.append_nil]

section Scan

variable {t : NumberText} {rest : Str}

/-- The exponent is read back. -/
theorem scanExponent_text (ht : t.Valid) (hrest : EndsNumber rest) :
    scanExponent (t.exponentText ++ rest) = (t.exponent, rest) := by
  rw [NumberText.exponentText]
  rcases hexponent : t.exponent with _ | ⟨sign, ds⟩
  · cases rest with
    | nil => rfl
    | cons c rest => simp [scanExponent, hrest c (by simp)]
  · obtain ⟨hsign, hne, hdigits⟩ := ht.exponent _ hexponent
    have hspan := spanDigits_append hdigits fun c hc => (hrest c hc).1
    have hscan : scanSign (sign ++ (ds ++ rest)) = (sign, ds ++ rest) := by
      rcases hsign with rfl | rfl | rfl
      · obtain ⟨d, ds, rfl⟩ := List.exists_cons_of_ne_nil hne
        have hd := hdigits d (by simp)
        simp [scanSign, isDigit_ne hd (show Str.isDigit 43 = false from rfl),
          isDigit_ne hd (show Str.isDigit 45 = false from rfl)]
      · rfl
      · rfl
    simp only [Option.elim_some, List.cons_append, List.append_assoc, scanExponent, hscan, hspan]
    simp [hne]

/-- What follows the fraction starts with no digit and no point. -/
theorem exponentText_head (hrest : EndsNumber rest) :
    ∀ c ∈ (t.exponentText ++ rest).head?, Str.isDigit c = false ∧ c ≠ 46 := by
  rw [NumberText.exponentText]
  intro c hc
  rcases hexponent : t.exponent with _ | e
  · rw [hexponent] at hc
    exact ⟨(hrest c hc).1, (hrest c hc).2.1⟩
  · obtain rfl : 101 = c := by simpa [hexponent] using hc
    decide

/-- The fraction is read back. -/
theorem scanFraction_text (ht : t.Valid) (hrest : EndsNumber rest) :
    scanFraction (t.fractionText ++ (t.exponentText ++ rest)) =
      (t.fraction, t.exponentText ++ rest) := by
  have hhead := exponentText_head (t := t) hrest
  rw [NumberText.fractionText]
  rcases hfraction : t.fraction with _ | ds
  · rcases htail : t.exponentText ++ rest with _ | ⟨c, tail⟩
    · rfl
    · have hc := (hhead c (by simp [htail])).2
      simp [scanFraction, hc]
  · obtain ⟨hne, hdigits⟩ := ht.fraction _ hfraction
    have hspan := spanDigits_append hdigits fun c hc => (hhead c hc).1
    simp only [Option.elim_some, List.cons_append, scanFraction, hspan]
    simp [hne]

/-- What follows the whole digits starts with no digit. -/
theorem fractionText_head (hrest : EndsNumber rest) :
    ∀ c ∈ (t.fractionText ++ (t.exponentText ++ rest)).head?, Str.isDigit c = false := by
  rw [NumberText.fractionText]
  intro c hc
  rcases hfraction : t.fraction with _ | ds
  · rw [hfraction] at hc
    exact (exponentText_head hrest c hc).1
  · obtain rfl : 46 = c := by simpa [hfraction] using hc
    decide

/-- The whole digits are read back. -/
theorem scanWhole_text (ht : t.Valid) (hrest : EndsNumber rest) :
    scanWhole (t.whole ++ (t.fractionText ++ (t.exponentText ++ rest))) =
      some (t.whole, t.fractionText ++ (t.exponentText ++ rest)) := by
  rcases ht.whole with hzero | ⟨⟨hne, hdigits⟩, hhead⟩
  · simp [hzero, scanWhole]
  · obtain ⟨c, ds, hwhole⟩ := List.exists_cons_of_ne_nil hne
    have hspan := spanDigits_append hdigits (fractionText_head (t := t) hrest)
    have hc : Str.isDigit c = true := hdigits c (by simp [hwhole])
    have hnonzero : c ≠ 48 := by simpa [hwhole] using hhead
    rw [hwhole, List.cons_append] at hspan ⊢
    simp [scanWhole, hnonzero, hc, hspan]

/-- A number is read back from its text. -/
theorem scanNumber_text (ht : t.Valid) (hrest : EndsNumber rest) :
    scanNumber (t.text ++ rest) = some (t, rest) := by
  have hminus : scanMinus (t.text ++ rest) =
      (t.negative, t.whole ++ (t.fractionText ++ (t.exponentText ++ rest))) := by
    obtain ⟨c, ds, hwhole, hc⟩ : ∃ c ds, t.whole = c :: ds ∧ Str.isDigit c = true := by
      rcases ht.whole with hzero | ⟨⟨hne, hdigits⟩, -⟩
      · exact ⟨48, [], hzero, rfl⟩
      · obtain ⟨c, ds, hwhole⟩ := List.exists_cons_of_ne_nil hne
        exact ⟨c, ds, hwhole, hdigits c (by simp [hwhole])⟩
    have hne : c ≠ 45 := isDigit_ne hc rfl
    cases hnegative : t.negative <;> simp [NumberText.text, hnegative, hwhole, scanMinus, hne]
  simp only [scanNumber, hminus, scanWhole_text ht hrest, scanFraction_text ht hrest,
    scanExponent_text ht hrest, Option.bind_eq_bind, Option.bind_some]
  rfl

end Scan

end Python
