import Mathlib.Data.Nat.Digits.Defs
import Mathlib.Data.Nat.Digits.Lemmas
import OpenCollabEval.Python.Text

/-!
# Numbers as digits

The decimal text of an integer, the hexadecimal text of a code unit, and what such a text says when
it is read back.

* `digitsValue_natStr`: the decimal text of a number has that number as its value.
* `hexPadded_four`: the four digits of a code unit, one by one.
-/

namespace Python

/-- The digits of a number, most significant first. -/
def digits (base : Nat) (n : Nat) : List Nat := (Nat.digits base n).reverse

/-- One hexadecimal digit in lower case. -/
def hexDigit (d : Nat) : Nat := if d < 10 then 48 + d else 87 + d

/-- A number in hexadecimal, padded with zeros to `width` digits. -/
def hexPadded (width n : Nat) : Str :=
  let ds := (Nat.digits 16 n).map hexDigit
  (ds ++ List.replicate (width - ds.length) 48).reverse

/-- `str(n)` of a natural number. -/
def natStr (n : Nat) : Str := if n = 0 then [48] else (digits 10 n).map (48 + ·)

/-- `str(n)` of an integer. -/
def intStr : Int → Str
  | .ofNat n => natStr n
  | .negSucc n => 45 :: natStr (n + 1)

/-- The number that some decimal digits write. -/
def digitsValue (text : Str) : Nat := Nat.ofDigits 10 ((text.map (· - 48)).reverse)

@[simp]
theorem digitsValue_nil : digitsValue [] = 0 := rfl

/-- Digits before others count for as many powers of ten. -/
theorem digitsValue_append (a b : Str) :
    digitsValue (a ++ b) = digitsValue a * 10 ^ b.length + digitsValue b := by
  rw [digitsValue, List.map_append, List.reverse_append, Nat.ofDigits_append]
  simp only [digitsValue, List.length_reverse, List.length_map]
  ring

@[simp]
theorem digitsValue_zeros (n : Nat) : digitsValue (List.replicate n 48) = 0 := by
  induction n with
  | zero => rfl
  | succ n ih =>
    rw [List.replicate_succ', digitsValue_append, ih]
    simp [digitsValue]

/-- Zeros after some digits are powers of ten. -/
theorem digitsValue_append_zeros (a : Str) (n : Nat) :
    digitsValue (a ++ List.replicate n 48) = digitsValue a * 10 ^ n := by
  simp [digitsValue_append]

/-- Zeros before some digits do not count. -/
theorem digitsValue_zeros_append (a : Str) (n : Nat) :
    digitsValue (List.replicate n 48 ++ a) = digitsValue a := by
  simp [digitsValue_append]

/-- The text of a number has its value. -/
@[simp]
theorem digitsValue_natStr (n : Nat) : digitsValue (natStr n) = n := by
  rw [natStr]
  split
  next h => simp [h, digitsValue]
  next h =>
    have hminus : ((digits 10 n).map (48 + ·)).map (· - 48) = digits 10 n := by
      rw [List.map_map]
      exact (List.map_congr_left fun d _ => by simp).trans (List.map_id _)
    rw [digitsValue, hminus, digits, List.reverse_reverse, Nat.ofDigits_digits]

/-- The text of a number consists of digits. -/
theorem isDigit_of_mem_natStr {n c : Nat} (h : c ∈ natStr n) : Str.isDigit c = true := by
  rw [natStr] at h
  split at h
  · simp only [List.mem_singleton] at h
    simp [h, Str.isDigit]
  · obtain ⟨d, hd, rfl⟩ := List.mem_map.mp h
    have hlt := Nat.digits_lt_base (by decide : 1 < 10) (List.mem_reverse.mp hd)
    simp only [Str.isDigit, Bool.and_eq_true, decide_eq_true_iff]
    omega

/-- The text of a number that is not zero starts with no zero. -/
theorem natStr_eq_cons {n : Nat} (h : n ≠ 0) :
    ∃ c rest, natStr n = c :: rest ∧ c ≠ 48 := by
  have hne : Nat.digits 10 n ≠ [] := Nat.digits_ne_nil_iff_ne_zero.mpr h
  have hlast : (Nat.digits 10 n).getLast hne ≠ 0 := Nat.getLast_digit_ne_zero 10 h
  have hdigits : digits 10 n =
      (Nat.digits 10 n).getLast hne :: (Nat.digits 10 n).dropLast.reverse := by
    conv_lhs => rw [digits, ← List.dropLast_append_getLast hne]
    rw [List.reverse_append]
    rfl
  refine ⟨48 + (Nat.digits 10 n).getLast hne, (Nat.digits 10 n).dropLast.reverse.map (48 + ·), ?_,
    by omega⟩
  rw [natStr, if_neg h, hdigits, List.map_cons]

theorem natStr_ne_nil (n : Nat) : natStr n ≠ [] := by
  by_cases h : n = 0
  · simp [natStr, h]
  · obtain ⟨c, rest, htext, -⟩ := natStr_eq_cons h
    simp [htext]

/-- The number of a hexadecimal digit. -/
def hexValue (c : Nat) : Option Nat :=
  if 48 ≤ c && c ≤ 57 then some (c - 48)
  else if 97 ≤ c && c ≤ 102 then some (c - 87)
  else if 65 ≤ c && c ≤ 70 then some (c - 55)
  else none

theorem hexValue_hexDigit {d : Nat} (h : d < 16) : hexValue (hexDigit d) = some d := by
  have hall : ∀ d : Fin 16, hexValue (hexDigit d) = some d.val := by decide
  exact hall ⟨d, h⟩

/-- The four digits of a code unit. -/
theorem hexPadded_four {n : Nat} (h : n < 65536) :
    hexPadded 4 n = [hexDigit (n / 4096), hexDigit (n / 256 % 16), hexDigit (n / 16 % 16),
      hexDigit (n % 16)] := by
  have hstep (m : Nat) (hm : m ≠ 0) : Nat.digits 16 m = m % 16 :: Nat.digits 16 (m / 16) :=
    Nat.digits_def' (by decide) (Nat.pos_of_ne_zero hm)
  have hzero : hexDigit 0 = 48 := rfl
  have hquot : n / 16 / 16 = n / 256 ∧ n / 256 / 16 = n / 4096 := by omega
  by_cases h0 : n = 0
  · simp [h0, hexPadded, hzero]
  by_cases h1 : n / 16 = 0
  · have hrest : n / 256 = 0 ∧ n / 4096 = 0 := by omega
    simp [hexPadded, hstep n h0, h1, hrest, hzero, List.replicate]
  by_cases h2 : n / 256 = 0
  · have hrest : n / 4096 = 0 := by omega
    simp [hexPadded, hstep n h0, hstep _ h1, hquot, h2, hrest, hzero, List.replicate]
  by_cases h3 : n / 4096 = 0
  · simp [hexPadded, hstep n h0, hstep _ h1, hquot, hstep _ h2, h3, hzero]
  · have hsmall : n / 4096 % 16 = n / 4096 := by omega
    have hlast : n / 4096 / 16 = 0 := by omega
    simp [hexPadded, hstep n h0, hstep _ h1, hquot, hstep _ h2, hstep _ h3, hsmall, hlast]

end Python
