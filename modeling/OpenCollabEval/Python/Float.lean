import Mathlib.Data.Int.Log
import Mathlib.Data.Rat.Floor
import Mathlib.Algebra.Order.Field.Power
import Mathlib.Tactic.LinearCombination
import Mathlib.Tactic.Positivity
import OpenCollabEval.Python.Json
import OpenCollabEval.Python.NumberText

/-!
# Floats as text

`float(s)` rounds a decimal number to the nearest binary64 value, ties to even; `repr(x)` is the
shortest decimal text that is read back as `x`, the closest one of several.

* `PyFloat.roundMagnitude_toRat`: a binary64 magnitude is rounded to itself.
* `PyFloat.Magnitude.roundMagnitude_shortest`: so is the decimal number that `repr` writes.
-/

namespace Python

/-- The nearest natural number, the even one of two. -/
def roundHalfEven (q : ℚ) : Nat :=
  let n := ⌊q⌋.toNat
  if q - n < 1 / 2 then n
  else if 1 / 2 < q - n then n + 1
  else if n % 2 = 0 then n else n + 1

@[simp]
theorem roundHalfEven_natCast (n : Nat) : roundHalfEven n = n := by
  simp [roundHalfEven]

/-- A decimal number `digits · 10 ^ exponent`. -/
structure Decimal where
  digits : Nat
  exponent : Int

namespace Decimal

/-- The number that a decimal writes. -/
def toRat (d : Decimal) : ℚ := d.digits * 10 ^ d.exponent

/-- The digits without trailing zeros. -/
def significant (d : Decimal) : Str := (natStr d.digits).rdropWhile (· == 48)

/-- How many of the digits stand before the point. -/
def point (d : Decimal) : Int := (natStr d.digits).length + d.exponent

/-- At least two digits. -/
def twoDigits (n : Nat) : Str := (if n < 10 then [48] else []) ++ natStr n

/-- Digits with a point among, before or behind them. -/
def fixedText (negative : Bool) (ds : Str) (point : Int) : NumberText :=
  if point ≤ 0 then ⟨negative, [48], some (List.replicate (-point).toNat 48 ++ ds), none⟩
  else if ds.length ≤ point.toNat then
    ⟨negative, ds ++ List.replicate (point.toNat - ds.length) 48, some [48], none⟩
  else ⟨negative, ds.take point.toNat, some (ds.drop point.toNat), none⟩

/-- Digits with a point after the first one, and an exponent. -/
def scientificText (negative : Bool) (ds : Str) (exponent : Int) : NumberText :=
  let fraction := ds.drop 1
  ⟨negative, ds.take 1, if fraction.isEmpty then none else some fraction,
    some (if exponent < 0 then [45] else [43], twoDigits exponent.natAbs)⟩

/-- A decimal number as `repr` writes it: with an exponent when the point is far from the digits. -/
def numberText (negative : Bool) (d : Decimal) : NumberText :=
  if -4 < d.point ∧ d.point ≤ 16 then fixedText negative d.significant d.point
  else scientificText negative d.significant (d.point - 1)

/-- The digits are the significant ones and zeros. -/
theorem natStr_digits (d : Decimal) :
    ∃ n, natStr d.digits = d.significant ++ List.replicate n 48 := by
  have hsplit := List.takeWhile_append_dropWhile (p := (· == 48)) (l := (natStr d.digits).reverse)
  have hzeros : (natStr d.digits).reverse.takeWhile (· == 48) =
      List.replicate ((natStr d.digits).reverse.takeWhile (· == 48)).length 48 :=
    List.eq_replicate_of_mem fun c hc => by simpa using List.mem_takeWhile_imp hc
  refine ⟨((natStr d.digits).reverse.takeWhile (· == 48)).length, ?_⟩
  calc natStr d.digits
      = (natStr d.digits).reverse.reverse := (List.reverse_reverse _).symm
    _ = d.significant ++ ((natStr d.digits).reverse.takeWhile (· == 48)).reverse := by
        rw [← hsplit, List.reverse_append, hsplit]
        rfl
    _ = _ := by rw [hzeros, List.reverse_replicate, List.length_replicate]

/-- The significant digits and the point say which number it is. -/
theorem toRat_eq (d : Decimal) :
    d.toRat = digitsValue d.significant * 10 ^ (d.point - d.significant.length) := by
  obtain ⟨n, hn⟩ := natStr_digits d
  have hvalue : d.digits = digitsValue d.significant * 10 ^ n := by
    rw [← digitsValue_append_zeros, ← hn, digitsValue_natStr]
  have hpoint : d.point - d.significant.length = n + d.exponent := by
    rw [point, hn]
    simp only [List.length_append, List.length_replicate]
    omega
  rw [toRat, hpoint, zpow_add₀ (by norm_num), hvalue]
  push_cast
  rw [zpow_natCast]
  ring

/-- The significant digits of a number that is not zero start with no zero. -/
theorem significant_eq_cons {d : Decimal} (h : d.digits ≠ 0) :
    ∃ c rest, d.significant = c :: rest ∧ c ≠ 48 ∧ NumberText.AreDigits (c :: rest) := by
  obtain ⟨n, hn⟩ := natStr_digits d
  obtain ⟨c, rest, htext, hc⟩ := natStr_eq_cons h
  have hdigits : ∀ x ∈ d.significant, Str.isDigit x = true := fun x hx =>
    isDigit_of_mem_natStr (n := d.digits) (by simp [hn, hx])
  rcases hsignificant : d.significant with _ | ⟨c', rest'⟩
  · rw [htext, hsignificant, List.nil_append] at hn
    exact absurd (List.eq_of_mem_replicate (hn ▸ List.mem_cons_self)) hc
  · obtain rfl : c = c' := by simpa [htext, hsignificant] using congrArg List.head? hn
    exact ⟨c, rest', rfl, hc, by simp, hsignificant ▸ hdigits⟩

theorem areDigits_twoDigits (n : Nat) : NumberText.AreDigits (twoDigits n) := by
  rw [twoDigits]
  refine ⟨by simp [natStr_ne_nil], fun c hc => ?_⟩
  rcases List.mem_append.mp hc with hc | hc
  · split at hc
    · obtain rfl : c = 48 := by simpa using hc
      rfl
    · simp at hc
  · exact isDigit_of_mem_natStr hc

@[simp]
theorem digitsValue_twoDigits (n : Nat) : digitsValue (twoDigits n) = n := by
  rw [twoDigits]
  split
  · rw [digitsValue_append, digitsValue_natStr]
    simp [digitsValue]
  · simp

section Texts

variable {negative : Bool} {c : Nat} {rest : Str}

private theorem isDigit_replicate (n : Nat) :
    ∀ x ∈ List.replicate n 48, Str.isDigit x = true := fun x hx => by
  rw [List.eq_of_mem_replicate hx]
  rfl

private theorem isDigit_append {a b : Str} (ha : ∀ x ∈ a, Str.isDigit x = true)
    (hb : ∀ x ∈ b, Str.isDigit x = true) : ∀ x ∈ a ++ b, Str.isDigit x = true := fun x hx =>
  (List.mem_append.mp hx).elim (ha x) (hb x)

/-- The text with a point is a number. -/
theorem fixedText_valid (hc : c ≠ 48) (hds : NumberText.AreDigits (c :: rest)) (point : Int) :
    (fixedText negative (c :: rest) point).Valid := by
  obtain ⟨-, hdigits⟩ := hds
  rw [fixedText]
  split_ifs with hsmall hlarge
  · refine ⟨.inl rfl, fun ds hfraction => ?_, by simp⟩
    obtain rfl := Option.some.inj hfraction
    exact ⟨by simp, isDigit_append (isDigit_replicate _) hdigits⟩
  · refine ⟨.inr ⟨⟨by simp, isDigit_append hdigits (isDigit_replicate _)⟩, by simpa using hc⟩,
      fun ds hfraction => ?_, by simp⟩
    obtain rfl := Option.some.inj hfraction
    exact ⟨by simp, by simp [Str.isDigit]⟩
  · obtain ⟨n, hn⟩ : ∃ n, point.toNat = n + 1 := ⟨point.toNat - 1, by omega⟩
    refine ⟨.inr ⟨⟨by simp [hn], fun x hx => hdigits x (List.mem_of_mem_take hx)⟩,
      by simpa [hn] using hc⟩, fun ds hfraction => ?_, by simp⟩
    obtain rfl := Option.some.inj hfraction
    exact ⟨by simpa using hlarge, fun x hx => hdigits x (List.mem_of_mem_drop hx)⟩

/-- The text with an exponent is a number. -/
theorem scientificText_valid (hc : c ≠ 48) (hds : NumberText.AreDigits (c :: rest))
    (exponent : Int) : (scientificText negative (c :: rest) exponent).Valid := by
  obtain ⟨-, hdigits⟩ := hds
  refine ⟨.inr ⟨⟨by simp [scientificText], ?_⟩, by simpa [scientificText] using hc⟩, ?_, ?_⟩
  · exact fun x hx => hdigits x (List.mem_of_mem_take hx)
  · intro ds hfraction
    obtain ⟨hrest, rfl⟩ : rest ≠ [] ∧ rest = ds := by simpa [scientificText] using hfraction
    exact ⟨hrest, fun x hx => hdigits x (List.mem_cons_of_mem _ hx)⟩
  · rintro e hexponent
    obtain rfl := Option.some.inj hexponent
    refine ⟨?_, areDigits_twoDigits _⟩
    by_cases h : exponent < 0 <;> simp [h]

/-- The number that the text with a point writes. -/
theorem magnitude_fixedText (ds : Str) (point : Int) :
    (fixedText negative ds point).magnitude =
      digitsValue ds * 10 ^ (point - ds.length) := by
  rw [fixedText]
  split_ifs with hsmall hlarge
  · have hvalue : digitsValue ([48] ++ (List.replicate (-point).toNat 48 ++ ds)) =
        digitsValue ds := by
      rw [digitsValue_append, digitsValue_zeros_append]
      simp [digitsValue]
    have hexponent : (0 : Int) - ((-point).toNat + ds.length : Nat) = point - ds.length := by
      omega
    simp only [NumberText.magnitude, Option.getD_some, Option.map_none, Option.getD_none,
      List.length_append, List.length_replicate, hvalue, hexponent]
  · have hvalue : digitsValue (ds ++ List.replicate (point.toNat - ds.length) 48 ++ [48]) =
        digitsValue ds * 10 ^ (point.toNat - ds.length + 1) := by
      rw [digitsValue_append, digitsValue_append_zeros, pow_succ]
      simp [digitsValue, mul_assoc]
    have hexponent : point - ds.length = ((point.toNat - ds.length + 1 : Nat) : Int) + (0 - 1) := by
      omega
    simp only [NumberText.magnitude, Option.getD_some, Option.map_none, Option.getD_none,
      List.length_singleton, hvalue, hexponent, Nat.cast_one]
    rw [zpow_add₀ (by norm_num), zpow_natCast]
    push_cast
    ring
  · have hexponent : (0 : Int) - (ds.length - point.toNat : Nat) = point - ds.length := by omega
    simp only [NumberText.magnitude, Option.getD_some, Option.map_none, Option.getD_none,
      List.take_append_drop, List.length_drop, hexponent]

/-- The number that the text with an exponent writes. -/
theorem magnitude_scientificText (exponent : Int) :
    (scientificText negative (c :: rest) exponent).magnitude =
      digitsValue (c :: rest) * 10 ^ (exponent + 1 - (c :: rest).length) := by
  have hsigned : NumberText.exponentValue (if exponent < 0 then [45] else [43],
      twoDigits exponent.natAbs) = exponent := by
    by_cases h : exponent < 0
    · simp only [NumberText.exponentValue, h, if_true, digitsValue_twoDigits]
      omega
    · simp only [NumberText.exponentValue, h, if_false, digitsValue_twoDigits]
      simp only [List.cons.injEq, Nat.reduceEqDiff, and_true, if_false]
      omega
  have hfraction : (if ((c :: rest).drop 1).isEmpty then none else some ((c :: rest).drop 1)).getD
      [] = rest := by
    cases rest <;> simp
  have hexponent : exponent - rest.length = exponent + 1 - (c :: rest).length := by
    rw [List.length_cons]
    omega
  simp only [NumberText.magnitude, scientificText, hfraction, Option.map_some, Option.getD_some,
    hsigned, hexponent]
  simp

end Texts

/-- The text of a decimal number is a number. -/
theorem numberText_valid {negative : Bool} {d : Decimal} (h : d.digits ≠ 0) :
    (d.numberText negative).Valid := by
  obtain ⟨c, rest, hds, hc, hdigits⟩ := significant_eq_cons h
  rw [numberText, hds]
  split
  · exact fixedText_valid hc hdigits _
  · exact scientificText_valid hc hdigits _

/-- The text of a decimal number writes it. -/
theorem magnitude_numberText {negative : Bool} {d : Decimal} (h : d.digits ≠ 0) :
    (d.numberText negative).magnitude = d.toRat := by
  obtain ⟨c, rest, hds, -, -⟩ := significant_eq_cons h
  rw [toRat_eq, numberText, hds]
  split
  · exact magnitude_fixedText _ _
  · rw [magnitude_scientificText, Int.sub_add_cancel]

end Decimal

namespace PyFloat

/-- What a significand and an exponent have to satisfy. -/
abbrev Normal (significand : Nat) (exponent : Int) : Prop :=
  significand < 2 ^ 53 ∧ -1074 ≤ exponent ∧ exponent ≤ 971 ∧
    (2 ^ 52 ≤ significand ∨ exponent = -1074)

/-- A finite magnitude. -/
structure Magnitude where
  significand : Nat
  exponent : Int
  normal : Normal significand exponent
  deriving DecidableEq

/-- The number of a magnitude. -/
def Magnitude.toRat (m : Magnitude) : ℚ := m.significand * 2 ^ m.exponent

/-- The magnitude of a rounded significand, which may have reached the next power of two. -/
def packMagnitude (significand : Nat) (exponent : Int) : Option Magnitude :=
  if h : Normal significand exponent then some ⟨significand, exponent, h⟩
  else if h : significand = 2 ^ 53 ∧ Normal (2 ^ 52) (exponent + 1) then
    some ⟨2 ^ 52, exponent + 1, h.2⟩
  else none

/-- The exponent under which a number is rounded. -/
def roundingExponent (q : ℚ) : Int := if q = 0 then -1074 else max (-1074) (Int.log 2 q - 52)

/-- The magnitude that is closest to a number that is not negative, `none` beyond the largest. -/
def roundMagnitude (q : ℚ) : Option Magnitude :=
  packMagnitude (roundHalfEven (q / 2 ^ roundingExponent q)) (roundingExponent q)

/-- The float of a magnitude, an infinity without one. -/
def ofMagnitude (negative : Bool) : Option Magnitude → PyFloat
  | some m => .finite negative m.significand m.exponent m.normal
  | none => .inf negative

/-- A magnitude is rounded under its own exponent. -/
theorem roundingExponent_toRat (m : Magnitude) : roundingExponent m.toRat = m.exponent := by
  obtain ⟨hlt, hlow, -, hnormal⟩ := m.normal
  by_cases hzero : m.significand = 0
  · have hexponent : m.exponent = -1074 := by simpa [hzero] using hnormal
    simp [roundingExponent, Magnitude.toRat, hzero, hexponent]
  have hpos : 0 < m.toRat := by
    rw [Magnitude.toRat]
    positivity
  have hupper : Int.log 2 m.toRat < 53 + m.exponent := by
    rw [← Int.lt_zpow_iff_log_lt (by decide) hpos, Nat.cast_ofNat, zpow_add₀ (by norm_num)]
    exact mul_lt_mul_of_pos_right (by exact_mod_cast hlt) (by positivity)
  rw [roundingExponent, if_neg hpos.ne']
  rcases hnormal with hnormal | hsubnormal
  · have hlower : 52 + m.exponent ≤ Int.log 2 m.toRat := by
      rw [← Int.zpow_le_iff_le_log (by decide) hpos, Nat.cast_ofNat, zpow_add₀ (by norm_num)]
      exact mul_le_mul_of_nonneg_right (by exact_mod_cast hnormal) (by positivity)
    omega
  · omega

/-- A magnitude is rounded to itself. -/
@[simp]
theorem roundMagnitude_toRat (m : Magnitude) : roundMagnitude m.toRat = some m := by
  have hround : roundHalfEven (m.toRat / 2 ^ m.exponent) = m.significand := by
    rw [Magnitude.toRat, mul_div_assoc, div_self (by positivity), mul_one, roundHalfEven_natCast]
  rw [roundMagnitude, roundingExponent_toRat, hround, packMagnitude, dif_pos m.normal]

/-- The decimal numbers with some number of digits around a number, the nearest one first. -/
def nearbyDecimals (q : ℚ) (precision : Nat) : List Decimal :=
  let exponent := Int.log 10 q - (precision - 1)
  let nearest := roundHalfEven (q / 10 ^ exponent)
  let other := if (nearest : ℚ) * 10 ^ exponent < q then nearest + 1 else nearest - 1
  [⟨nearest, exponent⟩, ⟨other, exponent⟩]

namespace Magnitude

/-- A magnitude as a decimal number. -/
def exact (m : Magnitude) : Decimal :=
  ⟨m.significand * 2 ^ m.exponent.toNat * 5 ^ (-m.exponent).toNat, min m.exponent 0⟩

/-- The shortest decimal number that is rounded to a magnitude. Seventeen digits are always enough,
so that the exact decimal number is never taken. -/
def shortest (m : Magnitude) : Decimal :=
  let decimals := (List.range 17).flatMap fun n => nearbyDecimals m.toRat (n + 1)
  (decimals.find? fun d => roundMagnitude d.toRat = some m).getD m.exact

theorem exact_toRat (m : Magnitude) : m.exact.toRat = m.toRat := by
  obtain ⟨significand, exponent, -⟩ := m
  rcases le_total 0 exponent with h | h
  · obtain ⟨n, rfl⟩ := Int.eq_ofNat_of_zero_le h
    simp [Decimal.toRat, exact, toRat]
  · obtain ⟨n, hn⟩ := Int.eq_ofNat_of_zero_le (Int.neg_nonneg.mpr h)
    obtain rfl : exponent = -n := by omega
    have hten : (10 : ℚ) ^ (-(n : Int)) = 2 ^ (-(n : Int)) * 5 ^ (-(n : Int)) := by
      rw [← mul_zpow]
      norm_num
    have hfive : (5 : ℚ) ^ n * 5 ^ (-(n : Int)) = 1 := by
      rw [zpow_neg, zpow_natCast, mul_inv_cancel₀ (by positivity)]
    simp only [Decimal.toRat, exact, toRat, Int.toNat_neg_natCast, pow_zero, mul_one, neg_neg,
      Int.toNat_natCast, Nat.cast_mul, Nat.cast_pow, Nat.cast_ofNat, min_eq_left h, hten]
    linear_combination ((significand : ℚ) * 2 ^ (-(n : Int))) * hfive

/-- The shortest decimal number of a magnitude is rounded to it. -/
@[simp]
theorem roundMagnitude_shortest (m : Magnitude) : roundMagnitude m.shortest.toRat = some m := by
  rw [shortest]
  rcases hfind : ((List.range 17).flatMap fun n => nearbyDecimals m.toRat (n + 1)).find? _ with
    _ | d
  · rw [Option.getD_none, exact_toRat, roundMagnitude_toRat]
  · simpa using List.find?_some hfind

theorem shortest_digits_ne_zero {m : Magnitude} (h : m.significand ≠ 0) :
    m.shortest.digits ≠ 0 := by
  intro hzero
  have hround := roundMagnitude_shortest m
  rw [Decimal.toRat, hzero, Nat.cast_zero, zero_mul] at hround
  have hzeroRat : (⟨0, -1074, by decide⟩ : Magnitude).toRat = 0 := by simp [toRat]
  rw [← hzeroRat, roundMagnitude_toRat] at hround
  exact h (by rw [← Option.some.inj hround])

/-- A magnitude as `repr` writes it. -/
def numberText (negative : Bool) (m : Magnitude) : NumberText :=
  if m.significand = 0 then ⟨negative, [48], some [48], none⟩
  else m.shortest.numberText negative

theorem numberText_valid (negative : Bool) (m : Magnitude) : (m.numberText negative).Valid := by
  rw [numberText]
  split_ifs with h
  · refine ⟨.inl rfl, fun ds hfraction => ?_, by simp⟩
    obtain rfl := Option.some.inj hfraction
    exact ⟨by simp, by simp [Str.isDigit]⟩
  · exact Decimal.numberText_valid (shortest_digits_ne_zero h)

/-- What `repr` writes is rounded back to the magnitude. -/
@[simp]
theorem roundMagnitude_numberText (negative : Bool) (m : Magnitude) :
    roundMagnitude (m.numberText negative).magnitude = some m := by
  rw [numberText]
  split_ifs with h
  · have hzero : (⟨negative, [48], some [48], none⟩ : NumberText).magnitude = m.toRat := by
      simp [NumberText.magnitude, toRat, h, digitsValue, Nat.ofDigits]
    rw [hzero, roundMagnitude_toRat]
  · rw [Decimal.magnitude_numberText (shortest_digits_ne_zero h), roundMagnitude_shortest]

@[simp]
theorem numberText_negative (negative : Bool) (m : Magnitude) :
    (m.numberText negative).negative = negative := by
  simp only [numberText, Decimal.numberText, Decimal.fixedText, Decimal.scientificText]
  split_ifs <;> rfl

/-- What `repr` writes has a fraction or an exponent. -/
theorem numberText_isFloat (negative : Bool) (m : Magnitude) :
    (m.numberText negative).fraction ≠ none ∨ (m.numberText negative).exponent ≠ none := by
  simp only [numberText, Decimal.numberText, Decimal.fixedText, Decimal.scientificText]
  split_ifs <;> simp

end Magnitude

/-- `repr(x)`. -/
def repr : PyFloat → Str
  | nan => "nan"
  | inf negative => if negative then "-inf" else "inf"
  | finite negative significand exponent normal =>
    (Magnitude.numberText negative ⟨significand, exponent, normal⟩).text

end PyFloat

end Python
