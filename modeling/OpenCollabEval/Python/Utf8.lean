import OpenCollabEval.Python.Error
import OpenCollabEval.Python.Lines

/-!
# Decoding UTF-8

`bytes.decode("utf-8")` in its strict form and with `surrogatepass`. What `str.encode` writes is
decoded to the same text.
-/

namespace Python

namespace Str

/-- The code point that some bytes start with, and its length. With `surrogates`, the three bytes of a
surrogate count as one. -/
def utf8Point (surrogates : Bool) (bytes : List Nat) : Option (Nat × Nat) :=
  (utf8Scalar bytes).or <|
    match bytes with
    | a :: b :: c :: _ =>
      let point := (a - 0xE0) * 4096 + (b - 0x80) * 64 + (c - 0x80)
      if surrogates && isSurrogate point && utf8Char point == [a, b, c] then some (point, 3) else none
    | _ => none

/-- Decode bytes, the first `skip` of which were decoded before. -/
def decodeUtf8From (surrogates : Bool) (skip : Nat) : List Nat → Option Str
  | [] => some []
  | b :: rest =>
    if 0 < skip then decodeUtf8From surrogates (skip - 1) rest
    else do
      let (c, length) ← utf8Point surrogates (b :: rest)
      return c :: (← decodeUtf8From surrogates (length - 1) rest)

/-- `bytes.decode("utf-8")`, with `surrogates` under `surrogatepass`; `none` is a
`UnicodeDecodeError`. -/
def decodeUtf8 (surrogates : Bool) (bytes : List Nat) : Option Str :=
  decodeUtf8From surrogates 0 bytes

theorem length_utf8Char (c : Nat) :
    (utf8Char c).length =
      if c < 0x80 then 1 else if c < 0x800 then 2 else if c < 0x10000 then 3 else 4 := by
  unfold utf8Char
  split_ifs <;> rfl

/-- The bytes of a code point are read as that code point. -/
theorem utf8Scalar_utf8Char {c : Nat} (hc : c ≤ 0x10FFFF) (hsurrogate : isSurrogate c = false)
    (rest : List Nat) :
    utf8Scalar (utf8Char c ++ rest) = some (c, (utf8Char c).length) := by
  -- a candidate of another length has bytes of another length
  have hlength : ∀ {d : Nat} {bytes : List Nat}, (utf8Char d).length ≠ bytes.length →
      utf8Char d ≠ bytes := fun hne heq => hne (congrArg List.length heq)
  by_cases h1 : c < 0x80
  · have hchar : utf8Char c = [c] := by simp [utf8Char, h1]
    rw [hchar]
    rcases rest with _ | ⟨b, _ | ⟨b', _ | ⟨b'', rest⟩⟩⟩ <;> simp [utf8Scalar, hchar, hc, hsurrogate]
  by_cases h2 : c < 0x800
  · have hchar : utf8Char c = [0xC0 + c / 64, 0x80 + c % 64] := by simp [utf8Char, h1, h2]
    have hfirst : utf8Char (0xC0 + c / 64) ≠ [0xC0 + c / 64] :=
      hlength (by rw [length_utf8Char]; simp only [List.length_singleton]; split_ifs <;> omega)
    have hvalue : c / 64 * 64 + c % 64 = c := by omega
    rw [hchar]
    rcases rest with _ | ⟨b, _ | ⟨b', rest⟩⟩ <;>
      simp [utf8Scalar, hchar, hfirst, hvalue, hc, hsurrogate]
  by_cases h3 : c < 0x10000
  · have hchar : utf8Char c = [0xE0 + c / 4096, 0x80 + c / 64 % 64, 0x80 + c % 64] := by
      simp [utf8Char, h1, h2, h3]
    have hfirst : utf8Char (0xE0 + c / 4096) ≠ [0xE0 + c / 4096] :=
      hlength (by rw [length_utf8Char]; simp only [List.length_singleton]; split_ifs <;> omega)
    have hsecond : utf8Char ((0xE0 + c / 4096 - 0xC0) * 64 + c / 64 % 64) ≠
        [0xE0 + c / 4096, 0x80 + c / 64 % 64] :=
      hlength (by
        rw [length_utf8Char]
        simp only [List.length_cons, List.length_nil]
        split_ifs <;> omega)
    have hvalue : c / 4096 * 4096 + c / 64 % 64 * 64 + c % 64 = c := by omega
    rw [hchar]
    rcases rest with _ | ⟨b, rest⟩ <;>
      simp [utf8Scalar, hchar, hfirst, hsecond, hvalue, hc, hsurrogate]
  · have hchar : utf8Char c =
        [0xF0 + c / 262144, 0x80 + c / 4096 % 64, 0x80 + c / 64 % 64, 0x80 + c % 64] := by
      simp [utf8Char, h1, h2, h3]
    have hfirst : utf8Char (0xF0 + c / 262144) ≠ [0xF0 + c / 262144] :=
      hlength (by rw [length_utf8Char]; simp only [List.length_singleton]; split_ifs <;> omega)
    have hsecond : utf8Char ((0xF0 + c / 262144 - 0xC0) * 64 + c / 4096 % 64) ≠
        [0xF0 + c / 262144, 0x80 + c / 4096 % 64] :=
      hlength (by
        rw [length_utf8Char]
        simp only [List.length_cons, List.length_nil]
        split_ifs <;> omega)
    have hthird : utf8Char
        ((0xF0 + c / 262144 - 0xE0) * 4096 + c / 4096 % 64 * 64 + c / 64 % 64) ≠
          [0xF0 + c / 262144, 0x80 + c / 4096 % 64, 0x80 + c / 64 % 64] :=
      hlength (by
        rw [length_utf8Char]
        simp only [List.length_cons, List.length_nil]
        split_ifs <;> omega)
    have hvalue : c / 262144 * 262144 + c / 4096 % 64 * 4096 + c / 64 % 64 * 64 + c % 64 = c := by
      omega
    rw [hchar]
    simp [utf8Scalar, hchar, hfirst, hsecond, hthird, hvalue, hc, hsurrogate]

theorem utf8Point_of_utf8Scalar {surrogates : Bool} {bytes : List Nat} {found : Nat × Nat}
    (h : utf8Scalar bytes = some found) : utf8Point surrogates bytes = some found := by
  simp [utf8Point.eq_def, h]

theorem decodeUtf8From_skip {surrogates : Bool} (skipped rest : List Nat) :
    decodeUtf8From surrogates skipped.length (skipped ++ rest) =
      decodeUtf8From surrogates 0 rest := by
  induction skipped with
  | nil => rfl
  | cons b skipped ih => simpa [decodeUtf8From] using ih

/-- A text of code points that UTF-8 encodes is decoded to itself. -/
theorem decodeUtf8_encode {surrogates : Bool} {s : Str}
    (h : ∀ c ∈ s, c ≤ 0x10FFFF ∧ isSurrogate c = false) :
    decodeUtf8 surrogates s.encodeSurrogatePass = some s := by
  induction s with
  | nil => rfl
  | cons c s ih =>
    obtain ⟨hc, hsurrogate⟩ := h c (by simp)
    have hrest : decodeUtf8From surrogates 0 (s.flatMap utf8Char) = some s :=
      ih fun d hd => h d (by simp [hd])
    have hscalar := utf8Scalar_utf8Char hc hsurrogate (s.flatMap utf8Char)
    obtain ⟨b, others, hbytes⟩ := List.exists_cons_of_ne_nil (utf8Char_ne_nil c)
    rw [hbytes, List.cons_append] at hscalar
    rw [decodeUtf8, encodeSurrogatePass, List.flatMap_cons, hbytes, List.cons_append,
      decodeUtf8From, if_neg (by simp), utf8Point_of_utf8Scalar hscalar]
    have hskip := @decodeUtf8From_skip surrogates others (s.flatMap utf8Char)
    simp [hskip, hrest]

end Str

end Python
