import Mathlib.Data.List.Basic
import Mathlib.Data.List.DropRight

/-!
# Python text

Strings as the sequences of code points that Python's `str` holds. A lone surrogate is a code
point like any other, so `Str` is a list of natural numbers and not a `String`.
-/

namespace Python

/-- A Python `str`: its code points. -/
abbrev Str := List Nat

/-- The code points of a literal. -/
def lit (s : String) : Str := s.toList.map Char.toNat

instance : Coe String Str := ⟨lit⟩

/-- Literals are told apart by their text. -/
@[simp]
theorem lit_inj (s t : String) : lit s = lit t ↔ s = t := by
  have hinj : Function.Injective Char.toNat := fun a b h => Char.ext (UInt32.toNat_inj.mp h)
  rw [lit, lit, List.map_inj_right (fun a b h => hinj h), String.toList_inj]

@[simp]
theorem lit_beq (s t : String) : (lit s == lit t) = decide (s = t) := by
  rw [Bool.eq_iff_iff, beq_iff_eq, lit_inj, decide_eq_true_iff]

@[simp]
theorem lit_append (s t : String) : lit s ++ lit t = lit (s ++ t) := by
  simp [lit]

/-- The code points of several literals. -/
def lits (names : List String) : List Str := names.map lit

namespace Str

/-- `c.isspace()`: the code points that `strip` and `split` remove. -/
def isSpace (c : Nat) : Bool :=
  (9 ≤ c && c ≤ 13) || (28 ≤ c && c ≤ 32) || c == 133 || c == 160 || c == 5760 ||
    (8192 ≤ c && c ≤ 8202) || c == 8232 || c == 8233 || c == 8239 || c == 8287 || c == 12288

/-- The decimal digits `0` to `9`, as the class `[0-9]` has them. -/
def isDigit (c : Nat) : Bool := 48 ≤ c && c ≤ 57

/-- The ASCII letters and digits, as the class `[A-Za-z0-9]` has them. -/
def isAsciiAlnum (c : Nat) : Bool :=
  isDigit c || (65 ≤ c && c ≤ 90) || (97 ≤ c && c ≤ 122)

/-- The position of the first occurrence of `sub`, as `s.find(sub)` counts it. -/
def find (sub : Str) : Str → Option Nat
  | [] => if sub.isEmpty then some 0 else none
  | c :: cs => if sub.isPrefixOf (c :: cs) then some 0 else (find sub cs).map (· + 1)

/-- The position of the last occurrence of `sub`, as `s.rfind(sub)` counts it. -/
def rfind (sub : Str) : Str → Option Nat
  | [] => if sub.isEmpty then some 0 else none
  | c :: cs =>
    match rfind sub cs with
    | some i => some (i + 1)
    | none => if sub.isPrefixOf (c :: cs) then some 0 else none

/-- `sub in s`. -/
def contains (s sub : Str) : Bool := (find sub s).isSome

/-- `s.startswith(start)`. -/
def startsWith (s start : Str) : Bool := start.isPrefixOf s

/-- `s.endswith(ending)`. -/
def endsWith (s ending : Str) : Bool := ending.isSuffixOf s

/-- `s.removeprefix(start)`. -/
def removePrefix (s start : Str) : Str :=
  if s.startsWith start then s.drop start.length else s

/-- `s.split(sep, 1)`: the text before the first separator and, if there is one, what follows. -/
def splitOnce (s sep : Str) : Str × Option Str :=
  match find sep s with
  | some i => (s.take i, some (s.drop (i + sep.length)))
  | none => (s, none)

/-- `s.split(sep, 1)[0]`. -/
def before (s sep : Str) : Str := (s.splitOnce sep).1

/-- `s.count(sep) == 1` for a separator of at least one code point. -/
def occursOnce (s sep : Str) : Bool :=
  match (s.splitOnce sep).2 with
  | some rest => !rest.contains sep
  | none => false

/-- `s.split(sep)` for a separator of one code point. -/
def splitChar (sep : Nat) : Str → List Str
  | [] => [[]]
  | c :: cs =>
    match splitChar sep cs with
    | [] => [[c]]
    | piece :: pieces => if c == sep then [] :: piece :: pieces else (c :: piece) :: pieces

/-- `sep.join(parts)`. -/
def join (sep : Str) (parts : List Str) : Str := sep.intercalate parts

/-- `s.replace(c, by)` for one code point. -/
def replaceChar (c : Nat) (replacement s : Str) : Str :=
  s.flatMap fun d => if d == c then replacement else [d]

/-- `s.lstrip` of the code points of a class. -/
def lstripOf (cut : Nat → Bool) (s : Str) : Str := s.dropWhile cut

/-- `s.rstrip` of the code points of a class. -/
def rstripOf (cut : Nat → Bool) (s : Str) : Str := s.rdropWhile cut

/-- `s.strip` of the code points of a class. -/
def stripOf (cut : Nat → Bool) (s : Str) : Str := rstripOf cut (lstripOf cut s)

/-- `s.strip()`. -/
def strip (s : Str) : Str := stripOf isSpace s

/-- The bytes of a code point in UTF-8, by the number of continuation bytes. -/
def utf8Char (c : Nat) : List Nat :=
  if c < 0x80 then [c]
  else if c < 0x800 then [0xC0 + c / 64, 0x80 + c % 64]
  else if c < 0x10000 then [0xE0 + c / 4096, 0x80 + c / 64 % 64, 0x80 + c % 64]
  else [0xF0 + c / 262144, 0x80 + c / 4096 % 64, 0x80 + c / 64 % 64, 0x80 + c % 64]

/-- A code point that UTF-8 cannot encode. -/
def isSurrogate (c : Nat) : Bool := 0xD800 ≤ c && c ≤ 0xDFFF

/-- `s.encode("utf-8", errors="surrogatepass")`. -/
def encodeSurrogatePass (s : Str) : List Nat := s.flatMap utf8Char

theorem utf8Char_ne_nil (c : Nat) : utf8Char c ≠ [] := by
  unfold utf8Char
  split_ifs <;> simp

/-- The bytes of a code point say where they end. -/
theorem utf8Char_append_inj {c d : Nat} {s t : List Nat}
    (h : utf8Char c ++ s = utf8Char d ++ t) : c = d ∧ s = t := by
  unfold utf8Char at h
  -- the first byte tells how many follow
  split_ifs at h <;> simp only [List.cons_append, List.nil_append, List.cons.injEq] at h
  all_goals first
    | omega
    | exact h
    | exact ⟨by omega, h.2.2⟩
    | exact ⟨by omega, h.2.2.2⟩
    | exact ⟨by omega, h.2.2.2.2⟩

/-- Texts that are encoded alike are the same. -/
theorem encodeSurrogatePass_injective : Function.Injective encodeSurrogatePass := by
  intro s
  induction s with
  | nil =>
    intro t h
    cases t with
    | nil => rfl
    | cons c t =>
      have happend := h.symm
      simp only [encodeSurrogatePass, List.flatMap_nil, List.flatMap_cons,
        List.append_eq_nil_iff] at happend
      exact absurd happend.1 (utf8Char_ne_nil c)
  | cons c s ih =>
    intro t h
    cases t with
    | nil =>
      simp only [encodeSurrogatePass, List.flatMap_nil, List.flatMap_cons,
        List.append_eq_nil_iff] at h
      exact absurd h.1 (utf8Char_ne_nil c)
    | cons d t =>
      simp only [encodeSurrogatePass, List.flatMap_cons] at h
      obtain ⟨rfl, hrest⟩ := utf8Char_append_inj h
      rw [ih hrest]

end Str

end Python
