import OpenCollabEval.Python.Text

/-!
# Lines and escaped bytes

`str.splitlines` and the decoding of UTF-8 with `surrogateescape`.
-/

namespace Python

namespace Str

/-- The code points that `splitlines` ends a line at. -/
def isLineEnd (c : Nat) : Bool :=
  (10 ≤ c && c ≤ 13) || (28 ≤ c && c ≤ 30) || c == 133 || c == 8232 || c == 8233

/-- The lines of a text; `afterReturn` tells that a `\r` ended the line before. -/
def linesFrom (line : Str) (afterReturn : Bool) : Str → List Str
  | [] => if line.isEmpty then [] else [line.reverse]
  | c :: rest =>
    -- `\r\n` ends one line
    if c == 10 && afterReturn then linesFrom line false rest
    else if isLineEnd c then line.reverse :: linesFrom [] (c == 13) rest
    else linesFrom (c :: line) false rest

/-- `s.splitlines()`. -/
def splitlines (s : Str) : List Str := linesFrom [] false s

/-- `s.rstrip()`. -/
def rstrip (s : Str) : Str := rstripOf isSpace s

/-- The code point that some bytes start with in UTF-8, and its length. -/
def utf8Scalar (bytes : List Nat) : Option (Nat × Nat) :=
  let tail (b : Nat) := b - 0x80
  let found :=
    match bytes with
    | a :: b :: c :: d :: _ =>
      [(a, 1), ((a - 0xC0) * 64 + tail b, 2),
        ((a - 0xE0) * 4096 + tail b * 64 + tail c, 3),
        ((a - 0xF0) * 262144 + tail b * 4096 + tail c * 64 + tail d, 4)]
    | [a, b, c] =>
      [(a, 1), ((a - 0xC0) * 64 + tail b, 2), ((a - 0xE0) * 4096 + tail b * 64 + tail c, 3)]
    | [a, b] => [(a, 1), ((a - 0xC0) * 64 + tail b, 2)]
    | [a] => [(a, 1)]
    | [] => []
  found.find? fun (c, length) =>
    c ≤ 0x10FFFF && !isSurrogate c && utf8Char c == bytes.take length

/-- Decode bytes, the first `skip` of which were decoded before. -/
def decodeFrom (skip : Nat) : List Nat → Str
  | [] => []
  | b :: rest =>
    if 0 < skip then decodeFrom (skip - 1) rest
    else
      match utf8Scalar (b :: rest) with
      | some (c, length) => c :: decodeFrom (length - 1) rest
      | none => (0xDC00 + b) :: decodeFrom 0 rest

/-- `bytes.decode("utf-8", errors="surrogateescape")`. -/
def decodeSurrogateEscape (bytes : List Nat) : Str := decodeFrom 0 bytes

section Lines

/-- A text without the end of a line is one line up to the end that follows it. -/
theorem linesFrom_append {s : Str} (h : ∀ c ∈ s, isLineEnd c = false) {c : Nat}
    (hc : isLineEnd c = true) (line rest : Str) :
    linesFrom line false (s ++ c :: rest) = (line.reverse ++ s) :: linesFrom [] (c == 13) rest := by
  induction s generalizing line with
  | nil => simp [linesFrom, hc]
  | cons d s ih =>
    rw [List.forall_mem_cons] at h
    rw [List.cons_append, linesFrom, Bool.and_false, if_neg Bool.false_ne_true,
      if_neg (by simp [h.1]), ih h.2]
    simp

/-- Lines that were written one after the other are read back. -/
theorem splitlines_lines {lines : List Str} (h : ∀ line ∈ lines, ∀ c ∈ line, isLineEnd c = false) :
    splitlines (lines.flatMap (· ++ [10])) = lines := by
  induction lines with
  | nil => rfl
  | cons line lines ih =>
    rw [List.forall_mem_cons] at h
    have hrest := ih h.2
    rw [splitlines] at hrest
    rw [splitlines, List.flatMap_cons, List.append_assoc, List.singleton_append,
      linesFrom_append h.1 (by decide)]
    change line :: linesFrom [] false _ = _
    rw [hrest]

end Lines

example : splitlines "a\r\nb\n\nc" = lits ["a", "b", "", "c"] := by decide

example : decodeSurrogateEscape [0x61, 0xC3, 0xA9, 0xFF] = [0x61, 0xE9, 0xDCFF] := by decide

end Str

end Python
