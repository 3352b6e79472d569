import OpenCollabEval.Python.Text

/-!
# Regular expressions

The part of Python's `re` that full matches use: character classes, alternation, sequence and
repetition. `Regex.fullmatch` decides a full match by derivatives, so that a pattern can be
evaluated on a concrete string.
-/

namespace Python

/-- A pattern over code points. A character class is given by its membership test. -/
inductive Regex where
  /-- No string. -/
  | fail
  /-- The empty string. -/
  | empty
  /-- One code point of a class. -/
  | chars (accepts : Nat → Bool)
  /-- Alternation `r|s`. -/
  | alt (r s : Regex)
  /-- Sequence `rs`. -/
  | seq (r s : Regex)
  /-- Repetition `r*`. -/
  | star (r : Regex)

namespace Regex

/-- The pattern that matches one string only. -/
def lit : Str → Regex
  | [] => empty
  | c :: cs => seq (chars (· == c)) (lit cs)

/-- Alternation over a list of patterns. -/
def oneOf : List Regex → Regex
  | [] => fail
  | [r] => r
  | r :: rs => alt r (oneOf rs)

/-- Sequence over a list of patterns. -/
def concat : List Regex → Regex
  | [] => empty
  | [r] => r
  | r :: rs => seq r (concat rs)

/-- `r+`. -/
def plus (r : Regex) : Regex := seq r (star r)

/-- `r{n}`. -/
def exactly : Nat → Regex → Regex
  | 0, _ => empty
  | n + 1, r => seq r (exactly n r)

/-- Whether the pattern matches the empty string. -/
def nullable : Regex → Bool
  | fail => false
  | empty => true
  | chars _ => false
  | alt r s => r.nullable || s.nullable
  | seq r s => r.nullable && s.nullable
  | star _ => true

/-- `alt` without the branches that match nothing. -/
private def mkAlt : Regex → Regex → Regex
  | fail, s => s
  | r, fail => r
  | r, s => alt r s

/-- `seq` without the parts that match only the empty string. -/
private def mkSeq : Regex → Regex → Regex
  | fail, _ => fail
  | empty, s => s
  | r, s => seq r s

/-- The pattern of what may follow `c` in a match. -/
def deriv (c : Nat) : Regex → Regex
  | fail => fail
  | empty => fail
  | chars accepts => if accepts c then empty else fail
  | alt r s => mkAlt (r.deriv c) (s.deriv c)
  | seq r s =>
    if r.nullable then mkAlt (mkSeq (r.deriv c) s) (s.deriv c) else mkSeq (r.deriv c) s
  | star r => mkSeq (r.deriv c) (star r)

/-- `re.fullmatch(r, s) is not None`. -/
def fullmatch : Regex → Str → Bool
  | r, [] => r.nullable
  | r, c :: cs => (r.deriv c).fullmatch cs

end Regex

end Python
