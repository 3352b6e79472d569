import OpenCollabEval.Python.Text

/-!
# Searching with patterns

The part of Python's `re` that searches: anchors at the ends of a line, greedy and reluctant repetition,
and groups. A pattern is matched by backtracking in the order that `re` tries the alternatives, so that
the groups of a match are the ones that Python reports.
-/

namespace Python

/-- A pattern over code points. A character class is given by its membership test. -/
inductive Pattern where
  /-- The empty string. -/
  | empty
  /-- One code point of a class. -/
  | chars (accepts : Nat → Bool)
  /-- Sequence `pq`. -/
  | seq (p q : Pattern)
  /-- Alternation `p|q`, the left side first. -/
  | alt (p q : Pattern)
  /-- Repetition: `p*` when greedy, else `p*?`. -/
  | star (greedy : Bool) (p : Pattern)
  /-- A numbered group. -/
  | group (n : Nat) (p : Pattern)
  /-- `^` with the flag `m`. -/
  | lineStart
  /-- `$` with the flag `m`. -/
  | lineEnd
  /-- `\b`, for a class of word characters. -/
  | wordEdge (isWord : Nat → Bool)
  /-- A condition on the code point before a position and on the text after it. -/
  | look (holds : Option Nat → Str → Bool)

/-- A position in a text, with the groups found so far, the latest first. -/
structure Cursor where
  previous : Option Nat
  rest : Str
  groups : List (Nat × Str) := []
  deriving DecidableEq

namespace Cursor

/-- The text of a group, empty when the group took no part in the match. -/
def group (c : Cursor) (n : Nat) : Str := (c.groups.lookup n).getD []

/-- The position before a text. -/
def start (s : Str) : Cursor := ⟨none, s, []⟩

/-- The position after one more code point, without groups. -/
def advance (c : Cursor) : Cursor :=
  match c.rest with
  | [] => c
  | x :: rest => ⟨some x, rest, []⟩

/-- The code points between two positions. -/
def upTo (c d : Cursor) : Str := c.rest.take (c.rest.length - d.rest.length)

end Cursor

namespace Pattern

/-- The pattern that matches one string only. -/
def lit : Str → Pattern
  | [] => empty
  | c :: cs => seq (chars (· == c)) (lit cs)

/-- The pattern of a string literal. -/
def text (s : String) : Pattern := lit (Python.lit s)

/-- Sequence over a list of patterns. -/
def concat : List Pattern → Pattern
  | [] => empty
  | [p] => p
  | p :: ps => seq p (concat ps)

/-- Alternation over a list of patterns. The empty list matches the empty string. -/
def oneOf : List Pattern → Pattern
  | [] => empty
  | [p] => p
  | p :: ps => alt p (oneOf ps)

/-- `p+`. -/
def plus (p : Pattern) : Pattern := seq p (star true p)

/-- `p?`. -/
def opt (p : Pattern) : Pattern := alt p empty

/-- `.`. -/
def dot : Pattern := chars (· != 10)

/-- `^` without the flag `m`. -/
def startOfText : Pattern := look fun previous _ => previous.isNone

/-- `$` without the flag `m`. -/
def endOfText : Pattern := look fun _ rest => rest.isEmpty || rest == [10]

/-- Repetition of one step, at most `n` times. A repetition that consumes nothing ends. -/
def repeatStep (step : Cursor → (Cursor → Option Cursor) → Option Cursor) (greedy : Bool) :
    Nat → Cursor → (Cursor → Option Cursor) → Option Cursor
  | 0, c, next => next c
  | n + 1, c, next =>
    let more := fun _ : Unit => step c fun d =>
      if d.rest.length < c.rest.length then repeatStep step greedy n d next else none
    if greedy then more () <|> next c else next c <|> more ()

/-- The first way to match the pattern at a position that also lets the rest of the match succeed. -/
def run : Pattern → Cursor → (Cursor → Option Cursor) → Option Cursor
  | empty, c, next => next c
  | chars accepts, c, next =>
    match c.rest with
    | [] => none
    | x :: rest => if accepts x then next { c with previous := some x, rest := rest } else none
  | seq p q, c, next => p.run c fun d => q.run d next
  | alt p q, c, next => p.run c next <|> q.run c next
  | star greedy p, c, next => repeatStep p.run greedy c.rest.length c next
  | group n p, c, next =>
    p.run c fun d => next { d with groups := (n, c.upTo d) :: d.groups }
  | lineStart, c, next => if c.previous.all (· == 10) then next c else none
  | lineEnd, c, next => if c.rest.head?.all (· == 10) then next c else none
  | wordEdge isWord, c, next =>
    if c.previous.any isWord != c.rest.head?.any isWord then next c else none
  | look holds, c, next => if holds c.previous c.rest then next c else none

/-- Where a match that starts at a position ends. -/
def matchAt (p : Pattern) (c : Cursor) : Option Cursor := p.run { c with groups := [] } some

/-- The matches from a position on, from left to right and without overlap. The patterns searched for
never match the empty string. -/
def scan (p : Pattern) : Nat → Cursor → List Cursor
  | 0, _ => []
  | fuel + 1, c =>
    match p.matchAt c with
    | some d =>
      d :: if d.rest.length < c.rest.length then scan p fuel d
        else if c.rest.isEmpty then [] else scan p fuel c.advance
    | none => if c.rest.isEmpty then [] else scan p fuel c.advance

/-- `re.finditer(p, s)`, each match by the position after it. -/
def finditer (p : Pattern) (s : Str) : List Cursor := p.scan (s.length + 1) (.start s)

/-- A text from a position on, with its matches replaced. -/
def subFrom (p : Pattern) (replacement : Str) : Nat → Cursor → Str
  | 0, c => c.rest
  | fuel + 1, c =>
    match p.matchAt c, c.rest with
    | _, [] => []
    | none, x :: _ => x :: subFrom p replacement fuel c.advance
    | some d, x :: rest =>
      if d.rest.length < (x :: rest).length then replacement ++ subFrom p replacement fuel d
      else x :: subFrom p replacement fuel c.advance

/-- `re.sub(p, replacement, s)` for a replacement without references. -/
def sub (p : Pattern) (replacement s : Str) : Str := p.subFrom replacement (s.length + 1) (.start s)

/-- `re.search(p, s) is not None`. -/
def search (p : Pattern) (s : Str) : Bool := !(p.finditer s).isEmpty

/-- `re.match(p, s)`. -/
def matchStart (p : Pattern) (s : Str) : Option Cursor := p.matchAt (.start s)

/-- `re.fullmatch(p, s)`: the first way to match all of a text. -/
def fullmatch (p : Pattern) (s : Str) : Option Cursor :=
  p.run (.start s) fun d => if d.rest.isEmpty then some d else none

/-- A path in the middle of a longer one: the groups of the first match say what was found. -/
example : ((concat [lineStart, opt (seq (star false dot) (text "/")), group 1 (text "a.py"),
    text ":"]).finditer (Python.lit "x\nlib/a.py:3")).map (·.group 1) = [Python.lit "a.py"] := by
  decide +kernel

end Pattern

end Python
