import OpenCollabEval.Python.Error

/-!
# Shell words

`shlex.quote` and `shlex.split` in POSIX mode, with comments off.
-/

namespace Python.Shlex

/-- The code points that need no quotes: ASCII letters, digits and `_ @ % + = : , . - /`. -/
def isSafe (c : Nat) : Bool :=
  Str.isAsciiAlnum c || c ∈ lit "_@%+=:,.-/"

/-- `shlex.quote(s)`. -/
def quote (s : Str) : Str :=
  if s.isEmpty then "''"
  else if s.all isSafe then s
  else lit "'" ++ Str.replaceChar 39 "'\"'\"'" s ++ lit "'"

/-- The lexer between two words, inside a word, inside quotes, or after a backslash. -/
inductive Mode where
  | between
  | word
  | quoted (mark : Nat)
  | escaped (within : Option Nat)
  deriving DecidableEq

/-- The separators of `shlex`. -/
def isBlank (c : Nat) : Bool := c == 32 || c == 9 || c == 13 || c == 10

/-- The two quotation marks. -/
def isQuote (c : Nat) : Bool := c == 39 || c == 34

/-- Where a code point leads from outside any quotes: the next mode, and what it adds to the word. -/
def plainStep (c : Nat) : Mode × Str :=
  if isQuote c then (.quoted c, [])
  else if c == 92 then (.escaped none, [])
  else (.word, [c])

/-- The words of the remaining text. `seen` tells whether the current word had quotes, so that an
empty pair of quotes is a word. -/
def words : Str → Mode → Str → Bool → Except PyErr (List Str)
  | [], .quoted _, _, _ => .error .valueError
  | [], .escaped _, _, _ => .error .valueError
  | [], _, token, seen => .ok (if token.isEmpty && !seen then [] else [token])
  | c :: cs, .between, token, seen =>
    if isBlank c then words cs .between token seen
    else words cs (plainStep c).1 (plainStep c).2 (isQuote c)
  | c :: cs, .word, token, seen =>
    if isBlank c then
      if token.isEmpty && !seen then words cs .between [] false
      else do return token :: (← words cs .between [] false)
    else words cs (plainStep c).1 (token ++ (plainStep c).2) (seen || isQuote c)
  | c :: cs, .quoted mark, token, seen =>
    if c == mark then words cs .word token seen
    else if mark == 34 && c == 92 then words cs (.escaped (some mark)) token seen
    else words cs (.quoted mark) (token ++ [c]) seen
  | c :: cs, .escaped none, token, seen => words cs .word (token ++ [c]) seen
  | c :: cs, .escaped (some mark), token, seen =>
    let kept : Str := if c != 92 && c != mark then [92] else []
    words cs (.quoted mark) (token ++ kept ++ [c]) seen

/-- `shlex.split(s)`. -/
def split (s : Str) : Except PyErr (List Str) := words s .between [] false

example : split "a 'b c' \"d\\\"e\\x\" f\\ g ''" =
    .ok [lit "a", lit "b c", lit "d\"e\\x", lit "f g", []] := by decide

end Python.Shlex
