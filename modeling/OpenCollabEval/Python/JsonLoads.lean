import OpenCollabEval.Python.JsonText

/-!
# Reading JSON

`json.loads` as the scanner of the standard library reads a text: the three names it adds to the
standard, lone surrogates, duplicate keys (the last one counts), the limit on the digits of an
integer and the limit on the nesting of arrays and objects.
-/

namespace Python

/-- `[ \t\n\r]` -/
def isJsonSpace (c : Nat) : Bool := c == 32 || c == 9 || c == 10 || c == 13

/-- The text after its white space. -/
def skipSpace (s : Str) : Str := s.dropWhile isJsonSpace

/-- Where the scanner is inside a string: `left` digits of an escape are still to come. -/
inductive StringState where
  | plain
  | escape
  | hex (left value : Nat)

/-- The code point of a short escape. -/
def shortEscape (c : Nat) : Option Nat :=
  if c == 34 || c == 92 || c == 47 then some c
  else if c == 98 then some 8
  else if c == 102 then some 12
  else if c == 110 then some 10
  else if c == 114 then some 13
  else if c == 116 then some 9
  else none

/-- A code unit of a string, and whether it was written as a `\u` escape. -/
abbrev StringUnit := Nat × Bool

/-- The code units up to the closing quotation mark, and the rest. -/
def scanUnits : StringState → Str → Option (List StringUnit × Str)
  | _, [] => none
  | .plain, c :: rest =>
    if c == 34 then some ([], rest)
    else if c == 92 then scanUnits .escape rest
    else if c < 32 then none
    else (scanUnits .plain rest).map fun r => ((c, false) :: r.1, r.2)
  | .escape, c :: rest =>
    if c == 117 then scanUnits (.hex 3 0) rest
    else (shortEscape c).bind fun d =>
      (scanUnits .plain rest).map fun r => ((d, false) :: r.1, r.2)
  | .hex left value, c :: rest =>
    (hexValue c).bind fun d =>
      match left with
      | 0 => (scanUnits .plain rest).map fun r => ((16 * value + d, true) :: r.1, r.2)
      | left + 1 => scanUnits (.hex left (16 * value + d)) rest

/-- A leading surrogate. -/
def isHighSurrogate (c : Nat) : Bool := 0xD800 ≤ c && c ≤ 0xDBFF

/-- A trailing surrogate. -/
def isLowSurrogate (c : Nat) : Bool := 0xDC00 ≤ c && c ≤ 0xDFFF

/-- The code point of two surrogates. -/
def joinSurrogates (high low : Nat) : Nat := 0x10000 + (high - 0xD800) * 0x400 + (low - 0xDC00)

/-- The code points of some units: two escapes that are a pair of surrogates are one. -/
def joinUnits : List StringUnit → Str
  | [] => []
  | [(c, _)] => [c]
  | (c, escaped) :: (d, escaped') :: rest =>
    if escaped && escaped' && isHighSurrogate c && isLowSurrogate d then
      joinSurrogates c d :: joinUnits rest
    else c :: joinUnits ((d, escaped') :: rest)

/-- The string after a quotation mark, and the rest. -/
def scanString (s : Str) : Except PyErr (Str × Str) :=
  match scanUnits .plain s with
  | some (units, rest) => .ok (joinUnits units, rest)
  | none => .error .jsonDecodeError

/-- The names that stand for a value. -/
def namedValues : List (Str × Json) :=
  [(lit "null", .null), (lit "true", .bool true), (lit "false", .bool false),
    (lit "NaN", .float .nan), (lit "Infinity", .float (.inf false)),
    (lit "-Infinity", .float (.inf true))]

/-- The limit on the digits of an integer. -/
def maxIntDigits : Nat := 4300

/-- The value of a number. -/
def numberValue (t : NumberText) : Except PyErr Json :=
  if t.fraction = none ∧ t.exponent = none then
    if maxIntDigits < t.whole.length then .error .valueError
    else .ok (.int (if t.negative then -digitsValue t.whole else digitsValue t.whole))
  else .ok (.float (PyFloat.ofMagnitude t.negative (PyFloat.roundMagnitude t.magnitude)))

/-- A name or a number at the start of a text, and the rest. -/
def scanAtom (s : Str) : Except PyErr (Json × Str) :=
  match namedValues.find? fun entry => Str.startsWith s entry.1 with
  | some (name, value) => .ok (value, s.drop name.length)
  | none =>
    match scanNumber s with
    | some (t, rest) => (numberValue t).map (·, rest)
    | none => .error .jsonDecodeError

section Nested

variable (inner : Str → Except PyErr (Json × Str))

/-- The items of an array that is not empty; every item takes at least one code point. -/
def scanItems : Nat → Str → Except PyErr (List Json × Str)
  | 0, _ => .error .jsonDecodeError
  | n + 1, s => do
    let (v, s) ← inner s
    match skipSpace s with
    | 44 :: s => do
      let (vs, s) ← scanItems n (skipSpace s)
      return (v :: vs, s)
    | 93 :: s => return ([v], s)
    | _ => throw .jsonDecodeError

/-- The array after its opening bracket. -/
def scanArray (s : Str) : Except PyErr (Json × Str) :=
  match skipSpace s with
  | 93 :: rest => .ok (.list [], rest)
  | s => do
    let (items, rest) ← scanItems inner s.length s
    return (.list items, rest)

/-- One entry of an object: its key, a colon and its value. -/
def scanEntry : Str → Except PyErr ((Str × Json) × Str)
  | 34 :: s => do
    let (key, s) ← scanString s
    match skipSpace s with
    | 58 :: s => do
      let (v, s) ← inner (skipSpace s)
      return ((key, v), s)
    | _ => throw .jsonDecodeError
  | _ => .error .jsonDecodeError

/-- The entries of an object that is not empty. -/
def scanEntries : Nat → Str → Except PyErr (List (Str × Json) × Str)
  | 0, _ => .error .jsonDecodeError
  | n + 1, s => do
    let (entry, s) ← scanEntry inner s
    match skipSpace s with
    | 44 :: s => do
      let (entries, s) ← scanEntries n (skipSpace s)
      return (entry :: entries, s)
    | 125 :: s => return ([entry], s)
    | _ => throw .jsonDecodeError

/-- The object after its opening brace. -/
def scanObject (s : Str) : Except PyErr (Json × Str) :=
  match skipSpace s with
  | 125 :: rest => .ok (.dict [], rest)
  | s => do
    let (entries, rest) ← scanEntries inner s.length s
    return (.dict (Obj.ofPairs entries), rest)

end Nested

/-- The value that a text starts with, and the rest; arrays and objects may be nested `depth` times. -/
def scanOnce : Nat → Str → Except PyErr (Json × Str)
  | _, [] => .error .jsonDecodeError
  | depth, c :: s =>
    if c == 34 then (scanString s).map fun r => (.str r.1, r.2)
    else if c == 91 then
      match depth with
      | 0 => .error .recursionError
      | depth + 1 => scanArray (scanOnce depth) s
    else if c == 123 then
      match depth with
      | 0 => .error .recursionError
      | depth + 1 => scanObject (scanOnce depth) s
    else scanAtom (c :: s)

/-- `json.loads(s)`. -/
def loads (depth : Nat) (s : Str) : Except PyErr Json :=
  if s.head? == some 0xFEFF then .error .jsonDecodeError
  else do
    let (v, rest) ← scanOnce depth (skipSpace s)
    if (skipSpace rest).isEmpty then return v else throw .jsonDecodeError

end Python
