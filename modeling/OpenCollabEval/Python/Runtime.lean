import OpenCollabEval.Python.Float

/-!
# What the interpreter supplies

The character database and the digest functions are taken from the interpreter as they are.
`Runtime` collects them; `str` and `repr` are built on top.
-/

namespace Python

/-- The tables and algorithms of the interpreter that the model does not spell out. -/
structure Runtime where
  /-- `c.isprintable()`. -/
  isPrintable : Nat → Bool
  /-- Whether `\w` matches `c`. -/
  isWord : Nat → Bool
  /-- Whether `unicodedata.category(c)` starts with `C`. -/
  isControl : Nat → Bool
  /-- `s.lower()`. -/
  lower : Str → Str
  /-- `hashlib.sha256(data).hexdigest()`. -/
  sha256 : List Nat → Str
  /-- A digest is never empty. -/
  sha256_ne_nil : ∀ data, sha256 data ≠ []
  /-- `hashlib.sha1(data).hexdigest()`. -/
  sha1 : List Nat → Str

namespace Runtime

variable (rt : Runtime)

/-- One code point inside `repr(s)`, for the chosen quotation mark. -/
def reprChar (mark c : Nat) : Str :=
  if c == mark || c == 92 then [92, c]
  else if c == 10 then "\\n"
  else if c == 13 then "\\r"
  else if c == 9 then "\\t"
  else if rt.isPrintable c then [c]
  else if c < 0x100 then lit "\\x" ++ hexPadded 2 c
  else if c < 0x10000 then lit "\\u" ++ hexPadded 4 c
  else lit "\\U" ++ hexPadded 8 c

/-- `repr(s)`. -/
def reprStr (s : Str) : Str :=
  let mark := if s.any (· == 39) && !s.any (· == 34) then 34 else 39
  mark :: s.flatMap (rt.reprChar mark) ++ [mark]

mutual

/-- `repr(v)`. -/
def repr : Json → Str
  | .null => "None"
  | .bool b => if b then "True" else "False"
  | .int n => intStr n
  | .float x => x.repr
  | .str s => rt.reprStr s
  | .list items => lit "[" ++ Str.join ", " (reprItems items) ++ lit "]"
  | .dict entries => lit "\x7b" ++ Str.join ", " (reprEntries entries) ++ lit "\x7d"

/-- The texts of the items of a list. -/
def reprItems : List Json → List Str
  | [] => []
  | v :: rest => repr v :: reprItems rest

/-- The texts of the entries of a dict. -/
def reprEntries : List (Str × Json) → List Str
  | [] => []
  | (key, v) :: rest => (rt.reprStr key ++ lit ": " ++ repr v) :: reprEntries rest

end

/-- `str(v)`. -/
def str : Json → Str
  | .str s => s
  | v => rt.repr v

/-- `str(v or "")`. -/
def strOrEmpty (v : Json) : Str := if v.truthy then rt.str v else []

@[simp]
theorem str_str (s : Str) : rt.str (.str s) = s := rfl

@[simp]
theorem strOrEmpty_str (s : Str) : rt.strOrEmpty (.str s) = s := by
  cases s <;> simp [strOrEmpty, Json.truthy]

end Runtime

end Python
