import OpenCollabEval.Python.JsonText

/-!
# JSON text without escapes

`json.dumps` with `ensure_ascii=False`, which keeps every character that JSON allows in a string.
-/

namespace Python

/-- One code point inside a JSON string that is written as it is. -/
def dumpCharUnescaped (c : Nat) : Str := if c < 32 then dumpChar c else
  if c == 34 || c == 92 then dumpChar c else [c]

/-- A JSON string that is written as it is. -/
def dumpStrUnescaped (s : Str) : Str := 34 :: s.flatMap dumpCharUnescaped ++ [34]

namespace DumpFormat

variable (format : DumpFormat)

mutual

/-- `json.dumps(v, ensure_ascii=False, …)`. -/
def dumpsUnescaped : Json → Str
  | .null => "null"
  | .bool b => if b then "true" else "false"
  | .int n => intStr n
  | .float x => dumpFloat x
  | .str s => dumpStrUnescaped s
  | .list items =>
    lit "[" ++ Str.join format.itemSeparator (dumpItemsUnescaped items) ++ lit "]"
  | .dict entries =>
    let fields := dumpEntriesUnescaped entries
    let fields := if format.sortKeys then fields.insertionSort (Str.le ·.1 ·.1) else fields
    lit "\x7b" ++ Str.join format.itemSeparator
      (fields.map fun field => dumpStrUnescaped field.1 ++ format.keySeparator ++ field.2) ++
      lit "\x7d"

/-- The texts of the items of a list. -/
def dumpItemsUnescaped : List Json → List Str
  | [] => []
  | v :: rest => dumpsUnescaped v :: dumpItemsUnescaped rest

/-- The keys of a dict with the texts of their values. -/
def dumpEntriesUnescaped : List (Str × Json) → List (Str × Str)
  | [] => []
  | (key, v) :: rest => (key, dumpsUnescaped v) :: dumpEntriesUnescaped rest

end

end DumpFormat

end Python
