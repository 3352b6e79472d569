import Mathlib.Data.List.Sort
import OpenCollabEval.Python.Runtime

/-!
# JSON text

`json.dumps` with its default escaping of everything outside printable ASCII.
-/

namespace Python

/-- Lexicographic order of strings by code point, as `sorted` compares them. -/
def Str.le : Str → Str → Bool
  | [], _ => true
  | _ :: _, [] => false
  | c :: cs, d :: ds => c < d || (c == d && Str.le cs ds)

/-- The options of a dump. -/
structure DumpFormat where
  sortKeys : Bool
  itemSeparator : Str
  keySeparator : Str

/-- `json.dumps(v)`. -/
def DumpFormat.plain : DumpFormat := ⟨false, ", ", ": "⟩

/-- `json.dumps(v, sort_keys=True)`. -/
def DumpFormat.sorted : DumpFormat := ⟨true, ", ", ": "⟩

/-- `json.dumps(v, sort_keys=True, separators=(",", ":"))`. -/
def DumpFormat.canonical : DumpFormat := ⟨true, ",", ":"⟩

/-- `json.dumps(v, separators=(",", ":"))`. -/
def DumpFormat.compact : DumpFormat := ⟨false, ",", ":"⟩

/-- The escape of one UTF-16 unit. -/
def unicodeEscape (unit : Nat) : Str := lit "\\u" ++ hexPadded 4 unit

/-- One code point inside a JSON string. -/
def dumpChar (c : Nat) : Str :=
  if c == 34 then "\\\""
  else if c == 92 then "\\\\"
  else if c == 10 then "\\n"
  else if c == 13 then "\\r"
  else if c == 9 then "\\t"
  else if c == 12 then "\\f"
  else if c == 8 then "\\b"
  else if 32 ≤ c && c ≤ 126 then [c]
  else if c < 0x10000 then unicodeEscape c
  else unicodeEscape (0xD800 + (c - 0x10000) / 0x400) ++
    unicodeEscape (0xDC00 + (c - 0x10000) % 0x400)

/-- A JSON string. -/
def dumpStr (s : Str) : Str := 34 :: s.flatMap dumpChar ++ [34]

/-- A JSON number for a float, with the three names that `json` adds to the standard. -/
def dumpFloat : PyFloat → Str
  | .nan => "NaN"
  | .inf negative => if negative then "-Infinity" else "Infinity"
  | .finite negative significand exponent normal =>
    (PyFloat.Magnitude.numberText negative ⟨significand, exponent, normal⟩).text

namespace DumpFormat

variable (format : DumpFormat)

mutual

/-- `json.dumps(v, …)`. -/
def dumps : Json → Str
  | .null => "null"
  | .bool b => if b then "true" else "false"
  | .int n => intStr n
  | .float x => dumpFloat x
  | .str s => dumpStr s
  | .list items => lit "[" ++ Str.join format.itemSeparator (dumpItems items) ++ lit "]"
  | .dict entries =>
    let fields := dumpEntries entries
    let fields := if format.sortKeys then fields.insertionSort (Str.le ·.1 ·.1) else fields
    lit "\x7b" ++ Str.join format.itemSeparator
      (fields.map fun field => dumpStr field.1 ++ format.keySeparator ++ field.2) ++ lit "\x7d"

/-- The texts of the items of a list. -/
def dumpItems : List Json → List Str
  | [] => []
  | v :: rest => dumps v :: dumpItems rest

/-- The keys of a dict with the texts of their values. -/
def dumpEntries : List (Str × Json) → List (Str × Str)
  | [] => []
  | (key, v) :: rest => (key, dumps v) :: dumpEntries rest

end

end DumpFormat

end Python
