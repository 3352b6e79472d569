import OpenCollabEval.Python.Json

/-!
# Conversions between values

The built-in conversion `int(…)` on the values of `json.loads`.
-/

namespace Python

/-- The digits of an integer text; a single underscore may stand between two of them. -/
def intDigits (decimal : Nat → Option Nat) : Str → Option (List Nat)
  | [] => none
  | [c] => (decimal c).map fun d => [d]
  | c :: 95 :: rest => do return (← decimal c) :: (← intDigits decimal rest)
  | c :: rest => do return (← decimal c) :: (← intDigits decimal rest)

/-- The longest text that `int(…)` reads. -/
def maxIntText : Nat := 4300

/-- The integer that a text without surrounding space writes in base ten. -/
def textInt (decimal : Nat → Option Nat) (s : Str) : Option Int := do
  let (negative, body) := match s with
    | 45 :: rest => (true, rest)
    | 43 :: rest => (false, rest)
    | body => (false, body)
  let digits ← intDigits decimal body
  if maxIntText < digits.length then none
  else
    let magnitude : Nat := digits.foldl (fun n d => 10 * n + d) 0
    some (if negative then -(magnitude : Int) else magnitude)

/-- The whole part of a finite float. -/
def PyFloat.truncate : PyFloat → Except PyErr Int
  | .nan => .error .valueError
  | .inf _ => .error .overflowError
  | .finite negative significand exponent _ =>
    let magnitude : Nat :=
      if 0 ≤ exponent then significand * 2 ^ exponent.toNat
      else significand / 2 ^ (-exponent).toNat
    .ok (if negative then -(magnitude : Int) else magnitude)

/-- `int(v)`, where `decimal` is `unicodedata.decimal`. -/
def Json.toInt (decimal : Nat → Option Nat) : Json → Except PyErr Int
  | .bool b => .ok (if b then 1 else 0)
  | .int n => .ok n
  | .float x => x.truncate
  | .str s => orValueError (textInt decimal (Str.strip s))
  | .null | .list _ | .dict _ => .error .typeError

/-- `unicodedata.decimal` on ASCII. -/
def asciiDecimal (c : Nat) : Option Nat := if Str.isDigit c then some (c - 48) else none

example : (Json.str " -1_0").toInt asciiDecimal = Except.ok (-10) := by decide +kernel

@[simp]
theorem Json.toInt_int (decimal : Nat → Option Nat) (n : Int) :
    (Json.int n).toInt decimal = .ok n := rfl

end Python
