import OpenCollabEval.Python.Float

/-!
# Sums and comparisons of floats

Addition of binary64 values, rounded to nearest with ties to even, their order, and the conversion
of an integer.
-/

namespace Python.PyFloat

/-- The number of a finite value. -/
def toRat : PyFloat → Option ℚ
  | .finite negative significand exponent _ =>
    some ((if negative then -1 else 1) * significand * 2 ^ exponent)
  | _ => none

/-- The float nearest to a number. -/
def ofRat (q : ℚ) : PyFloat := ofMagnitude (decide (q < 0)) (roundMagnitude |q|)

/-- A negative zero or a negative number. -/
def isNegative : PyFloat → Bool
  | .nan => false
  | .inf negative => negative
  | .finite negative _ _ _ => negative

/-- `x + y`. -/
def add (x y : PyFloat) : PyFloat :=
  match x, y with
  | .nan, _ | _, .nan => .nan
  | .inf a, .inf b => if a = b then .inf a else .nan
  | .inf a, _ => .inf a
  | _, .inf b => .inf b
  | x, y =>
    let sum := x.toRat.getD 0 + y.toRat.getD 0
    -- two negative zeros are the only zeros with a negative sum
    if sum = 0 then ofMagnitude (x.isNegative && y.isNegative) (roundMagnitude 0) else ofRat sum

/-- `x <= y`. -/
def le (x y : PyFloat) : Bool :=
  match x, y with
  | .nan, _ | _, .nan => false
  | .inf a, .inf b => a || !b
  | .inf a, _ => a
  | _, .inf b => !b
  | x, y => x.toRat.getD 0 ≤ y.toRat.getD 0

/-- `max(x, 0.0)`, which is its first argument unless the second is greater. -/
def maxZero (x : PyFloat) : PyFloat := if x.toRat.any (· < 0) || x == .inf true then ofRat 0 else x

/-- `float(n)`. -/
def ofInt (n : Int) : Except PyErr PyFloat :=
  match roundMagnitude n.natAbs with
  | some m => .ok (ofMagnitude (n < 0) (some m))
  | none => .error .overflowError

end Python.PyFloat
