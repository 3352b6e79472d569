import Mathlib.Data.Rat.Defs
import Mathlib.Algebra.Field.Rat
import OpenCollabEval.Python.Error

/-!
# JSON values as Python objects

The values `json.loads` builds, with Python's own notions of truth, equality and lookup on them:
`True == 1 == 1.0`, a dict is compared without regard to order, and `dict.get` answers `None` for
an absent key.
-/

namespace Python

/-- A binary64 value. A finite value is a signed significand and a binary exponent in lowest
normal form, so that equal fields mean the same value. -/
inductive PyFloat where
  | nan
  | inf (negative : Bool)
  | finite (negative : Bool) (significand : Nat) (exponent : Int)
      (normal : significand < 2 ^ 53 ∧ -1074 ≤ exponent ∧ exponent ≤ 971 ∧
        (2 ^ 52 ≤ significand ∨ exponent = -1074))
  deriving DecidableEq

namespace PyFloat

/-- `bool(x)`: a value is false when it is a zero. -/
def truthy : PyFloat → Bool
  | finite _ significand _ _ => significand != 0
  | _ => true

/-- The significand with its sign. -/
private def signed (negative : Bool) (significand : Nat) : Int :=
  if negative then -(significand : Int) else significand

/-- `n == x` for an integer `n`, which Python compares exactly. -/
def eqInt (n : Int) : PyFloat → Bool
  | finite negative significand exponent _ =>
    n * 2 ^ (-exponent).toNat == signed negative significand * 2 ^ exponent.toNat
  | _ => false

/-- `x == y`: a NaN differs from everything and the two zeros are equal. -/
def eqFloat : PyFloat → PyFloat → Bool
  | inf a, inf b => a == b
  | finite a m e _, finite b n f _ => (a == b && m == n && e == f) || (m == 0 && n == 0)
  | _, _ => false

end PyFloat

/-- A value of `json.loads`. A dict lists its entries in insertion order. -/
inductive Json where
  | null
  | bool (b : Bool)
  | int (n : Int)
  | float (x : PyFloat)
  | str (s : Str)
  | list (items : List Json)
  | dict (entries : List (Str × Json))

/-- The entries of a dict. -/
abbrev Obj := List (Str × Json)

/-- A dict with literal keys. -/
def Obj.of (entries : List (String × Json)) : Obj := entries.map fun entry => (lit entry.1, entry.2)

/-- `o.get(key)`. -/
def Obj.get (o : Obj) (key : Str) : Json := (o.lookup key).getD .null

/-- `o.get(key, default)`. -/
def Obj.getOr (o : Obj) (key : Str) (default : Json) : Json := (o.lookup key).getD default

/-- `key in o`. -/
def Obj.has (o : Obj) (key : Str) : Bool := (o.lookup key).isSome

/-- `o[key] = value`. -/
def Obj.set (o : Obj) (key : Str) (value : Json) : Obj :=
  if o.has key then o.map fun entry => if entry.1 = key then (key, value) else entry
  else o ++ [(key, value)]

/-- `dict(pairs)`. -/
def Obj.ofPairs (pairs : List (Str × Json)) : Obj :=
  pairs.foldl (fun o entry => o.set entry.1 entry.2) []

namespace Obj

@[simp]
theorem get_nil (key : Str) : Obj.get [] key = .null := rfl

@[simp]
theorem get_cons (key key' : Str) (value : Json) (rest : Obj) :
    Obj.get ((key', value) :: rest) key = if key = key' then value else Obj.get rest key := by
  by_cases h : key = key'
  · simp [Obj.get, h]
  · simp [Obj.get, List.lookup_cons, beq_false_of_ne h, h]

@[simp]
theorem getOr_nil (key : Str) (default : Json) : Obj.getOr [] key default = default := rfl

@[simp]
theorem getOr_cons (key key' : Str) (value default : Json) (rest : Obj) :
    Obj.getOr ((key', value) :: rest) key default =
      if key = key' then value else Obj.getOr rest key default := by
  by_cases h : key = key'
  · simp [Obj.getOr, h]
  · simp [Obj.getOr, List.lookup_cons, beq_false_of_ne h, h]

@[simp]
theorem of_cons (key : String) (value : Json) (rest : List (String × Json)) :
    Obj.of ((key, value) :: rest) = (lit key, value) :: Obj.of rest := rfl

@[simp]
theorem of_nil : Obj.of [] = [] := rfl

end Obj

/-- `o[key]`. -/
def Obj.index (o : Obj) (key : Str) : Except PyErr Json :=
  match o.lookup key with
  | some value => .ok value
  | none => .error (.keyError key)

namespace Json

instance : Inhabited Json := ⟨null⟩

instance : Coe Str Json := ⟨str⟩

instance : Coe String Json := ⟨fun s => str s⟩

/-- `bool(v)`. -/
def truthy : Json → Bool
  | null => false
  | bool b => b
  | int n => n != 0
  | float x => x.truthy
  | str s => !s.isEmpty
  | list items => !items.isEmpty
  | dict entries => !entries.isEmpty

/-- `v is True`. -/
def isTrue : Json → Bool
  | bool true => true
  | _ => false

/-- `v is False`. -/
def isFalse : Json → Bool
  | bool false => true
  | _ => false

/-- The entries of a dict, `none` when `isinstance(v, dict)` fails. -/
def asDict : Json → Option Obj
  | dict entries => some entries
  | _ => none

/-- The integer of a value that is an `int` and no `bool`. -/
def asInt : Json → Option Int
  | int n => some n
  | _ => none

/-- The exact value of a finite number; a `bool` counts as one. -/
def asNumber : Json → Option ℚ
  | bool b => some (if b then 1 else 0)
  | int n => some n
  | float (.finite negative significand exponent _) =>
    some ((if negative then -1 else 1) * significand * 2 ^ exponent)
  | _ => none

/-- The text of a value that is a `str`. -/
def asStr : Json → Option Str
  | str s => some s
  | _ => none

/-- The items of a value that is a `list`. -/
def asList : Json → Option (List Json)
  | list items => some items
  | _ => none

@[simp]
theorem asDict_dict (entries : Obj) : (dict entries).asDict = some entries := rfl

@[simp]
theorem asList_list (items : List Json) : (list items).asList = some items := rfl

@[simp]
theorem asStr_str (s : Str) : (str s).asStr = some s := rfl

@[simp]
theorem asInt_int (n : Int) : (int n).asInt = some n := rfl

/-- The texts of a list all of whose items are strings. -/
def asStrs : List Json → Option (List Str)
  | [] => some []
  | str s :: rest => (asStrs rest).map (s :: ·)
  | _ :: _ => none

/-- The items of a list of strings are those strings. -/
theorem asStrs_eq_some_iff (items : List Json) (texts : List Str) :
    asStrs items = some texts ↔ items = texts.map str := by
  induction items generalizing texts with
  | nil => cases texts <;> simp [asStrs]
  | cons item rest ih =>
    cases item <;> cases texts <;> simp [asStrs, ih, and_comm]

/-- The list of some strings. -/
def strs (items : List Str) : Json := list (items.map str)

/-- `v == n` for an integer `n`. -/
def eqInt (n : Int) : Json → Bool
  | bool b => (if b then 1 else 0) == n
  | int m => m == n
  | float x => x.eqInt n
  | _ => false

/-- `v == s` for a string `s`. -/
def eqStr (s : Str) : Json → Bool
  | str t => t == s
  | _ => false

mutual

/-- `v == w`. -/
def pyEq : Json → Json → Bool
  | null, null => true
  | str s, str t => s == t
  | list items, list items' => pyEqList items items'
  | dict entries, dict entries' =>
    entries.length == entries'.length && pyEqEntries entries entries' &&
      entries'.all fun entry => (entries.lookup entry.1).isSome
  | bool b, w => w.eqInt (if b then 1 else 0)
  | int n, w => w.eqInt n
  | float x, float y => x.eqFloat y
  | float x, int n => x.eqInt n
  | float x, bool b => x.eqInt (if b then 1 else 0)
  | _, _ => false

/-- Equality of lists, item by item. -/
def pyEqList : List Json → List Json → Bool
  | [], [] => true
  | v :: vs, w :: ws => pyEq v w && pyEqList vs ws
  | _, _ => false

/-- Every entry has an equal value under the same key of the other dict. -/
def pyEqEntries : List (Str × Json) → List (Str × Json) → Bool
  | [], _ => true
  | (key, v) :: rest, other =>
    (match other.lookup key with
      | some w => pyEq v w
      | none => false) && pyEqEntries rest other

end

/-- Only a string equals a string. -/
@[simp]
theorem pyEq_str_right (v : Json) (s : Str) : v.pyEq (.str s) = true ↔ v = .str s := by
  cases v <;> simp [pyEq, eqInt]

/-- A string equals only a string. -/
@[simp]
theorem pyEq_str_left (v : Json) (s : Str) : (str s).pyEq v = true ↔ v = .str s := by
  cases v with
  | str t => simpa [pyEq] using eq_comm
  | _ => simp [pyEq]

/-- Only a string equals a string, as the comparison with a literal. -/
theorem eqStr_iff (v : Json) (s : Str) : v.eqStr s = true ↔ v = .str s := by
  cases v <;> simp [eqStr]

/-- Booleans are equal to each other only. -/
theorem pyEq_bool_bool (a b : Bool) : (bool a).pyEq (.bool b) = true ↔ a = b := by
  cases a <;> cases b <;> simp [pyEq, eqInt]

/-- Only a list equals a list of strings, and it has the same items. -/
theorem pyEq_strs_right (v : Json) (texts : List Str) : v.pyEq (strs texts) = true ↔ v = strs texts := by
  have hitems (items : List Json) :
      pyEqList items (texts.map str) = true ↔ items = texts.map str := by
    induction texts generalizing items with
    | nil => cases items <;> simp [pyEqList]
    | cons text texts ih => cases items <;> simp [pyEqList, ih]
  cases v <;> simp [pyEq, strs, eqInt, hitems]

/-- `v in items`. -/
def elem (v : Json) (items : List Json) : Bool := items.any (pyEq v)

/-- A value that may be put in a set. -/
def hashable : Json → Bool
  | list _ | dict _ => false
  | _ => true

/-- `v in {…}` for a set of strings, which hashes `v` first. -/
def inStrSet (v : Json) (set : List Str) : Except PyErr Bool :=
  if v.hashable then .ok (set.any fun s => v.eqStr s) else .error .typeError

@[simp]
theorem inStrSet_str (s : Str) (set : List Str) : (str s).inStrSet set = .ok (decide (s ∈ set)) := by
  have hany : (set.any fun t => (str s).eqStr t) = decide (s ∈ set) := by
    rw [← List.contains_eq_mem, List.contains_eq_any_beq]
    exact List.any_congr rfl fun t => by simp [eqStr]
  simp [inStrSet, hashable, hany]

/-- No item equals a later one. -/
def allDistinct : List Json → Bool
  | [] => true
  | v :: rest => !elem v rest && allDistinct rest

/-- `len(set(items)) == len(items)`, which hashes every item. -/
def setIsFaithful (items : List Json) : Except PyErr Bool :=
  if items.all hashable then .ok (allDistinct items) else .error .typeError

end Json

/-- `set(o) == {…}`. -/
def Obj.keysAre (o : Obj) (keys : List Str) : Bool :=
  (o.all fun entry => keys.contains entry.1) && keys.all fun key => o.has key

namespace Obj

/-- A key of an object has its first value. -/
theorem lookup_eq_some_of_has {o : Obj} {key : Str} (h : o.has key = true) :
    o.lookup key = some (o.get key) := by
  obtain ⟨value, hvalue⟩ := Option.isSome_iff_exists.mp h
  rw [Obj.get, hvalue]
  rfl

/-- An object looks up nothing beside its keys. -/
theorem lookup_of_keysAre {o : Obj} {keys : List Str} {key : Str} (h : o.keysAre keys = true)
    (hkey : key ∉ keys) : o.lookup key = none := by
  rw [List.lookup_eq_none_iff]
  intro entry hentry
  have hmem : entry.1 ∈ keys := by
    simpa using List.all_eq_true.mp (Bool.and_eq_true_iff.mp h).1 entry hentry
  rw [bne_iff_ne]
  rintro rfl
  exact hkey hmem

/-- An object with exactly some keys has each of them. -/
theorem has_of_keysAre {o : Obj} {keys : List Str} {key : Str} (h : o.keysAre keys = true)
    (hkey : key ∈ keys) : o.has key = true :=
  List.all_eq_true.mp (Bool.and_eq_true_iff.mp h).2 key hkey

/-- The values of equal dicts under a key of the first. -/
private theorem pyEqEntries_get {o other : Obj} {key : Str}
    (h : Json.pyEqEntries o other = true) (hkey : o.has key = true) :
    other.has key = true ∧ (o.get key).pyEq (other.get key) = true := by
  induction o with
  | nil => simp [Obj.has] at hkey
  | cons entry rest ih =>
    obtain ⟨name, value⟩ := entry
    simp only [Json.pyEqEntries, Bool.and_eq_true] at h
    by_cases hname : key = name
    · subst hname
      rcases hother : other.lookup key with _ | found
      · simp [hother] at h
      · simpa [Obj.has, Obj.get, hother] using h.1
    · have hrest : Obj.has rest key = true := by
        simpa [Obj.has, List.lookup_cons, beq_false_of_ne hname] using hkey
      simpa [hname] using ih h.2 hrest

/-- An object lacks a key exactly when it looks up nothing. -/
theorem get_of_not_has {o : Obj} {key : Str} (h : o.has key = false) : o.get key = .null := by
  have hnone : o.lookup key = none := by simpa [Obj.has] using h
  rw [Obj.get, hnone]
  rfl

/-- Equal dicts have the same keys. -/
theorem has_eq_of_pyEq {o other : Obj} (h : (Json.dict o).pyEq (.dict other) = true) (key : Str) :
    o.has key = other.has key := by
  simp only [Json.pyEq, Bool.and_eq_true] at h
  rw [Bool.eq_iff_iff]
  refine ⟨fun hkey => (pyEqEntries_get h.1.2 hkey).1, fun hkey => ?_⟩
  obtain ⟨value, hvalue⟩ := Option.isSome_iff_exists.mp hkey
  obtain ⟨before, after, hother, -⟩ := List.lookup_eq_some_iff.mp hvalue
  exact List.all_eq_true.mp h.2 (key, value) (by simp [hother])

/-- Equal dicts have equal values. -/
theorem get_of_pyEq {o other : Obj} (h : (Json.dict o).pyEq (.dict other) = true) (key : Str) :
    (o.get key).pyEq (other.get key) = true := by
  have hkeys := has_eq_of_pyEq h key
  rcases hkey : o.has key with _ | _
  · rw [get_of_not_has hkey, get_of_not_has (hkeys ▸ hkey)]
    rfl
  · simp only [Json.pyEq, Bool.and_eq_true] at h
    exact (pyEqEntries_get h.1.2 hkey).2

end Obj

end Python
