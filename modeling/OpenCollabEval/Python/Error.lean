import OpenCollabEval.Python.Text
import Mathlib.Data.List.Forall2

/-!
# Functions that may raise

The exceptions a modelled function can end in, and how a sequence of such calls succeeds.
-/

namespace Python

/-- The exceptions a modelled function can end in. -/
inductive PyErr where
  | keyError (key : Str)
  | typeError
  | valueError
  | attributeError
  | overflowError
  | unicodeEncodeError
  | recursionError
  | jsonDecodeError
  deriving DecidableEq

/-- `s.encode("utf-8")`, which fails on a lone surrogate. -/
def Str.encode (s : Str) : Except PyErr (List Nat) :=
  if s.any Str.isSurrogate then .error .unicodeEncodeError else .ok s.encodeSurrogatePass

/-- `if not condition: raise ValueError`. -/
def ensure (condition : Bool) : Except PyErr Unit :=
  if condition then .ok () else .error .valueError

/-- The value that a test found, a `ValueError` when it found none. -/
def orValueError {α : Type} (found : Option α) : Except PyErr α :=
  found.elim (.error .valueError) .ok

@[simp]
theorem ensure_eq_ok_iff (condition : Bool) (u : Unit) :
    ensure condition = .ok u ↔ condition = true := by
  cases condition <;> simp [ensure]

@[simp]
theorem orValueError_eq_ok_iff {α : Type} (found : Option α) (a : α) :
    orValueError found = .ok a ↔ found = some a := by
  cases found <;> simp [orValueError]

section Sequence

variable {ε α β : Type}

@[simp]
theorem ok_bind (a : α) (f : α → Except ε β) : (Except.ok a >>= f) = f a := rfl

@[simp]
theorem error_bind (e : ε) (f : α → Except ε β) : (Except.error e >>= f) = .error e := rfl

@[simp]
theorem pure_eq_ok (a : α) : (pure a : Except ε α) = .ok a := rfl

/-- A sequence returns exactly when both of its parts do. -/
theorem bind_eq_ok_iff {x : Except ε α} {f : α → Except ε β} {b : β} :
    (x >>= f) = .ok b ↔ ∃ a, x = .ok a ∧ f a = .ok b := by
  cases x <;> simp

/-- A call that does not raise. -/
def Returns (x : Except ε α) : Prop := ∃ a, x = .ok a

@[simp]
theorem returns_ok (a : α) : Returns (.ok a : Except ε α) := ⟨a, rfl⟩

@[simp]
theorem not_returns_error (e : ε) : ¬Returns (.error e : Except ε α) := by
  simp [Returns]

theorem returns_bind_iff {x : Except ε α} {f : α → Except ε β} :
    Returns (x >>= f) ↔ ∃ a, x = .ok a ∧ Returns (f a) := by
  cases x <;> simp

/-- A sequence of calls returns exactly when all of them do. -/
theorem returns_mapM_iff {f : α → Except ε β} {items : List α} :
    Returns (items.mapM f) ↔ ∀ item ∈ items, Returns (f item) := by
  induction items with
  | nil => simp
  | cons item rest ih =>
    rw [List.mapM_cons, List.forall_mem_cons, ← ih]
    constructor
    · rintro ⟨results, h⟩
      obtain ⟨result, hresult, h⟩ := bind_eq_ok_iff.mp h
      obtain ⟨others, hothers, -⟩ := bind_eq_ok_iff.mp h
      exact ⟨⟨result, hresult⟩, others, hothers⟩
    · rintro ⟨⟨result, hresult⟩, others, hothers⟩
      rw [hresult, hothers]
      exact ⟨_, rfl⟩

/-- A check that gives up with `False` passes exactly when it does not give up and the rest passes. -/
theorem guard_eq_ok_true_iff {c : Bool} {y : Except ε Bool} :
    (if c = true then pure false else y) = .ok true ↔ c = false ∧ y = .ok true := by
  cases c <;> simp

/-- A result that passes a check was returned. -/
theorem exists_of_any_toOption {x : Except ε α} {p : α → Bool} (h : x.toOption.any p = true) :
    ∃ a, x = .ok a ∧ p a = true := by
  cases x with
  | ok a => exact ⟨a, rfl, h⟩
  | error e => simp [Except.toOption] at h

/-- A sequence of calls that all return gives the results in order. -/
theorem mapM_eq_ok_map {f : α → Except ε β} {g : α → β} {items : List α}
    (h : ∀ item ∈ items, f item = .ok (g item)) : items.mapM f = .ok (items.map g) := by
  induction items with
  | nil => rfl
  | cons item rest ih =>
    rw [List.mapM_cons, h item (by simp), ih fun other hother => h other (by simp [hother])]
    rfl

/-- A sequence of calls that returns pairs every item with its own result. -/
theorem forall₂_of_mapM_eq_ok {f : α → Except ε β} {items : List α} {results : List β}
    (h : items.mapM f = .ok results) : List.Forall₂ (fun a b => f a = .ok b) items results := by
  induction items generalizing results with
  | nil =>
    cases h
    exact .nil
  | cons item rest ih =>
    rw [List.mapM_cons] at h
    obtain ⟨result, hresult, h⟩ := bind_eq_ok_iff.mp h
    obtain ⟨others, hothers, h⟩ := bind_eq_ok_iff.mp h
    cases h
    exact .cons hresult (ih hothers)

end Sequence

end Python
