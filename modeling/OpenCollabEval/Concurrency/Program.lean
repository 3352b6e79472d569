import Mathlib.Logic.Function.Basic

/-!
# Programs that run beside others

A program is a tree of operations, each with a continuation for every answer. Programs take turns on
a state that they share: between two operations of one program any number of operations of the others
may be done, and a program may be left where it stands for good.
-/

namespace Concurrency

/-- A program: what it does next depends on the answers to what it did. -/
inductive Program (Op : Type) (Answer : Op → Type) (α : Type) where
  | done (value : α)
  | call (op : Op) (next : Answer op → Program Op Answer α)

variable {Op : Type} {Answer : Op → Type} {α β : Type}

namespace Program

/-- A program and then another one. -/
def andThen : Program Op Answer α → (α → Program Op Answer β) → Program Op Answer β
  | done value, f => f value
  | call op next, f => call op fun answer => (next answer).andThen f

instance : Monad (Program Op Answer) where
  pure := done
  bind := andThen

/-- One operation. -/
def perform (op : Op) : Program Op Answer (Answer op) := call op done

@[simp]
theorem pure_eq_done (value : α) : (pure value : Program Op Answer α) = done value := rfl

@[simp]
theorem done_bind (value : α) (f : α → Program Op Answer β) : (done value >>= f) = f value := rfl

@[simp]
theorem call_bind (op : Op) (next : Answer op → Program Op Answer α)
    (f : α → Program Op Answer β) :
    (call op next >>= f) = call op fun answer => next answer >>= f := rfl

end Program

/-- A state that is shared, and where each program stands. -/
structure Pool (σ ι Op : Type) (Answer : Op → Type) where
  shared : σ
  programs : ι → Program Op Answer Unit

/-- What the operations of a program may do to the state that is shared, which programs may be
started, and what happens besides. -/
structure Rules (σ ι Op : Type) (Answer : Op → Type) where
  effect : ι → σ → (op : Op) → Answer op → σ → Prop
  entry : ι → σ → Program Op Answer Unit → Prop
  environment : σ → σ → Prop

variable {σ ι : Type} [DecidableEq ι]

/-- One step of a pool. -/
inductive PoolStep (rules : Rules σ ι Op Answer) :
    Pool σ ι Op Answer → Pool σ ι Op Answer → Prop where
  | start {c : Pool σ ι Op Answer} {i : ι} {p : Program Op Answer Unit}
      (hidle : c.programs i = .done ()) (hentry : rules.entry i c.shared p) :
      PoolStep rules c { c with programs := Function.update c.programs i p }
  | operate {c : Pool σ ι Op Answer} {i : ι} {op : Op} {next : Answer op → Program Op Answer Unit}
      {answer : Answer op} {s : σ} (hcall : c.programs i = .call op next)
      (heffect : rules.effect i c.shared op answer s) :
      PoolStep rules c ⟨s, Function.update c.programs i (next answer)⟩
  | environment {c : Pool σ ι Op Answer} {s : σ} (hstep : rules.environment c.shared s) :
      PoolStep rules c { c with shared := s }

end Concurrency
