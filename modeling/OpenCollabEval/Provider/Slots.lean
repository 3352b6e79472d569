import Mathlib.Data.List.Nodup
import Mathlib.Logic.Function.Basic

/-!
# Request slots of a provider

The slots that processes hold while an upstream request is open, as a machine that takes one step at a
time. A slot is a lock file, and a lease is the descriptor that holds its lock. `acquire` and
`snapshot` try the locks of all slots one by one under the lock of `allocation.lock`; leases are closed
without it, and a process that crashes loses all its locks. Every step belongs to one provider under
one configuration.
-/

namespace OpenCollabEval

/-- The lock files in the directory of a provider. -/
inductive LockFile where
  | allocation
  | slot (index : Nat)
  deriving DecidableEq

/-- An open file of a thread. -/
structure Descriptor (ι : Type) where
  id : Nat
  thread : ι
  file : LockFile
  deriving DecidableEq

/-- Where a thread is in `acquire` or in `snapshot`, which scans without keeping a slot. -/
inductive SlotCall (ι : Type) where
  | idle
  /-- `allocation.lock` is open, its lock is not taken yet. -/
  | waiting (keepOne : Bool) (lock : Descriptor ι)
  /-- The slots before `index` were tried. -/
  | scanning (keepOne : Bool) (lock : Descriptor ι) (index active : Nat)
    (free : Option (Descriptor ι))
  /-- The slot at `index` was free, and its file is to be closed. -/
  | probed (keepOne : Bool) (lock : Descriptor ι) (index active : Nat) (free : Option (Descriptor ι))
    (probe : Descriptor ι)
  /-- The slot is granted, and the metadata of the lease is to be written. -/
  | granting (lock free : Descriptor ι)
  /-- `allocation.lock` is to be closed. -/
  | leaving (lock : Descriptor ι)

/-- The locks that a call holds. -/
def SlotCall.locks {ι : Type} : SlotCall ι → List (Descriptor ι)
  | .idle | .waiting .. => []
  | .scanning _ lock _ _ free => lock :: free.toList
  | .probed _ lock _ _ free probe => lock :: probe :: free.toList
  | .granting lock free => [lock, free]
  | .leaving lock => [lock]

/-- The slots of a provider: how many files were opened, the descriptors that hold a lock, the leases
and the calls of the threads. -/
structure SlotState (ι : Type) where
  opened : Nat
  held : List (Descriptor ι)
  leases : List (Descriptor ι)
  calls : ι → SlotCall ι

/-- No slot is held and no thread is in a call. -/
def SlotState.init (ι : Type) : SlotState ι := ⟨0, [], [], fun _ => .idle⟩

/-- The steps of threads, and the crash of a process. -/
inductive SlotAction (ι π : Type) where
  /-- Open `allocation.lock`, to acquire a slot or to take a snapshot. -/
  | open (thread : ι) (keepOne : Bool)
  | lock (thread : ι)
  | probe (thread : ι)
  | drop (thread : ι)
  | decide (thread : ι)
  | grant (thread : ι)
  | unlock (thread : ι)
  /-- An exception leaves the scan, or the writing of the metadata. -/
  | fail (thread : ι)
  | close (lease : Descriptor ι)
  | crash (process : π)

/-- The number of slot files. -/
def slotCount : Nat := 100

section Step

variable {ι π : Type} [DecidableEq ι] [DecidableEq π] (process : ι → π) (limit reserve : Nat)

namespace SlotState

/-- Whether a lock is free, so that `flock` gets it. -/
def isFree (s : SlotState ι) (file : LockFile) : Bool := s.held.all fun d => d.file ≠ file

/-- Put a thread in a place of its call. -/
def enter (s : SlotState ι) (thread : ι) (call : SlotCall ι) : SlotState ι :=
  { s with calls := Function.update s.calls thread call }

/-- The file that is opened next. -/
def nextFile (s : SlotState ι) (thread : ι) (file : LockFile) : Descriptor ι :=
  ⟨s.opened, thread, file⟩

/-- A lock is taken with a file that was opened just now. -/
def take (s : SlotState ι) (d : Descriptor ι) : SlotState ι :=
  { s with opened := s.opened + 1, held := d :: s.held }

/-- A file is opened and not kept. -/
def tryFile (s : SlotState ι) : SlotState ι := { s with opened := s.opened + 1 }

/-- Closing files lets go of their locks. -/
def closeAll (s : SlotState ι) (files : List (Descriptor ι)) : SlotState ι :=
  { s with held := s.held.filter (· ∉ files) }

/-- One step of a call, or of the host. -/
def step (s : SlotState ι) : SlotAction ι π → Option (SlotState ι)
  | .open thread keepOne =>
    match s.calls thread with
    | .idle => some (s.tryFile.enter thread (.waiting keepOne (s.nextFile thread .allocation)))
    | _ => none
  | .lock thread =>
    match s.calls thread with
    | .waiting keepOne lock =>
      if s.isFree .allocation then
        some ({ s with held := lock :: s.held }.enter thread (.scanning keepOne lock 0 0 none))
      else none
    | _ => none
  | .probe thread =>
    match s.calls thread with
    | .scanning keepOne lock index active free =>
      let fd := s.nextFile thread (.slot index)
      if slotCount ≤ index then none
      else if !s.isFree (.slot index) then
        some (s.tryFile.enter thread (.scanning keepOne lock (index + 1) (active + 1) free))
      else if keepOne && free.isNone then
        some ((s.take fd).enter thread (.scanning keepOne lock (index + 1) active (some fd)))
      else some ((s.take fd).enter thread (.probed keepOne lock index active free fd))
    | _ => none
  | .drop thread =>
    match s.calls thread with
    | .probed keepOne lock index active free fd =>
      some ((s.closeAll [fd]).enter thread (.scanning keepOne lock (index + 1) active free))
    | _ => none
  | .decide thread =>
    match s.calls thread with
    | .scanning _ lock index active free =>
      if index < slotCount then none
      else
        match free with
        | some fd =>
          if active + reserve < limit then some (s.enter thread (.granting lock fd))
          else some ((s.closeAll [fd]).enter thread (.leaving lock))
        | none => some (s.enter thread (.leaving lock))
    | _ => none
  | .grant thread =>
    match s.calls thread with
    | .granting lock fd =>
      some ({ s with leases := fd :: s.leases }.enter thread (.leaving lock))
    | _ => none
  | .unlock thread =>
    match s.calls thread with
    | .leaving lock => some ((s.closeAll [lock]).enter thread .idle)
    | _ => none
  | .fail thread =>
    match s.calls thread with
    | .scanning _ lock _ _ free => some ((s.closeAll free.toList).enter thread (.leaving lock))
    | .probed _ lock _ _ free fd =>
      some ((s.closeAll (fd :: free.toList)).enter thread (.leaving lock))
    | .granting lock fd => some ((s.closeAll [fd]).enter thread (.leaving lock))
    | .waiting .. => some (s.enter thread .idle)
    | _ => none
  | .close lease =>
    if lease ∈ s.leases then
      some { s.closeAll [lease] with leases := s.leases.filter (· ≠ lease) }
    else none
  | .crash p =>
    some
      { s with
        held := s.held.filter fun d => process d.thread ≠ p
        leases := s.leases.filter fun d => process d.thread ≠ p
        calls := fun thread => if process thread = p then .idle else s.calls thread }

/-- A run of the machine, `none` when a step is not possible. -/
def run (s : SlotState ι) (actions : List (SlotAction ι π)) : Option (SlotState ι) :=
  actions.foldlM (step process limit reserve) s

end SlotState

end Step

end OpenCollabEval
