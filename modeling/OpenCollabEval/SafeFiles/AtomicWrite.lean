import Mathlib.Logic.Function.Basic

/-!
# Atomic writes of regular files

`write_regular_file_atomic` as a machine over one target name in one directory: any number of calls,
each with its options and its writer, of which one operation at a time is done. Every operation may
raise, before it takes effect or after. The temporary file of a call is its own, and what a writer
does to its stream and to the number of its descriptor is a script.
-/

namespace OpenCollabEval

/-- A regular file: its identity, its permission bits and its bytes. -/
structure RegularFile where
  id : Nat
  mode : Nat
  bytes : List Nat
  deriving DecidableEq

/-- What a name in a directory leads to. -/
inductive DirEntry where
  | absent
  | regular (file : RegularFile)
  | directory
  /-- A symlink, a pipe or a device. -/
  | special
  deriving DecidableEq

section Writer

/-- What a writer does to the stream that it is given. -/
inductive WriterOp where
  /-- Write, seek or truncate, in the buffer of the stream. -/
  | edit (change : List Nat → List Nat)
  | flush
  /-- `os.close` of the descriptor's number. -/
  | closeDescriptor
  /-- Open another file, which takes the number when it is closed. -/
  | openOther
  | raise

/-- What the number of a descriptor belongs to. -/
inductive DescriptorOwner where
  | temporary
  | nobody
  | other
  deriving DecidableEq

/-- The stream over the temporary file: the bytes of the file, the edits that are still in the buffer,
and the owner of the descriptor's number. -/
structure WriterStream where
  stored : List Nat
  pending : List (List Nat → List Nat)
  owner : DescriptorOwner

/-- The stream that a writer is given. -/
def WriterStream.init : WriterStream := ⟨[], [], .temporary⟩

/-- The bytes after some edits. -/
def applyEdits (bytes : List Nat) (edits : List (List Nat → List Nat)) : List Nat :=
  edits.foldl (fun bytes change => change bytes) bytes

/-- Write the buffer to the file that owns the number; `none` when that raises. -/
def WriterStream.flush (s : WriterStream) : Option WriterStream :=
  if s.pending.isEmpty then some s
  else
    match s.owner with
    | .temporary => some { s with stored := applyEdits s.stored s.pending, pending := [] }
    | .other => some { s with pending := [] }
    | .nobody => none

/-- One operation of a writer; `none` when it raises. -/
def WriterStream.step (s : WriterStream) : WriterOp → Option WriterStream
  | .edit change => some { s with pending := s.pending ++ [change] }
  | .flush => s.flush
  | .closeDescriptor =>
    match s.owner with
    | .temporary => some { s with owner := .nobody }
    | _ => none
  | .openOther => some { s with owner := if s.owner = .nobody then .other else s.owner }
  | .raise => none

/-- `writer(handle)` and `handle.flush()`. -/
def runWriter (writer : List WriterOp) : Option WriterStream :=
  writer.foldlM WriterStream.step WriterStream.init >>= WriterStream.flush

/-- The bytes that a writer produces: its edits, in order. -/
def producedBytes (writer : List WriterOp) : List Nat :=
  applyEdits [] (writer.filterMap fun op =>
    match op with
    | .edit change => some change
    | _ => none)

/-- `os.fstat(handle.fileno()).st_size`; `none` when it raises. The other file may have any size. -/
def WriterStream.size (s : WriterStream) (otherSize : Nat) : Option Nat :=
  match s.owner with
  | .temporary => some s.stored.length
  | .other => some otherSize
  | .nobody => none

end Writer

/-- The arguments of a call. -/
structure AtomicOptions where
  maxBytes : Nat
  mode : Nat
  expectedParent : Option Nat
  expectedTarget : Option Nat
  requireTargetAbsent : Bool
  createOnly : Bool
  writer : List WriterOp

/-- Whether a call publishes with `os.link`. -/
def AtomicOptions.exclusive (options : AtomicOptions) : Bool :=
  options.createOnly || options.requireTargetAbsent

/-- How an operation that raises leaves what it is about. -/
inductive Fault where
  | before
  | after
  deriving DecidableEq

/-- Where a call is. The flag of the last four says whether it returns, as far as it got. -/
inductive AtomicPhase where
  /-- The directory is to be created and opened. -/
  | starting
  /-- The parent and the target are to be checked. -/
  | checking
  /-- The temporary file is to be opened, and gets the permission bits of the target. -/
  | opening (current : Option RegularFile)
  | writing
  | publishing
  | unlinking
  | syncing
  /-- The descriptor is to be closed, in `finally`. -/
  | closing (returns : Bool)
  /-- The temporary file is to be removed, in `finally`. -/
  | removing (returns : Bool)
  /-- The directory is to be closed, in `finally`. -/
  | ending (returns : Bool)
  | done (returns : Bool)
  deriving DecidableEq

/-- The directory and the calls: the target, the temporary files, where the calls are, which of them
have put their file in the target's place, and whose removal of the temporary file raised. -/
structure AtomicState (ι : Type) where
  target : DirEntry
  nextId : Nat
  temporary : ι → Option RegularFile
  phase : ι → AtomicPhase
  published : ι → Bool
  unlinkFailed : ι → Bool

/-- The directory before any call. -/
def AtomicState.init (ι : Type) (target : DirEntry) : AtomicState ι where
  target := target
  nextId := match target with
    | .regular file => file.id + 1
    | _ => 0
  temporary _ := none
  phase _ := .starting
  published _ := false
  unlinkFailed _ := false

/-- One operation of a call: whether it raises, and the size of the other file where a writer let one
take its descriptor's number. -/
structure AtomicAction (ι : Type) where
  call : ι
  fault : Option Fault
  otherSize : Nat

/-- The directory of the target and the creation mask of the process. -/
structure AtomicHost where
  parent : Nat
  umask : Nat

section Step

variable {ι : Type} [DecidableEq ι] (host : AtomicHost) (calls : ι → AtomicOptions)

namespace AtomicState

/-- Put a call in a phase. -/
def enter (s : AtomicState ι) (call : ι) (phase : AtomicPhase) : AtomicState ι :=
  { s with phase := Function.update s.phase call phase }

/-- Set the temporary file of a call. -/
def setTemporary (s : AtomicState ι) (call : ι) (file : Option RegularFile) : AtomicState ι :=
  { s with temporary := Function.update s.temporary call file }

/-- The temporary file of a call appears in the target's place. -/
def publish (s : AtomicState ι) (call : ι) (file : RegularFile) : AtomicState ι :=
  { s with
    target := .regular file
    published := Function.update s.published call true }

/-- `_target_stat`: `none` when it raises. -/
def targetStat (s : AtomicState ι) : Option (Option RegularFile) :=
  match s.target with
  | .absent => some none
  | .regular file => some (some file)
  | .directory | .special => none

/-- The checks before the temporary file is opened: what is at the target, `none` when one raises. -/
def check (s : AtomicState ι) (options : AtomicOptions) : Option (Option RegularFile) := do
  if options.expectedParent.any (· != host.parent) then none
  let current ← s.targetStat
  if options.expectedTarget.isSome && options.expectedTarget != current.map (·.id) then none
  if options.exclusive && current.isSome then none
  return current

/-- The temporary file once it is open: it is created with the bits of `mode` that the mask leaves, or
set to those of the file that it is to replace. -/
def openTemporary (s : AtomicState ι) (call : ι) (current : Option RegularFile) : AtomicState ι :=
  let mode := match current with
    | none => (calls call).mode - ((calls call).mode &&& host.umask)
    | some file => file.mode
  { s with nextId := s.nextId + 1 }.setTemporary call (some ⟨s.nextId, mode, []⟩)

/-- The writing of the temporary file: its bytes, `none` when an operation or the size check raises. -/
def written (options : AtomicOptions) (otherSize : Nat) : Option (List Nat) := do
  let stream ← runWriter options.writer
  let size ← stream.size otherSize
  if options.maxBytes < size then none
  return stream.stored

/-- The publication: the state in which the target is the temporary file, `none` when it raises. -/
def commit (s : AtomicState ι) (call : ι) : Option (AtomicState ι) := do
  let file ← s.temporary call
  if (calls call).exclusive then
    -- `os.link` does not replace anything
    if s.target = .absent then return s.publish call file else none
  else
    -- `os.replace` moves the temporary file, and does not replace a directory
    if s.target = .directory then none else return (s.publish call file).setTemporary call none

/-- The next operation of a call, `none` when it has ended. -/
def step (s : AtomicState ι) (action : AtomicAction ι) : Option (AtomicState ι) :=
  let call := action.call
  match s.phase call with
  | .starting =>
    -- before `try` nothing is cleaned up
    some (s.enter call (if action.fault.isSome then .done false else .checking))
  | .checking =>
    match s.check host (calls call) with
    | some current =>
      some (s.enter call (if action.fault.isSome then .closing false else .opening current))
    | none => some (s.enter call (.closing false))
  | .opening current =>
    match action.fault with
    | some .before => some (s.enter call (.closing false))
    | some .after => some ((s.openTemporary host calls call current).enter call (.closing false))
    | none => some ((s.openTemporary host calls call current).enter call .writing)
  | .writing =>
    match written (calls call) action.otherSize, s.temporary call with
    | some bytes, some file =>
      some ((s.setTemporary call (some { file with bytes })).enter call
        (if action.fault.isSome then .closing false else .publishing))
    | _, _ => some (s.enter call (.closing false))
  | .publishing =>
    if action.fault = some .before then some (s.enter call (.closing false))
    else
      match s.commit calls call with
      | some next =>
        some (next.enter call (if action.fault.isSome then .closing false
          else if (calls call).exclusive then .unlinking else .syncing))
      | none => some (s.enter call (.closing false))
  | .unlinking =>
    match action.fault with
    | some .before => some (s.enter call (.closing false))
    | some .after => some ((s.setTemporary call none).enter call (.closing false))
    | none => some ((s.setTemporary call none).enter call .syncing)
  | .syncing => some (s.enter call (.closing action.fault.isNone))
  | .closing returns => some (s.enter call (.removing (returns && action.fault.isNone)))
  | .removing returns =>
    match action.fault with
    | some .before =>
      some ({ s with unlinkFailed := Function.update s.unlinkFailed call true }.enter call
        (.ending false))
    | some .after => some ((s.setTemporary call none).enter call (.ending false))
    | none => some ((s.setTemporary call none).enter call (.ending returns))
  | .ending returns => some (s.enter call (.done (returns && action.fault.isNone)))
  | .done _ => none

/-- A run of the machine, `none` when a call goes on after its end. -/
def run (s : AtomicState ι) (actions : List (AtomicAction ι)) : Option (AtomicState ι) :=
  actions.foldlM (step host calls) s

end AtomicState

end Step

end OpenCollabEval
