import OpenCollabEval.Concurrency.Program
import OpenCollabEval.Ownership.Owner
import OpenCollabEval.Python.Pattern

/-!
# What container owners share

The operations that generators, recoveries and batch supervisors do on owner records, on pending
outputs and on Docker, and what each of them may do to the state that all of them share. Every
operation may raise, and most of them before or after they took effect.

The state keeps book of what the code does not record: which attempt made a record, what its owner
last wrote there, how far its agent came, and which containers were removed, by whom and when.
-/

open Python Concurrency

namespace OpenCollabEval

/-- What a call may raise, as far as a handler tells it apart. -/
inductive CallError where
  | osError
  /-- `CandidateByteLimitError` -/
  | byteLimit
  | exception
  /-- `KeyboardInterrupt` and the like, which `except Exception` lets pass. -/
  | interrupt
  deriving DecidableEq

/-- A process: its number, and when it was started. -/
structure ProcessId where
  pid : Int
  startIdentity : Str
  deriving DecidableEq

/-- Where a process is. An ended process is not started again. -/
inductive ProcessStatus where
  | notBegun
  | running
  | ended
  deriving DecidableEq

/-- A container, with what Docker prints for its owner label. -/
structure Container where
  id : Str
  name : Str
  label : Str
  deriving DecidableEq

/-- Whether a reference is the identifier or the name of a container. -/
def Container.refersTo (container : Container) (reference : Str) : Prop :=
  container.id = reference ∨ container.name = reference

/-- How far the agent in a container came. -/
inductive AgentWork where
  | none
  /-- The agent may have changed the workspace. -/
  | running
  /-- Its patch has been extracted and verified. -/
  | extracted (empty : Bool)
  deriving DecidableEq

/-- An attempt at a candidate, kept under the path of its owner record. -/
structure Attempt where
  name : Str
  token : Str
  owner : ProcessId
  /-- The state that the owner last wrote. -/
  declared : OwnerState
  /-- Whether `docker run` was called. -/
  launched : Bool
  work : AgentWork
  deriving DecidableEq

/-- A container of an attempt that was removed: by whom, and what held then. -/
structure Removal where
  remover : ProcessId
  attempt : Attempt
  staged : Bool
  ended : Bool

/-- What all processes share. -/
structure OwnershipState where
  /-- The owner records, each with the number of its file. -/
  files : Str → Option (Nat × OwnerRecord)
  inodes : Nat
  containers : List Container
  /-- The label of every container that there has been. -/
  born : Str → Option Str
  attempts : Str → Option Attempt
  /-- The owner tokens of the pending outputs that were created. -/
  staged : Str → Bool
  process : ProcessId → ProcessStatus
  /-- The record whose owner a process is about to look for. -/
  watched : ProcessId → Option Str
  removals : List Removal

/-- `subprocess.CompletedProcess` of a Docker command. -/
structure DockerResult where
  returncode : Int
  stdout : Str
  stderr : Str

/-- The text that a failed command is judged by. -/
def DockerResult.detail (result : DockerResult) : Str :=
  Str.strip (if result.stderr.isEmpty then result.stdout else result.stderr)

/-- A literal with the flag `i`. `re` takes four more letters for `i`, `k` and `s`. -/
def caselessText (s : String) : Pattern :=
  .concat ((lit s).map fun c => .chars fun d =>
    d == c || (97 ≤ c && c ≤ 122 && d + 32 == c) || (c == 105 && (d == 0x130 || d == 0x131)) ||
      (c == 107 && d == 0x212A) || (c == 115 && d == 0x17F))

/-- `_MISSING_CONTAINER_RE` -/
def missingContainerPattern : Pattern :=
  .alt (.seq (caselessText "no such ")
    (.alt (caselessText "container") (caselessText "object"))) (caselessText "not found")

/-- A command failed because there is no such container. -/
def DockerResult.saysMissing (result : DockerResult) : Bool :=
  result.returncode != 0 && missingContainerPattern.search result.detail

/-- The Docker commands of `gen_prediction_docker`. -/
inductive DockerCommand where
  | inspectLabel (reference : Str)
  | inspect (reference : Str)
  | remove (reference : Str)
  | run (name token : Str)
  | exec (id : Str)

/-- What the process table says about a number. -/
structure ProcessAnswer where
  /-- `_process_start_identity(pid)` -/
  identity : Str
  /-- Whether `os.kill(pid, 0)` raises a `ProcessLookupError`. -/
  lookupFails : Bool

/-- The owner of a pending output. -/
structure PendingOwner where
  containerId : Str
  containerName : Str
  ownerToken : Str

/-- What came of the extraction of a patch. -/
structure PatchExtraction where
  /-- `metrics["patch_extraction_succeeded"] is True` -/
  proven : Bool
  /-- `bool(patch.strip())` -/
  patch : Bool
  raised : Bool

/-- The operations. -/
inductive OwnerOp where
  /-- `_owner_directory(run_dir).glob("*.json")` -/
  | ownerPaths
  /-- `_read_owner` -/
  | readOwner (path : Str)
  /-- `_read_owner` where the owner of some records is looked for next. -/
  | examineOwner (path : Str) (looks : OwnerRecord → Bool)
  /-- `path.lstat()`, `path.exists()` -/
  | lookUp (path : Str)
  /-- `_create_pending_owner` -/
  | createPendingOwner (name : Str)
  /-- `_atomic_create_bytes(path, …)` -/
  | createOwner (path : Str) (record : OwnerRecord)
  /-- `_atomic_write_bytes(path, …)` -/
  | writeOwner (path : Str) (record : OwnerRecord)
  /-- `open_regular_binary(path)`, with all that is read. -/
  | openOwner (path : Str)
  /-- `_path_matches_open_file` -/
  | sameFile (path : Str) (inode : Nat)
  | unlink (path : Str)
  | process (pid : Int)
  | docker (command : DockerCommand)
  /-- The pending outputs of a run. -/
  | pendingPaths
  /-- `_open_pending_regular` and `_read_pending_fd` -/
  | readPending (path : Str)
  | createPending (candidate : PendingOwner)
  | runAgent (name : Str)
  | extract (name : Str)
  /-- Anything else that may raise, or answer a flag. -/
  | host

/-- The answers to an operation. -/
@[reducible]
def OwnerOp.Answer : OwnerOp → Type
  | ownerPaths | pendingPaths => Except CallError (List Str)
  | readOwner _ | examineOwner _ _ => Except CallError (Option OwnerRecord)
  | lookUp _ | sameFile _ _ | host => Except CallError Bool
  | createPendingOwner _ => Except CallError OwnerRecord
  | createOwner _ _ | writeOwner _ _ | unlink _ | createPending _ | runAgent _ => Except CallError Unit
  | openOwner _ => Except CallError (Nat × OwnerRecord)
  | process _ => Except CallError ProcessAnswer
  | docker _ => Except CallError DockerResult
  | readPending _ => Except CallError PendingOwner
  | extract _ => PatchExtraction

/-- `uuid.uuid4().hex` -/
def IsOwnerToken (token : Str) : Prop :=
  token.length = 32 ∧ ∀ c ∈ token, (48 ≤ c ∧ c ≤ 57) ∨ (97 ≤ c ∧ c ≤ 102)

namespace OwnershipState

variable (ownerPath : Str → Str) (s : OwnershipState)

/-- A new file takes the path of a record. -/
def putRecord (path : Str) (record : OwnerRecord) : OwnershipState :=
  { s with
    files := Function.update s.files path (some (s.inodes, record))
    inodes := s.inodes + 1 }

/-- An attempt changes. -/
def setAttempt (path : Str) (attempt : Attempt) : OwnershipState :=
  { s with attempts := Function.update s.attempts path (some attempt) }

/-- The attempt that a container belongs to. -/
def attemptOf (container : Container) : Option Attempt :=
  (s.attempts (ownerPath container.name)).filter fun attempt => attempt.token == container.label

/-- A process removes a container. -/
def removeContainer (remover : ProcessId) (container : Container) : OwnershipState :=
  { s with
    containers := s.containers.filter (· != container)
    removals :=
      match s.attemptOf ownerPath container with
      | some attempt =>
        ⟨remover, attempt, s.staged attempt.token, s.process attempt.owner == .ended⟩ :: s.removals
      | none => s.removals }

/-- A container is created. -/
def addContainer (container : Container) : OwnershipState :=
  { s with
    containers := container :: s.containers
    born := Function.update s.born container.id (some container.label) }

/-- A process writes a record. What its owner writes is noted. -/
def writeRecord (writer : ProcessId) (path : Str) (record : OwnerRecord) : OwnershipState :=
  let s' := s.putRecord path record
  match s.attempts path with
  | some attempt =>
    if attempt.owner = writer then s'.setAttempt path { attempt with declared := record.state }
    else s'
  | none => s'

/-- What happens to the work of an attempt. -/
def setWork (path : Str) (work : AgentWork) : OwnershipState :=
  match s.attempts path with
  | some attempt => s.setAttempt path { attempt with work := work }
  | none => s

/-- `docker run` was called for an attempt. -/
def setLaunched (path : Str) : OwnershipState :=
  match s.attempts path with
  | some attempt => s.setAttempt path { attempt with launched := true }
  | none => s

/-- A container may be created: Docker has neither its name nor its identifier, and no attempt has
the identifier for its name. -/
def Admits (container : Container) : Prop :=
  s.born container.id = none ∧ container.id ≠ container.name ∧
    (∀ other ∈ s.containers, ¬other.refersTo container.name ∧ other.name ≠ container.id) ∧
    ∀ path attempt, s.attempts path = some attempt → attempt.name ≠ container.id

end OwnershipState

section Effects

variable (ownerPath : Str → Str)

/-- What a Docker command does. Docker says that a container is missing only when it is, prints the
label of the container that it found, and prints the identifier of a container that it created. -/
def DockerCommand.Effect (p : ProcessId) (s : OwnershipState) :
    DockerCommand → Except CallError DockerResult → OwnershipState → Prop
  | .inspectLabel reference, answer, s' => s' = s ∧ ∀ result, answer = .ok result →
      (result.returncode = 0 → ∃ container ∈ s.containers, container.refersTo reference ∧
        Str.strip result.stdout = container.label) ∧
      (result.saysMissing = true → ∀ container ∈ s.containers, ¬container.refersTo reference)
  | .inspect reference, answer, s' => s' = s ∧ ∀ result, answer = .ok result →
      result.saysMissing = true → ∀ container ∈ s.containers, ¬container.refersTo reference
  | .remove reference, _, s' => s' = s ∨ ∃ container ∈ s.containers,
      container.refersTo reference ∧ s' = s.removeContainer ownerPath p container
  | .run name token, answer, s' =>
    let called := s.setLaunched (ownerPath name)
    (s' = called ∧ ∀ result, answer = .ok result → result.returncode ≠ 0) ∨
      ∃ id, s.Admits ⟨id, name, token⟩ ∧ s' = called.addContainer ⟨id, name, token⟩ ∧
        ∀ result, answer = .ok result → result.returncode = 0 → Str.strip result.stdout = id
  | .exec _, _, s' => s' = s

/-- What an operation of a process does. -/
def OwnerOp.Effect (p : ProcessId) (s : OwnershipState) :
    (op : OwnerOp) → op.Answer → OwnershipState → Prop
  | .ownerPaths, _, s' | .pendingPaths, _, s' | .host, _, s' => s' = s
  | .readOwner path, answer, s' =>
    s' = s ∧ ∀ record, answer = .ok (some record) → ∃ inode, s.files path = some (inode, record)
  | .examineOwner path looks, answer, s' =>
    (∀ record, answer = .ok (some record) → ∃ inode, s.files path = some (inode, record)) ∧
      s' = { s with
        watched := Function.update s.watched p (match answer with
          | .ok (some record) => if looks record then some path else none
          | _ => none) }
  | .lookUp path, answer, s' =>
    s' = s ∧ ∀ found, answer = .ok found → found = (s.files path).isSome
  | .createPendingOwner name, answer, s' =>
    (s' = s ∧ ∀ record, answer ≠ .ok record) ∨
      ∃ record : OwnerRecord, s.files (ownerPath name) = none ∧
        s.attempts (ownerPath name) = none ∧ s.born name = none ∧
        IsOwnerToken record.ownerToken ∧
        (∀ path attempt, s.attempts path = some attempt → attempt.token ≠ record.ownerToken) ∧
        (∀ id, s.born id ≠ some record.ownerToken) ∧
        record.state = .pending ∧ record.containerName = name ∧ record.containerId = [] ∧
        record.ownerPid = p.pid ∧
        (record.ownerStartIdentity = [] ∨ record.ownerStartIdentity = p.startIdentity) ∧
        (∀ other, answer = .ok other → other = record) ∧
        s' = (s.putRecord (ownerPath name) record).setAttempt (ownerPath name)
          ⟨name, record.ownerToken, p, .pending, false, .none⟩
  | .createOwner path record, _, s' =>
    s' = s ∨ (s.files path = none ∧ s' = s.putRecord path record)
  | .writeOwner path record, answer, s' =>
    (s' = s ∧ answer ≠ .ok ()) ∨ s' = s.writeRecord p path record
  | .openOwner path, answer, s' =>
    s' = s ∧ ∀ found, answer = .ok found → s.files path = some found
  | .sameFile path inode, answer, s' =>
    s' = s ∧ (answer = .ok true → ∃ record, s.files path = some (inode, record))
  | .unlink path, answer, s' =>
    (s' = s ∧ answer ≠ .ok ()) ∨ s' = { s with files := Function.update s.files path none }
  | .process pid, answer, s' =>
    s' = { s with watched := Function.update s.watched p none } ∧
      ∀ found, answer = .ok found → ∀ other, s.process other = .running → other.pid = pid →
        (found.identity = [] ∨ found.identity = other.startIdentity) ∧ found.lookupFails = false
  | .docker command, answer, s' => command.Effect ownerPath p s answer s'
  | .readPending _, answer, s' =>
    s' = s ∧ ∀ candidate, answer = .ok candidate → s.staged candidate.ownerToken = true
  | .createPending candidate, answer, s' =>
    (s' = s ∧ answer ≠ .ok ()) ∨
      s' = { s with staged := Function.update s.staged candidate.ownerToken true }
  | .runAgent name, _, s' => s' = s.setWork (ownerPath name) .running
  | .extract name, answer, s' =>
    s' = if answer.proven then s.setWork (ownerPath name) (.extracted (!answer.patch)) else s

/-- What happens besides: processes begin and end, and others use Docker too. In a calm world no
process ends while another one is about to look for it, having read its record. -/
inductive OwnershipEnvironment (calm : Prop) (s : OwnershipState) : OwnershipState → Prop where
  | begin (p : ProcessId) (hnew : s.process p = .notBegun)
      (hpid : ∀ other, s.process other = .running → other.pid ≠ p.pid) :
      OwnershipEnvironment calm s { s with process := Function.update s.process p .running }
  | finish (p : ProcessId) (hrunning : s.process p = .running)
      (hcalm : calm → ∀ other path attempt, other ≠ p → s.process other = .running →
        s.watched other = some path → s.attempts path = some attempt → attempt.owner ≠ p) :
      OwnershipEnvironment calm s { s with process := Function.update s.process p .ended }
  | appear (container : Container) (hadmits : s.Admits container)
      (hforeign : ∀ path attempt, s.attempts path = some attempt →
        attempt.token ≠ container.label) :
      OwnershipEnvironment calm s (s.addContainer container)
  | vanish (container : Container)
      (hforeign : ∀ path attempt, s.attempts path = some attempt →
        attempt.token ≠ container.label) :
      OwnershipEnvironment calm s
        { s with containers := s.containers.filter (· != container) }

end Effects

end OpenCollabEval
