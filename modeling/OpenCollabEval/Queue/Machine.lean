import OpenCollabEval.Queue.Plan
import Mathlib.Logic.Function.Basic

/-!
# Runs of the eval-only queue

The queue as a machine that takes one step at a time: workers look at the reports of their job, write
its record, reserve a launch, launch a child runner and record what came of it. An invocation starts
from the state file, and may be killed between any two steps. What the reports say when a worker looks
is an argument of the step, as other programs write them.
-/

open Python

namespace OpenCollabEval

/-- The status of a job's record. -/
inductive JobStatus where
  | candidateIdentityMissing
  | candidateIdentityConflict
  | terminalVerdictConflict
  | skippedTerminal
  | budgetExhausted
  | invalidTimeout
  | running
  | launchBudgetExhausted
  | commandFailed
  | technicalFailed
  | terminal
  deriving DecidableEq

/-- What the machine needs of a job's record; `launchCount` is absent from some records. -/
structure JobRecord where
  status : JobStatus
  launchCount : Option Nat
  deriving DecidableEq

/-- The records by job key. -/
abbrev JobTable := Str → Option JobRecord

/-- `_state_launch_count`. -/
def stateLaunchCount : Option JobRecord → Nat
  | some ⟨_, some count⟩ => count
  | _ => 0

/-- `_candidate_identity_status`. -/
inductive IdentityStatus where
  | verified
  | missing
  | conflict

/-- `_terminal_report`, without the path. -/
inductive TerminalStatus where
  | missing
  | verified
  | conflict

/-- What a worker finds when it looks at the reports of its job and builds the child's command. -/
structure Observation where
  identity : IdentityStatus
  terminal : TerminalStatus
  observedAttempts : Nat
  argvBuilt : Bool

/-- `MAX_TOTAL_EVAL_ATTEMPTS`. -/
def maxTotalEvalAttempts : Nat := 10

/-- Whether the record of a job says that its last launch failed. -/
def previousFailed : Option JobRecord → Bool
  | some ⟨.commandFailed, _⟩ | some ⟨.technicalFailed, _⟩ => true
  | _ => false

/-- What `_run_job` does before it launches anything: write a record, or go on to a launch. -/
def runJobDecision (previous : Option JobRecord) (seen : Observation) : Option JobStatus :=
  match seen.identity with
  | .missing => some .candidateIdentityMissing
  | .conflict => some .candidateIdentityConflict
  | .verified =>
    -- the reports of a job whose last launch failed are not looked at
    let terminal := if previousFailed previous then .missing else seen.terminal
    match terminal with
    | .conflict => some .terminalVerdictConflict
    | .verified => some .skippedTerminal
    | .missing =>
      if maxTotalEvalAttempts ≤ seen.observedAttempts then some .budgetExhausted
      else if !seen.argvBuilt then some .invalidTimeout
      else none

/-- What came of a child runner: its exit code, `none` when it could not be run, the only row of its
report, if it has one row, and whether the report could be quarantined. -/
structure ChildOutcome where
  returncode : Option Int
  rowTerminal : Bool
  rowTechnical : Bool
  quarantined : Bool

/-- The status of a job after its child runner. -/
def resultStatus (child : ChildOutcome) : JobStatus :=
  if child.returncode = some 0 ∧ child.rowTerminal then .terminal
  else if child.returncode.isSome ∧ child.rowTerminal then
    if child.quarantined then .commandFailed else .technicalFailed
  else if child.rowTechnical then .technicalFailed
  else .commandFailed

/-- Whether a failed launch may be repeated, for the attempts observed afterwards. -/
def retries (child : ChildOutcome) (launchCount observedAttempts : Nat) : Bool :=
  (resultStatus child = .commandFailed || resultStatus child = .technicalFailed) &&
    launchCount < 2 && child.returncode ≠ some 125 && observedAttempts < maxTotalEvalAttempts

/-- Where a worker is in `_run_job`, and the main thread in `_future_result`. -/
inductive WorkerState where
  | ready
  /-- A record without a launch count is about to be written. -/
  | recording (status : JobStatus)
  /-- A launch is about to be reserved. -/
  | reserving
  /-- No launch is left; the count was read again. -/
  | exhausted (count : Nat)
  /-- A launch is reserved, and the child is not started yet. -/
  | reserved (count : Nat)
  /-- The child was started. -/
  | launched (count : Nat)
  /-- An exception left `_run_job`. -/
  | raised
  /-- The count was read for the record of the exception. -/
  | recovering (count : Nat)
  | finished

/-- The queue: the state file, and while an invocation runs, its table and its workers. Children are
counted as they are launched. -/
structure QueueState (ι : Type) where
  file : JobTable
  invocation : Option (JobTable × (ι → WorkerState))
  launches : Str → Nat

/-- The queue before the first invocation. -/
def QueueState.init (ι : Type) : QueueState ι := ⟨fun _ => none, none, fun _ => 0⟩

/-- The steps of the queue and its host. -/
inductive QueueAction (ι : Type) where
  /-- An invocation takes the lock and reads the state file. -/
  | start
  /-- The invocation is killed, or ends before its last write. -/
  | kill
  /-- The invocation writes its table and ends. -/
  | finish
  /-- A worker looks at the reports, which may raise. -/
  | look (worker : ι) (seen : Option Observation)
  /-- A worker writes the record it decided on; the write to the file may fail. -/
  | record (worker : ι) (persisted : Bool)
  /-- A worker reserves a launch; the write to the file may fail. -/
  | reserve (worker : ι) (persisted : Bool)
  /-- A worker starts its child. -/
  | launch (worker : ι)
  /-- A worker records what came of its child, `none` when an exception comes first. -/
  | result (worker : ι) (child : Option ChildOutcome) (observedAttempts : Nat) (persisted : Bool)
  /-- The main thread reads the count of a job whose worker raised. -/
  | recover (worker : ι)

section Machine

variable {ι : Type} [DecidableEq ι] (key : ι → Str)

/-- `_set_job_state`: the record is put into the table, and the table into the file. -/
def QueueState.setJobState (s : QueueState ι) (table : JobTable) (workers : ι → WorkerState)
    (worker : ι) (record : JobRecord) (next : WorkerState) (persisted : Bool) : QueueState ι :=
  let table := Function.update table (key worker) (some record)
  { s with
    file := if persisted then table else s.file
    invocation := some (table, Function.update workers worker (if persisted then next else .raised)) }

/-- The state of a worker alone. -/
def QueueState.moveTo (s : QueueState ι) (table : JobTable) (workers : ι → WorkerState)
    (worker : ι) (next : WorkerState) : QueueState ι :=
  { s with invocation := some (table, Function.update workers worker next) }

/-- One step of an invocation. -/
def invocationStep (s : QueueState ι) (table : JobTable) (workers : ι → WorkerState) :
    QueueAction ι → Option (QueueState ι)
  | .start => none
  | .kill => some { s with invocation := none }
  | .finish => some { s with file := table, invocation := none }
  | .look worker seen =>
    match workers worker, seen with
    | .ready, none => some (s.moveTo table workers worker .raised)
    | .ready, some seen =>
      match runJobDecision (table (key worker)) seen with
      | some status => some (s.moveTo table workers worker (.recording status))
      | none => some (s.moveTo table workers worker .reserving)
    | _, _ => none
  | .record worker persisted =>
    match workers worker with
    | .recording status =>
      some (s.setJobState key table workers worker ⟨status, none⟩ .finished persisted)
    | .exhausted count =>
      some (s.setJobState key table workers worker ⟨.launchBudgetExhausted, some count⟩ .finished
        persisted)
    | .recovering count =>
      some (s.setJobState key table workers worker ⟨.commandFailed, some count⟩ .finished persisted)
    | _ => none
  | .reserve worker persisted =>
    match workers worker with
    | .reserving =>
      let count := stateLaunchCount (table (key worker))
      if 2 ≤ count then some (s.moveTo table workers worker (.exhausted count))
      else some (s.setJobState key table workers worker ⟨.running, some (count + 1)⟩
        (.reserved (count + 1)) persisted)
    | _ => none
  | .launch worker =>
    match workers worker with
    | .reserved count =>
      some { s.moveTo table workers worker (.launched count) with
        launches := Function.update s.launches (key worker) (s.launches (key worker) + 1) }
    | _ => none
  | .result worker child observedAttempts persisted =>
    match workers worker, child with
    | .launched _, none => some (s.moveTo table workers worker .raised)
    | .launched count, some child =>
      some (s.setJobState key table workers worker ⟨resultStatus child, some count⟩
        (if retries child count observedAttempts then .ready else .finished) persisted)
    -- the log or the child could not be opened
    | .reserved count, some child =>
      if child.returncode.isSome then none
      else some (s.setJobState key table workers worker ⟨resultStatus child, some count⟩
        (if retries child count observedAttempts then .ready else .finished) persisted)
    | _, _ => none
  | .recover worker =>
    match workers worker with
    | .raised => some (s.moveTo table workers worker
        (.recovering (stateLaunchCount (table (key worker)))))
    | _ => none

/-- One step of the queue; job number `i` has the key `key i`. -/
def queueStep (s : QueueState ι) (action : QueueAction ι) : Option (QueueState ι) :=
  match s.invocation, action with
  | none, .start => some { s with invocation := some (s.file, fun _ => .ready) }
  | none, _ => none
  | some (table, workers), action => invocationStep key s table workers action

/-- A run of the queue. -/
def queueRun (s : QueueState ι) (actions : List (QueueAction ι)) : Option (QueueState ι) :=
  actions.foldlM (queueStep key) s

end Machine

end OpenCollabEval
