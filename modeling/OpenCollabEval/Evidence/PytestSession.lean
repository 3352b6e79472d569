import OpenCollabEval.Contract.PytestBatches
import OpenCollabEval.Evaluation.RecordIdentity
import OpenCollabEval.Python.JsonLoads
import OpenCollabEval.Python.JsonText
import OpenCollabEval.Python.Lines

/-!
# Structured evidence of a pytest session

A pytest command leaves a stream of JSON events: the controller's start and finish, the node ids that were
collected, and one report for each phase of each test. `_pytest_structured_execution` reads the stream
into an exit status, a table of outcomes for each node, and the nodes of each declared target; the pass,
failure and skip proofs are read off these three.
-/

open Python

namespace OpenCollabEval

namespace PytestProof

/-- The phases in which a test is reported. -/
inductive Phase where
  | setup
  | call
  | teardown
  deriving DecidableEq

/-- The outcomes of a phase. -/
inductive Outcome where
  | passed
  | failed
  | skipped
  deriving DecidableEq

/-- How a report spells a phase. -/
def Phase.name : Phase → Str
  | .setup => "setup"
  | .call => "call"
  | .teardown => "teardown"

/-- How a report spells an outcome. -/
def Outcome.name : Outcome → Str
  | .passed => "passed"
  | .failed => "failed"
  | .skipped => "skipped"

/-- A value looked up in a set of strings: a container is not hashable. -/
def lookUp {α : Type} (name : α → Str) (options : List α) (v : Json) : Except PyErr (Option α) :=
  if v.hashable then .ok (options.find? fun option => v.eqStr (name option)) else .error .typeError

/-- The phase that a report names. -/
def readPhase : Json → Except PyErr (Option Phase) := lookUp Phase.name [.setup, .call, .teardown]

/-- The outcome that a report names. -/
def readOutcome : Json → Except PyErr (Option Outcome) :=
  lookUp Outcome.name [.passed, .failed, .skipped]

/-- The reported outcomes of one node. -/
@[ext]
structure PhaseTable where
  setup : Option Outcome := none
  call : Option Outcome := none
  teardown : Option Outcome := none
  deriving DecidableEq

namespace PhaseTable

/-- The outcome of a phase. -/
def outcomeAt (table : PhaseTable) : Phase → Option Outcome
  | .setup => table.setup
  | .call => table.call
  | .teardown => table.teardown

/-- The table with the outcome of one phase. -/
def set (table : PhaseTable) (outcome : Outcome) : Phase → PhaseTable
  | .setup => { table with setup := some outcome }
  | .call => { table with call := some outcome }
  | .teardown => { table with teardown := some outcome }

/-- `outcome in table.values()`. -/
def has (table : PhaseTable) (outcome : Outcome) : Bool :=
  [table.setup, table.call, table.teardown].contains (some outcome)

/-- `{"setup": "passed", "call": "passed", "teardown": "passed"}`. -/
def completePass : PhaseTable := ⟨some .passed, some .passed, some .passed⟩

/-- `_pytest_complete_skip(reports)`. -/
def isCompleteSkip (table : PhaseTable) : Bool :=
  table == ⟨some .skipped, none, none⟩ || table == ⟨some .skipped, none, some .passed⟩ ||
    (table.setup.isSome && table.call.isSome && table.teardown.isSome && table.has .skipped &&
      !table.has .failed)

theorem outcomeAt_set (table : PhaseTable) (outcome : Outcome) (phase other : Phase) :
    (table.set outcome phase).outcomeAt other = if other = phase then some outcome else table.outcomeAt other := by
  cases phase <;> cases other <;> rfl

/-- An outcome among the values is the outcome of some phase. -/
theorem has_iff (table : PhaseTable) (outcome : Outcome) :
    table.has outcome = true ↔ ∃ phase, table.outcomeAt phase = some outcome := by
  simp only [has, List.contains_iff_mem, List.mem_cons, List.not_mem_nil, or_false]
  constructor
  · rintro (h | h | h)
    · exact ⟨.setup, h.symm⟩
    · exact ⟨.call, h.symm⟩
    · exact ⟨.teardown, h.symm⟩
  · rintro ⟨phase, h⟩
    cases phase <;> simp_all [PhaseTable.outcomeAt]

/-- A complete pass has no failed phase, and no skipped one. -/
theorem has_completePass (outcome : Outcome) :
    completePass.has outcome = decide (outcome = .passed) := by
  cases outcome <;> rfl

theorem not_isCompleteSkip_completePass : completePass.isCompleteSkip = false := by rfl

end PhaseTable

/-- The tables of the reported nodes, in the order of their first reports. -/
structure Reports where
  nodes : List Str
  table : Str → PhaseTable

/-- No node is reported yet. -/
def Reports.start : Reports := ⟨[], fun _ => {}⟩

/-- `reports.setdefault(node, {})[phase] = outcome`. -/
def Reports.record (reports : Reports) (node : Str) (phase : Phase) (outcome : Outcome) : Reports where
  nodes := appendFresh reports.nodes node
  table := Function.update reports.table node ((reports.table node).set outcome phase)

/-- The events of a proof stream, `none` when a line is no JSON text. -/
def proofEvents (depth : Nat) (proofText : Str) : Except PyErr (Option (List Json)) :=
  match ((Str.splitlines proofText).filter fun line => !line.strip.isEmpty).mapM (loads depth) with
  | .ok events => .ok (some events)
  | .error .jsonDecodeError => .ok none
  | .error err => .error err

/-- `event.get("event") == name`. -/
def isEvent (name : String) (event : Obj) : Bool := (event.get "event").eqStr (lit name)

/-- The events as the worker wrote them: the controller's entries of the first and of the last event
are its own. -/
def rawEvents (events : List Obj) : List Obj :=
  events.mapIdx fun index event =>
    if index = 0 ∨ index + 1 = events.length then event.filter (·.1 != lit "controller") else event

/-- The bytes of the worker's stream. -/
def rawPayload (events : List Obj) : List Nat :=
  (rawEvents events).flatMap fun event => DumpFormat.canonical.dumps (.dict event) ++ [10]

/-- What the controller says at the start: a worker of its own user ran the command. -/
def startControllerMatches (rt : Runtime) (controller : Obj) (commandSha256 : Json) : Bool :=
  (controller.get "schema").eqStr "opencollab.pytest_controller.v1" &&
    (controller.get "worker_pid").asInt.any (0 < ·) &&
    (match (controller.get "worker_uid").asInt, (controller.get "controller_uid").asInt with
      | some worker, some own => worker != own
      | _, _ => false) &&
    isLowerSha256 (rt.strOrEmpty commandSha256) &&
    (controller.get "command_sha256").pyEq commandSha256

/-- What the controller says at the finish: the stream ended normally, with the worker's return code. -/
def finishControllerMatches (finish controller : Obj) : Bool :=
  (controller.get "termination").eqStr "normal_protocol_eof" &&
    (controller.get "worker_returncode").asInt.any fun returncode =>
      (finish.get "exitstatus").pyEq (.int returncode)

/-- `_pytest_controller_proof_matches(events, command_sha256)`. -/
def controllerProofMatches (rt : Runtime) (events : List Obj) (commandSha256 : Json) : Bool :=
  match events.head?, events.getLast? with
  | some start, some finish =>
    match (start.get "controller").asDict, (finish.get "controller").asDict with
    | some startController, some finishController =>
      decide (3 ≤ events.length) && startControllerMatches rt startController commandSha256 &&
        finishControllerMatches finish finishController &&
        (finishController.get "event_stream_sha256").eqStr (rt.sha256 (rawPayload events))
    | _, _ => false
  | _, _ => false

/-- `_pytest_target_matches_node(target, node)`. -/
def targetMatchesNode (target node : Str) : Bool :=
  if Str.contains target "::" then node == target || node.startsWith (target ++ lit "[")
  else
    let path := target.rstripOf (· == 47)
    node == path || node.startsWith (path ++ lit "::") || node.startsWith (path ++ lit "/")

/-- The fallback parents: the parameter parents of the targets, when any are given. -/
def readFallbackParents (targets : List Str) (fallback : Json) : Option (List Str) :=
  if !fallback.truthy then some []
  else do
    let parents ← fallback.asList.bind Json.asStrs
    if parents = fallbackParents targets ∧ parents.all (!·.isEmpty) then some parents else none

/-- The events as objects, when the stream is one session of the command. -/
def sessionEvents (rt : Runtime) (events : List Json) (commandSha256 : Json) : Option (List Obj) := do
  let events ← events.mapM Json.asDict
  if controllerProofMatches rt events commandSha256 &&
      events.head?.any (isEvent "session_start") && events.getLast?.any (isEvent "session_finish") &&
      events.countP (isEvent "session_start") == 1 then some events
  else none

/-- The collection and the finish of a session, each of which occurs once. -/
def collectionAndFinish (events : List Obj) : Option (Obj × Obj) :=
  match events.filter (isEvent "collection_finish"), events.filter (isEvent "session_finish") with
  | [collection], [finish] => some (collection, finish)
  | _, _ => none

/-- The collected nodes: distinct nonempty strings, at least one. -/
def readNodeids (v : Json) : Except PyErr (Option (List Str)) :=
  match v.asList with
  | none => .ok none
  | some items =>
    if items.isEmpty then .ok none
    else do
      if !(← Json.setIsFaithful items) then return none
      match Json.asStrs items with
      | none => return none
      | some nodeids => return if nodeids.all (!·.isEmpty) then some nodeids else none

/-- One event of the report loop. -/
def addReport (nodeids : List Str) (reports : Reports) (event : Obj) :
    Except PyErr (Option Reports) :=
  if !isEvent "runtest_logreport" event then .ok (some reports)
  else
    match (event.get "nodeid").asStr with
    | none => .ok none
    | some node =>
      if !nodeids.contains node then .ok none
      else do
        let some phase ← readPhase (event.get "when") | return none
        let some outcome ← readOutcome (event.get "outcome") | return none
        -- a phase is reported once
        if ((reports.table node).outcomeAt phase).isSome then return none
        return some (reports.record node phase outcome)

/-- The report loop. -/
def collectReports (nodeids : List Str) : Reports → List Obj → Except PyErr (Option Reports)
  | reports, [] => .ok (some reports)
  | reports, event :: rest => do
    let some reports ← addReport nodeids reports event | return none
    collectReports nodeids reports rest

/-- The nodes of one declared target. -/
def matchingNodes (nodeids parents : List Str) (target : Str) : Option (List Str) :=
  let exact := nodeids.filter (targetMatchesNode target)
  if !exact.isEmpty then some exact
  else
    let parent := pytestParameterParent target
    if parent.isEmpty || !parents.contains parent then none
    else
      let instances := nodeids.filter (·.startsWith (parent ++ lit "["))
      if instances.isEmpty then none else some instances

/-- What `_pytest_structured_execution` returns. -/
structure Execution where
  exitstatus : Int
  reports : Reports
  /-- For each declared target its nodes. -/
  targetNodes : List (List Str)

/-- The part of the reading that follows the collected nodes. -/
def executionOf (targets nodeids : List Str) (fallback : Json) (exitstatus : Int)
    (events : List Obj) : Except PyErr (Option Execution) :=
  match readFallbackParents targets fallback with
  | none => .ok none
  | some parents =>
    if !nodeids.all (fun node => (targets ++ parents).any (targetMatchesNode · node)) then .ok none
    else do
      let some reports ← collectReports nodeids .start events | return none
      return (targets.mapM (matchingNodes nodeids parents)).map (⟨exitstatus, reports, ·⟩)

/-- `_pytest_structured_execution(targets, proof_text, fallback_parents, command_sha256)`. -/
def structuredExecution (rt : Runtime) (depth : Nat) (targets : List Str) (proofText : Str)
    (fallback commandSha256 : Json) : Except PyErr (Option Execution) := do
  let some events ← proofEvents depth proofText | return none
  let some events := sessionEvents rt events commandSha256 | return none
  let some (collection, finish) := collectionAndFinish events | return none
  let some exitstatus := (finish.get "exitstatus").asInt | return none
  let some nodeids ← readNodeids (collection.get "nodeids") | return none
  executionOf targets nodeids fallback exitstatus events

/-- The nodes of the declared targets. -/
def Execution.selected (execution : Execution) : List Str := execution.targetNodes.flatten

/-- The pass proof of an execution. -/
def Execution.passes (execution : Execution) (parents : List Str) : Bool :=
  execution.selected.all (fun node => execution.reports.table node == .completePass) &&
    (execution.exitstatus == 0 ||
      (execution.exitstatus == 1 && !parents.isEmpty &&
        execution.reports.nodes.any fun node =>
          !execution.selected.contains node &&
            parents.any (fun parent => node.startsWith (parent ++ lit "[")) &&
            (execution.reports.table node).has .failed))

/-- The failure proof of an execution. -/
def Execution.fails (execution : Execution) : Bool :=
  execution.exitstatus != 0 &&
    execution.selected.any fun node => (execution.reports.table node).has .failed

/-- The skip proof of an execution. -/
def Execution.skips (execution : Execution) : Bool :=
  let selected := execution.selected.map execution.reports.table
  execution.exitstatus == 0 && !selected.isEmpty &&
    selected.all (fun report => report == .completePass || report.isCompleteSkip) &&
    selected.any PhaseTable.isCompleteSkip

/-- The strings of a list of fallback parents. -/
def fallbackStrings (fallback : Json) : List Str := (fallback.asList.bind Json.asStrs).getD []

section Proofs

variable (rt : Runtime) (depth : Nat) (targets : List Str) (proofText : Str)
  (fallback commandSha256 : Json)

/-- `_pytest_structured_proof_matches(…)`. -/
def structuredProofMatches : Except PyErr Bool := do
  let some execution ← structuredExecution rt depth targets proofText fallback commandSha256
    | return false
  return execution.passes (fallbackStrings fallback)

/-- `_pytest_structured_failure_proof_matches(…)`. -/
def structuredFailureProofMatches : Except PyErr Bool := do
  let some execution ← structuredExecution rt depth targets proofText fallback commandSha256
    | return false
  return execution.fails

/-- `_pytest_structured_skip_proof_matches(…)`. -/
def structuredSkipProofMatches : Except PyErr Bool := do
  let some execution ← structuredExecution rt depth targets proofText fallback commandSha256
    | return false
  return execution.skips

end Proofs

end PytestProof

end OpenCollabEval
