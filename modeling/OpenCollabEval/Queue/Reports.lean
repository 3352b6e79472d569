import OpenCollabEval.Evaluation.AttemptIntegrity
import OpenCollabEval.Python.Regex
import OpenCollabEval.Queue.Machine

/-!
# Reports beside the queue

What the eval-only queue reads in the parent directory of a job: the parent's summary and the reports
of eval-only runners. A row with the index and the candidate of a job whose evaluation is done and
proven is a verdict on it.
-/

open Python

namespace OpenCollabEval

/-- A file in a parent directory. `document` is what `load_json` returns of it, `none` when the call
raises. -/
structure ReportFile where
  name : Str
  regular : Bool
  quarantined : Bool
  document : Option Obj

/-- The files of a parent directory. -/
abbrev ReportDirectory := List ReportFile

/-- The summary of a parent. -/
def parallelSummary : Str := "parallel_summary.json"

/-- `*` of a file name pattern. -/
def anyText : Regex := .star (.chars fun _ => true)

/-- `task_*_eval_only_*.json`. -/
def evalOnlyGlob : Regex :=
  .concat [.lit "task_", anyText, .lit "_eval_only_", anyText, .lit ".json"]

/-- `task_{index}_eval_only_*.json`. -/
def indexGlob (index : Int) : Regex :=
  .concat [.lit (lit "task_" ++ intStr index ++ lit "_eval_only_"), anyText, .lit ".json"]

/-- `task_{index}_*_eval_only_*.json`. -/
def indexKeyGlob (index : Int) : Regex :=
  .concat [.lit (lit "task_" ++ intStr index ++ lit "_"), anyText, .lit "_eval_only_", anyText,
    .lit ".json"]

/-- The names of the reports of a parent. -/
def isParentReport (name : Str) : Bool := name == parallelSummary || evalOnlyGlob.fullmatch name

/-- The names that `_terminal_report` looks at. -/
def isTerminalReport (index : Int) (name : Str) : Bool :=
  name == parallelSummary || (indexGlob index).fullmatch name || (indexKeyGlob index).fullmatch name

/-- What iterating over `value or []` gives of dicts. -/
def dictItems (value : Json) : Except PyErr (List Obj) :=
  if !value.truthy then .ok []
  else
    match value with
    | .list items => .ok (items.filterMap Json.asDict)
    | .str _ | .dict _ => .ok []
    | _ => .error .typeError

/-- `_report_rows`. -/
def reportRows (report : Obj) : Except PyErr (List Obj) := do
  let rows ← dictItems (report.get "rows")
  let results ← dictItems (report.get "results")
  let others ← results.mapM fun result => dictItems (result.get "rows")
  return rows ++ others.flatten

/-- A field, or another one when it is falsy. -/
def eitherField (o : Obj) (first second : Str) : Json :=
  if (o.get first).truthy then o.get first else o.get second

/-- `_row_identity`. -/
def rowIdentity (row : Obj) : Option CandidateIdentity := do
  let generation ← (row.get "generation").asDict
  let task ← (directPayloadTaskId (.dict row)).filter (!·.isEmpty)
  let recordId ← (Obj.get generation "record_id").asStr.filter (!·.isEmpty)
  let source ← (eitherField generation "source_patch_sha256" "patch_sha256").asStr.filter isSha256
  let eval ← (eitherField generation "eval_patch_sha256" "patch_sha256").asStr.filter isSha256
  return (task, recordId, lowerHex source, lowerHex eval)

/-- The first three fields of an identity. -/
def CandidateIdentity.source (identity : CandidateIdentity) : Str × Str × Str :=
  (identity.1, identity.2.1, identity.2.2.1)

/-- `_row_index_matches`. -/
def rowIndexMatches (row : Obj) (job : Job) : Bool :=
  strictInteger (row.get "index") == some job.index

/-- `_row_matches_job`. -/
def rowMatchesJob (row : Obj) (job : Job) : Bool :=
  (rowIdentity row).map CandidateIdentity.source == some (jobIdentity job).source

section Reading

variable (env : Env) (patchBudget : Int)

/-- The verdict that a row has on a job: `_row_terminal` and the `resolved` of its summary. -/
def rowVerdict (job : Job) (row : Obj) : Except PyErr (Option Bool) := do
  let some evaluation := (row.get "eval").asDict | return none
  if !rowIndexMatches row job || !rowMatchesJob row job ||
      !(evaluation.get "status").eqStr "eval_done" then return none
  let integrity ← attemptIntegrity env patchBudget row job.task
  let some summary := (evaluation.get "summary").asDict | return none
  match summary.get "resolved" with
  | .bool resolved =>
    return if integrity.directExecutionProven && integrity.reasons.isEmpty then some resolved
      else none
  | _ => return none

/-- The rows of a report that is not quarantined; `none` when reading them raises. -/
def ReportFile.rows (file : ReportFile) : Option (List Obj) :=
  if file.quarantined then some []
  else if !file.regular then none
  else file.document.bind fun report => (reportRows report).toOption

/-- The verdicts of a report on a job. -/
def ReportFile.verdicts (job : Job) (file : ReportFile) : Option (List Bool) := do
  let rows ← file.rows
  let found ← (rows.mapM (rowVerdict env patchBudget job)).toOption
  return found.reduceOption

/-- `_candidate_identity_status`. -/
def candidateIdentityStatus (job : Job) (dir : ReportDirectory) : Option IdentityStatus := do
  let rows ← (dir.filter fun file => isParentReport file.name).mapM ReportFile.rows
  let identities := (rows.flatten.filter (rowIndexMatches · job)).filterMap fun row =>
    (rowIdentity row).map CandidateIdentity.source
  return if identities.contains (jobIdentity job).source then .verified
    else if 1 < identities.eraseDups.length then .conflict
    else .missing

/-- `_terminal_report`, without the path. -/
def terminalReport (job : Job) (dir : ReportDirectory) : Option TerminalStatus := do
  let found ← (dir.filter fun file => isTerminalReport job.index file.name).mapM
    (ReportFile.verdicts env patchBudget job)
  let verdicts := found.flatten
  return if verdicts.contains true && verdicts.contains false then .conflict
    else if verdicts.isEmpty then .missing
    else .verified

/-- What a worker takes from `_terminal_report`, which it does not call for a job whose last launch
failed. -/
def terminalStatus (job : Job) (dir : ReportDirectory) (previous : Option JobRecord) :
    IdentityStatus → Option TerminalStatus
  | .verified => if previousFailed previous then some .missing
      else terminalReport env patchBudget job dir
  | _ => some .missing

/-- What a worker finds when it looks at the reports of its job; `none` when reading them raises. -/
def observe (job : Job) (dir : ReportDirectory) (previous : Option JobRecord)
    (observedAttempts : Nat) (argvBuilt : Bool) : Option Observation := do
  let identity ← candidateIdentityStatus job dir
  let terminal ← terminalStatus env patchBudget job dir previous identity
  return ⟨identity, terminal, observedAttempts, argvBuilt⟩

/-- `json_output` of `_child_argv`. -/
def childOutput (job : Job) (queueId : Str) (attempt : Nat) : Str :=
  lit "task_" ++ intStr job.index ++ lit "_" ++ jobKey env job ++ lit "_eval_only_queue_" ++
    queueId ++ lit "_attempt_" ++ natStr attempt ++ lit ".json"

/-- The only row of the report of a child, if it has one row. -/
def childRow (output : Str) (dir : ReportDirectory) : Option Obj := do
  let file ← dir.find? (·.name == output)
  if !file.regular then failure
  let report ← file.document
  match report.get "rows" with
  | .list [.dict row] => return row
  | _ => none

/-- The verdict of the row of a child that was run. -/
def childVerdict (job : Job) (returncode : Option Int) : Option Obj → Option (Option Bool)
  | some row => if returncode.isSome then (rowVerdict env patchBudget job row).toOption
      else some none
  | none => some none

/-- What came of a child, by its exit code and its row; `none` when looking at the row raises. -/
def childOutcome (job : Job) (row : Option Obj) (returncode : Option Int) (quarantined : Bool) :
    Option ChildOutcome := do
  let verdict ← childVerdict env patchBudget job returncode row
  let technical := row.any fun row => (row.get "eval").asDict.any fun evaluation =>
    (Obj.get evaluation "status").eqStr "technical_eval_failed"
  return ⟨returncode, verdict.isSome, technical, quarantined⟩

end Reading

end OpenCollabEval
