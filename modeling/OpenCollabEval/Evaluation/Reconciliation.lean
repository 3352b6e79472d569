import Mathlib.Data.Finset.Sort
import Mathlib.Data.List.Lex
import Mathlib.Data.Prod.Lex
import OpenCollabEval.Order.BestByKey
import OpenCollabEval.Python.Path
import OpenCollabEval.Queue.Reports

/-!
# Reconciliation of eval-only reports

`eval_only_reconciliation_reports` reads the eval-only reports of a parent directory and those that the
prior final report names, and selects the newest verdict for each task index together with the reports
that executed evaluations of the same candidate. The reports come from a set, so that they are
enumerated in any order.
-/

open Python

namespace OpenCollabEval

/-- The exceptions that end a reconciliation. -/
inductive ReconciliationError where
  | unavailableFinalReport
  | invalidSourceReports
  | unreadable (path : Str)
  | notRegular (path : Str)
  | notOneIndexedRow (path : Str)
  | python (error : PyErr)

/-- What `lstat` answers. -/
inductive StatAnswer where
  | missing
  | failed
  | found (regular : Bool) (mtimeNs : Int)

/-- What the host says of paths. A path is known by its text. -/
structure ReportHost where
  cwd : Str
  parent : Str
  /-- `parent.glob("task_*_eval_only_*.json")` -/
  evalOnlyReports : List Str
  lstat : Str → StatAnswer
  /-- `load_json_with_error`, `none` for an error. -/
  loadJson : Str → Option Obj
  /-- `_has_quarantine_marker` -/
  quarantined : Str → Bool

/-- `str(Path(path))` -/
def normalPath (path : Str) : Str := (PosixPath.ofStr path).asPosix

/-- `str(Path(path).absolute())` -/
def absolutePath (cwd path : Str) : Str :=
  if path.startsWith "/" then normalPath path else normalPath (cwd ++ lit "/" ++ path)

section Identity

variable (env : Env)

/-- `one_text` of `_report_candidate_identity`. -/
def oneText (values : List Json) : Option Str :=
  match (values.filter (!isAbsent ·)).map env.str with
  | [] => none
  | first :: rest => if rest.all (· == first) then some first else none

/-- `one_sha` of `_report_candidate_identity`. -/
def oneSha (values : List Json) : Option Str :=
  match (values.filter (!isAbsent ·)).map fun value => env.lower (env.str value) with
  | [] => none
  | first :: rest => if rest.all (· == first) then some first else none

/-- `_report_candidate_identity` -/
def reportCandidateIdentity (row : Obj) : Option CandidateIdentity := do
  let generation := mapping (row.get "generation")
  let evaluation := mapping (row.get "eval")
  let summary := mapping (evaluation.get "summary")
  let task ← oneText env [row.get "task", row.get "instance_id", row.get "task_id"]
  let generationTask := oneText env
    [generation.get "task", generation.get "instance_id", generation.get "task_id"]
  let evaluationTask := oneText env
    [evaluation.get "task", evaluation.get "instance_id", evaluation.get "task_id",
      summary.get "task", summary.get "instance_id", summary.get "task_id"]
  if generationTask.any (· != task) || evaluationTask.any (· != task) then failure
  let recordId ← oneText env [generation.get "record_id", summary.get "record_id"]
  let source ← oneSha env
    [generation.get "source_patch_sha256", generation.get "patch_sha256", summary.get "patch_sha256"]
  let named := oneSha env [generation.get "eval_patch_sha256", summary.get "eval_patch_sha256"]
  -- A row with the digest of the generated patch only evaluated that patch.
  let eval ← if named.isNone && !(generation.get "eval_patch_sha256").truthy &&
      !(summary.get "eval_patch_sha256").truthy then some source else named
  if !isSha256 source || !isSha256 eval then failure
  return (task, recordId, env.lower source, env.lower eval)

/-- An entry that `_normalized_candidate_identities` keeps. -/
def normalizedIdentity (entry : Json × Json) : Option (Int × CandidateIdentity) :=
  match entry with
  | (.int index, .list [task, recordId, source, eval]) =>
    let task := env.str task
    let recordId := env.str recordId
    let source := env.str source
    let eval := env.str eval
    if task.isEmpty || recordId.isEmpty || !isSha256 source || !isSha256 eval then none
    else some (index, task, recordId, env.lower source, env.lower eval)
  | _ => none

/-- `_normalized_candidate_identities` of the items of a mapping. -/
def normalizedCandidateIdentities (values : List (Json × Json)) : List (Int × CandidateIdentity) :=
  (values.filterMap (normalizedIdentity env)).reverse

/-- `_candidate_identity_matches` -/
def candidateIdentityMatches (observed expected : CandidateIdentity) : Bool :=
  observed.source == expected.source

/-- `_has_reconciliation_verdict` -/
def hasReconciliationVerdict (row : Obj) : Bool :=
  let evaluation := mapping (row.get "eval")
  (evaluation.get "status").eqStr "eval_done" &&
    ((evaluation.get "summary").asDict.any fun summary =>
      (Obj.get summary "resolved").isTrue || (Obj.get summary "resolved").isFalse)

/-- The projection that a report evaluated: its evaluation patch and the paths filtered out of it. -/
abbrev ProjectionIdentity := Str × List Str

/-- `_report_projection_identity` -/
def reportProjectionIdentity (row : Obj) (observed : Option CandidateIdentity) :
    Option ProjectionIdentity := do
  let observed ← observed
  let generation := mapping (row.get "generation")
  let summary := mapping ((mapping (row.get "eval")).get "summary")
  let containers := [generation, summary].filter (·.has "filtered_patch_paths")
  let paths ← containers.mapM fun container => filteredPaths (container.get "filtered_patch_paths")
  match paths with
  | [] => failure
  | first :: rest => if rest.all (· == first) then return (observed.2.2.2, first) else failure

/-- `eval_attempt_count` of the integrity layer. -/
def rowEvalAttemptCount (row : Obj) : Int :=
  let evaluation := mapping (row.get "eval")
  if (evaluation.get "executed").isFalse then 0
  else ((strictInteger (evaluation.getOr "attempt_count" (.int 0))).filter (0 ≤ ·)).getD 0

/-- An eval-only report as the reconciliation reads it. -/
structure ReadReport where
  path : Str
  mtimeNs : Int
  index : Int
  observed : Option CandidateIdentity
  projection : Option ProjectionIdentity
  verdict : Bool
  executed : Bool
  deriving DecidableEq

/-- `verdict_score`: later reports are better, then those with a later path. -/
def ReadReport.score (report : ReadReport) : Int ×ₗ Str := toLex (report.mtimeNs, report.path)

variable (host : ReportHost)

/-- What the loop reads of a report. -/
def readReport (path : Str) : Except ReconciliationError ReadReport :=
  match host.lstat path with
  | .found true mtimeNs => do
    let report := (host.loadJson path).getD []
    match dictItems (report.get "rows") with
    | .error error => throw (.python error)
    | .ok [row] =>
      match strictInteger (row.get "index") with
      | some index =>
        let observed := reportCandidateIdentity env row
        return {
          path := path
          mtimeNs := mtimeNs
          index := index
          observed := observed
          projection := reportProjectionIdentity row observed
          verdict := hasReconciliationVerdict row
          executed := rowEvalAttemptCount row != 0 }
      | none => throw (.notOneIndexedRow path)
    | .ok _ => throw (.notOneIndexedRow path)
  | .found false _ => throw (.notRegular path)
  | _ => throw (.unreadable path)

/-- The arguments of a reconciliation: the current report, the paths to ignore and the candidates that
the queue binds to indices. -/
structure ReconciliationQuery where
  currentReport : Str
  ignoredPaths : List Str
  candidateIdentities : List (Json × Json)

variable (query : ReconciliationQuery)

/-- The current report. -/
def ReconciliationQuery.current : Str := absolutePath host.cwd query.currentReport

/-- The paths that are ignored. -/
def ReconciliationQuery.ignored : List Str := query.ignoredPaths.map (absolutePath host.cwd)

/-- The candidates that the queue binds to indices. -/
def ReconciliationQuery.expected : List (Int × CandidateIdentity) :=
  normalizedCandidateIdentities env query.candidateIdentities

/-- The candidate that the queue binds to an index. -/
def ReconciliationQuery.bound (index : Int) : Option CandidateIdentity :=
  (query.expected env).lookup index

/-- The report at a path, `none` when it is passed over. -/
def admitReport (candidate : Str) : Except ReconciliationError (Option ReadReport) := do
  let path := absolutePath host.cwd candidate
  if path != query.current host && ((query.ignored host).contains path || host.quarantined path) then
    return none
  let report ← readReport env host path
  match query.bound env report.index with
  | some expected =>
    return if report.observed.any (candidateIdentityMatches · expected) then some report else none
  | none => return some report

/-- The running tables of the selection. -/
structure ReconciliationTables where
  any : Int → Option ReadReport
  verdict : Int → Option ReadReport
  accepted : List ReadReport

/-- The tables before the first report. -/
def ReconciliationTables.empty : ReconciliationTables := ⟨fun _ => none, fun _ => none, []⟩

/-- A report counts as a verdict of its index. An unbound index takes every report for one. -/
def countsAsVerdict (report : ReadReport) : Bool :=
  (query.bound env report.index).isNone || report.verdict

/-- The tables take up an admitted report. -/
def ReconciliationTables.add (tables : ReconciliationTables) (report : ReadReport) :
    ReconciliationTables where
  any := keepBest (·.index) (·.score) tables.any report
  verdict :=
    if countsAsVerdict env query report then
      keepBest (·.index) (·.score) tables.verdict report
    else tables.verdict
  accepted := tables.accepted ++ [report]

/-- The tables take up the report at a path. -/
def considerReport (tables : ReconciliationTables) (candidate : Str) :
    Except ReconciliationError ReconciliationTables := do
  let report ← admitReport env host query candidate
  return report.elim tables (tables.add env query)

/-- The report that stands for an index. -/
def ReconciliationTables.canonical (tables : ReconciliationTables) (index : Int) :
    Option ReadReport :=
  (tables.verdict index).or (tables.any index)

/-- A report is execution evidence: it executed evaluations, of the projection that is selected when
its index is bound. -/
def isEvidence (tables : ReconciliationTables) (report : ReadReport) : Bool :=
  report.executed &&
    ((query.bound env report.index).isNone ||
      (tables.canonical report.index).any fun selected =>
        report.observed.isSome && report.observed == selected.observed &&
          report.projection == selected.projection)

/-- The paths that are selected. -/
def ReconciliationTables.selected (tables : ReconciliationTables) : List Str :=
  let evidence := (tables.accepted.filter (isEvidence env query tables)).map (·.path)
  let canonical := (tables.accepted.filterMap fun report => tables.canonical report.index).map (·.path)
  (evidence ++ canonical).toFinset.sort

/-- The sources that the prior final report names. -/
def priorSources : Except ReconciliationError (List Str) :=
  let finalReport := normalPath (host.parent ++ lit "/final_eval_layer_report.json")
  match host.lstat finalReport with
  | .missing => return []
  | .failed => throw (.unreadable finalReport)
  | .found _ _ => do
    let some report := host.loadJson finalReport | throw .unavailableFinalReport
    match (report.get "source_reports").asList.bind Json.asStrs with
    | none | some [] => throw .invalidSourceReports
    | some sources =>
      if sources.any fun source => !source.startsWith "/" then throw .invalidSourceReports
      let parentSummary := absolutePath host.cwd (host.parent ++ lit "/parallel_summary.json")
      return (sources.map (absolutePath host.cwd)).filter (· != parentSummary)

/-- The reports that are looked at. -/
def candidateReports : Except ReconciliationError (List Str) := do
  let sources ← priorSources host
  return host.evalOnlyReports ++ sources ++ [query.current host]

/-- `eval_only_reconciliation_reports`, for an order in which a set is enumerated. -/
def evalOnlyReconciliationReports (enumerate : List Str → List Str) :
    Except ReconciliationError (List Str) := do
  let candidates ← candidateReports host query
  let tables ← (enumerate candidates).foldlM (considerReport env host query) .empty
  return tables.selected env query

end Identity

end OpenCollabEval
