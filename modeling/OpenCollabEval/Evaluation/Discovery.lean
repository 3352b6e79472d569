import OpenCollabEval.Evaluation.ExecutionProof
import OpenCollabEval.Evaluation.Pairing
import OpenCollabEval.Python.JsonLoads

/-!
# Discovery of evaluation artifacts

What the status tools read below an evaluation side directory: every JSON file is an attempt, or a
document with reports on one or more tasks. Reports without a record id are bound to the attempt that
wrote them, and a finished attempt without a report counts as a technical failure.
-/

open Python

namespace OpenCollabEval

/-- `EvalReport`. The path is relative to the side directory. -/
structure EvalReport where
  taskId : Str
  patchSha : Str
  status : Str
  recordId : Str
  resolvedCount : Int
  unresolvedCount : Int
  path : List Str

/-- `EvalAttempt`. -/
structure EvalAttempt where
  taskId : Str
  recordId : Str
  patchSha : Str
  startedAtNs : Int
  status : Str
  pid : Int
  ownerStartIdentity : Str
  evaluatorPgid : Int
  evaluatorStartIdentity : Str
  path : List Str
  priorReports : Option (List (Str × Str))
  priorReportFingerprint : Option Str

/-- The metadata of a file. -/
structure FileStat where
  mtimeNs : Int
  ctimeNs : Int
  size : Nat
  ino : Nat

/-- A JSON file that the scan of the side directory lists: its path relative to the directory, its
metadata, and its text, `none` when it is no UTF-8. -/
structure DiscoveredFile where
  path : List Str
  stat : FileStat
  text : Option Str

/-- What the loop of `_discover_eval_artifacts` ends in when it raises. -/
inductive DiscoveryError where
  /-- `EvalArtifactDiscoveryError` for a document that could not be read completely. -/
  | incomplete (path : List Str)
  | python (e : PyErr)

/-- `TECHNICAL_EVAL_STATUSES`. -/
def technicalEvalStatuses : List Str := lits
  ["technical_eval_failed", "eval_failed", "eval_start_failed", "eval_driver_error",
    "empty_eval_patch_invalid", "blocked_missing_eval_deps", "blocked_missing_eval_image",
    "blocked_missing_eval_spec"]

/-- `REPORT_BINDING_ATTEMPT_STATUSES`. -/
def reportBindingAttemptStatuses : List Str := lits ["launching", "started", "completed"]

/-- The schema of attempts, and that of claims. -/
def attemptSchemas : List Str :=
  lits ["opencollab.swe_eval_attempt.v1", "opencollab.swe_eval_claim.v1"]

/-- The keys under which a summary counts its outcomes. -/
def summaryCountFields : List Str :=
  lits ["resolved_instances", "unresolved_instances", "resolved_ids", "unresolved_ids"]

/-- `_summary_count`, `none` where it raises `ValueError`. -/
def summaryCount (payload : Obj) (key idsKey : Str) : Option Int :=
  match payload.get key, (payload.get idsKey).asList with
  | .null, some ids => some ids.length
  | .null, none => some 0
  | .list items, _ => some items.length
  | .str [], _ => some 0
  | value, _ => (strictInteger value).filter (0 ≤ ·)

/-- `str(path)` relative to the side directory. -/
def pathText (path : List Str) : Str := Str.join "/" path

/-- `_report_stat_fingerprint`. -/
def FileStat.fingerprint (stat : FileStat) : Str :=
  Str.join ":" [intStr stat.mtimeNs, intStr stat.ctimeNs, natStr stat.size, natStr stat.ino]

/-- The order of `_report_path_sort_key`. -/
def DiscoveredFile.le (a b : DiscoveredFile) : Bool :=
  a.stat.mtimeNs < b.stat.mtimeNs ||
    (a.stat.mtimeNs == b.stat.mtimeNs && Str.le (pathText a.path) (pathText b.path))

/-- `attempts[attempt.task_id] = attempt`, unless a later one is there already. -/
def putAttempt (attempts : List (Str × EvalAttempt)) (attempt : EvalAttempt) :
    List (Str × EvalAttempt) :=
  match attempts.lookup attempt.taskId with
  | none => attempts ++ [(attempt.taskId, attempt)]
  | some previous =>
    if previous.startedAtNs ≤ attempt.startedAtNs then
      attempts.map fun entry => if entry.1 == attempt.taskId then (entry.1, attempt) else entry
    else attempts

/-- Whether a report that lies beside an attempt was written after it started: `none` when it is known
to be an older one. -/
def freshForAttempt (file : DiscoveredFile) (attempt : EvalAttempt) : Option Bool :=
  match attempt.priorReports, attempt.priorReportFingerprint with
  | some reports, _ =>
    if reports.lookup (pathText file.path) == some file.stat.fingerprint then none else some true
  | none, some prior =>
    if file.path == attempt.path.dropLast ++ [lit "report.json"] then
      if !prior.isEmpty && file.stat.fingerprint == prior then none else some (!prior.isEmpty)
    else none
  | none, none => none

/-- `_bind_report_to_attempt`. -/
def bindReportToAttempt (report : EvalReport) (file : DiscoveredFile) (attempt : Option EvalAttempt) :
    EvalReport :=
  match attempt with
  | none => report
  | some attempt =>
    let legacy := !report.patchSha.isEmpty && report.recordId.isEmpty &&
      patchShaMatches report.patchSha attempt.patchSha
    if !reportBindingAttemptStatuses.contains attempt.status ||
        (!report.patchSha.isEmpty && !legacy) then report
    else
      match freshForAttempt file attempt with
      | none => report
      | some fresh =>
        if file.stat.mtimeNs < attempt.startedAtNs || (legacy && !fresh) then report
        else { report with patchSha := attempt.patchSha, recordId := attempt.recordId }

section Discovery

variable (env : Env)

/-- A report that says that its evaluation failed for technical reasons. -/
def isTechnical (report : Obj) : Bool :=
  technicalEvalStatuses.contains (textOf env report "status") || (report.get "error").truthy

/-- `_status_from_official_payload`: status, counts and patch digest of the item of a task. -/
def statusFromOfficialPayload (task : Str) (item : Obj) : Option (Str × Int × Int × Str) := do
  let itemTask ← directPayloadTaskId (.dict item)
  if !itemTask.isEmpty && itemTask != task then none
  else
    let patchSha ← directPayloadPatchSha (.dict item)
    if isTechnical env item then some ("technical_eval_failed", 0, 0, patchSha)
    else
      match item.get "resolved" with
      | .bool resolved =>
        some ("done", if resolved then 1 else 0, if resolved then 0 else 1, patchSha)
      | _ => none

/-- `_status_from_summary_payload`, `none` where it raises `ValueError`. -/
def statusFromSummaryPayload (payload : Obj) : Option (Str × Int × Int) :=
  let status := textOf env payload "status"
  if isTechnical env payload then some ("technical_eval_failed", 0, 0)
  else
    match summaryCountFields.any (Obj.has payload), payload.get "resolved" with
    | false, .bool resolved =>
      some (status, if resolved then 1 else 0, if resolved then 0 else 1)
    | false, _ => none
    | true, verdict => do
      let resolved ← summaryCount payload "resolved_instances" "resolved_ids"
      let unresolved ← summaryCount payload "unresolved_instances" "unresolved_ids"
      let disagrees := match verdict with
        | .bool verdict => resolved + unresolved != 1 || (resolved == 1) != verdict
        | _ => false
      if (status == lit "done" && resolved + unresolved == 0) || disagrees then none
      else some (status, resolved, unresolved)

/-- Whether a direct report is accepted: a technical failure as it is, anything else by its proof. -/
def directReportProven (report : Obj) : Except PyErr Bool :=
  if isTechnical env report then .ok true
  else directEvalDoneHasExecutionProof env report ⟨[], none, none, true⟩

/-- The report of one direct evaluation, if it is proven and its fields agree. -/
def directReport (path : List Str) (task : Str) (report : Obj) (recordId : Str) :
    Except PyErr (Option EvalReport) := do
  if !(← directReportProven env report) then return none
  match statusFromSummaryPayload env report, directPayloadPatchSha (.dict report) with
  | some (status, resolved, unresolved), some patchSha =>
    return some ⟨task, patchSha, status, recordId, resolved, unresolved, path⟩
  | _, _ => return none

/-- The start of the schemas of direct reports. -/
def directSchema : Str := "opencollab.prolite_direct_eval."

/-- Whether a report under the key of a task is one on that task: a technical failure may leave its
task out. -/
def namesItsKey (key : Str) (report : Obj) : Bool :=
  match directPayloadTaskId (.dict report) with
  | none => false
  | some task => if task.isEmpty then isTechnical env report else task == key

/-- The report that a document has under one of its keys. -/
def nestedReport (path : List Str) (payload : Obj) (key : Str) (value : Json) :
    Except PyErr (Option EvalReport) :=
  match value with
  | .dict report =>
    let recordId := if (Obj.get report "record_id").truthy then textOf env report "record_id"
      else textOf env payload "record_id"
    if (textOf env report "schema").startsWith directSchema then
      if namesItsKey env key report then directReport env path key report recordId else .ok none
    else
      .ok ((statusFromOfficialPayload env key report).map fun (status, resolved, unresolved, patchSha) =>
        ⟨key, patchSha, status, recordId, resolved, unresolved, path⟩)
  | _ => .ok none

/-- `_reports_from_payload`. -/
def reportsFromPayload (path : List Str) (payload : Json) : Except PyErr (List EvalReport) :=
  match payload with
  | .dict entries => do
    if ← (Obj.get entries "schema").inStrSet attemptSchemas then return []
    match directPayloadTaskId payload with
    | none => return []
    | some [] =>
      return (← entries.mapM fun entry => nestedReport env path entries entry.1 entry.2).filterMap id
    | some task =>
      if !(Obj.get entries "schema").eqStr "opencollab.prolite_direct_eval.v2" then return []
      return (← directReport env path task entries (textOf env entries "record_id")).toList
  | _ => .ok []

/-- `strict_integer(o.get(key, 0), nonnegative=True)`. -/
def naturalOrZero (o : Obj) (key : Str) : Option Int :=
  (strictInteger (o.getOr key (.int 0))).filter (0 ≤ ·)

/-- `_attempt_from_payload`. -/
def attemptFromPayload (path : List Str) (payload : Json) : Option EvalAttempt :=
  match payload with
  | .dict entries => do
    if !(Obj.get entries "schema").eqStr "opencollab.swe_eval_attempt.v1" then none
    else
      let taskId ← directPayloadTaskId payload
      let recordId := textOf env entries "record_id"
      let patchSha := env.lower (textOf env entries "patch_sha256")
      let startedAtNs ← naturalOrZero entries "started_at_ns"
      let pid ← naturalOrZero entries "pid"
      let evaluatorPgid ← naturalOrZero entries "evaluator_pgid"
      if taskId.isEmpty || recordId.isEmpty || patchSha.length != 64 || startedAtNs ≤ 0 then none
      else some {
        taskId, recordId, patchSha, startedAtNs
        status := textOf env entries "status"
        pid
        ownerStartIdentity := textOf env entries "owner_start_identity"
        evaluatorPgid
        evaluatorStartIdentity := textOf env entries "evaluator_start_identity"
        path
        priorReports := (Obj.get entries "prior_reports").asDict.map
          (·.map fun entry => (entry.1, env.str entry.2))
        priorReportFingerprint := if Obj.has entries "prior_report_fingerprint"
          then some (textOf env entries "prior_report_fingerprint") else none }
  | _ => none

/-- What one file holds: an attempt, or reports. -/
inductive Artifact where
  | attempt (attempt : EvalAttempt)
  | reports (reports : List EvalReport)

/-- One round of the loop over the files. -/
def readArtifact (depth : Nat) (file : DiscoveredFile) : Except DiscoveryError Artifact :=
  match file.text.map (loads depth) with
  | some (.ok payload) =>
    match attemptFromPayload env file.path payload with
    | some attempt => .ok (.attempt attempt)
    | none => (reportsFromPayload env file.path payload).mapError .python |>.map .reports
  | none | some (.error .jsonDecodeError) | some (.error .recursionError) =>
    .error (.incomplete file.path)
  | some (.error e) => .error (.python e)

end Discovery

/-- The attempts of all files. -/
def discoveredAttempts (artifacts : List (DiscoveredFile × Artifact)) : List (Str × EvalAttempt) :=
  artifacts.foldl (fun attempts entry =>
    match entry.2 with
    | .attempt attempt => putAttempt attempts attempt
    | .reports _ => attempts) []

/-- The reports of all files, bound to the attempts. -/
def discoveredReports (artifacts : List (DiscoveredFile × Artifact))
    (attempts : List (Str × EvalAttempt)) : List EvalReport :=
  artifacts.flatMap fun entry =>
    match entry.2 with
    | .attempt _ => []
    | .reports reports => reports.map fun report =>
      bindReportToAttempt report entry.1 (attempts.lookup report.taskId)

/-- The report of an attempt that ended and left none. -/
def unreportedAttempt (env : Env) (reports : List EvalReport) (attempt : EvalAttempt) :
    Option EvalReport :=
  let reported := reports.any fun report => report.taskId == attempt.taskId &&
    report.recordId == attempt.recordId && env.lower report.patchSha == attempt.patchSha
  if !reported && (technicalEvalStatuses.contains attempt.status ||
      attempt.status == lit "completed") then
    some ⟨attempt.taskId, attempt.patchSha, "technical_eval_failed", attempt.recordId, 0, 0,
      attempt.path⟩
  else none

/-- `_discover_eval_artifacts`: the reports and the attempt of each task. -/
def discoverEvalArtifacts (env : Env) (depth : Nat) (files : List DiscoveredFile) :
    Except DiscoveryError (List EvalReport × List (Str × EvalAttempt)) := do
  let artifacts ← (files.insertionSort (DiscoveredFile.le · ·)).mapM fun file => do
    return (file, ← readArtifact env depth file)
  let attempts := discoveredAttempts artifacts
  let reports := discoveredReports artifacts attempts
  return (reports ++ attempts.filterMap fun entry => unreportedAttempt env reports entry.2, attempts)

end OpenCollabEval
