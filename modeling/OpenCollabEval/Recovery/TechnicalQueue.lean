import OpenCollabEval.Env
import OpenCollabEval.Evaluation.GenerationProof
import OpenCollabEval.Python.Conversion

/-!
# Technical recovery of a task

After a technical failure a task may be run once more. `plan_recovery_attempt` evaluates the candidate of
the failed run again when the candidate is proven, and otherwise starts a new generation, unless one of
the block reasons applies.
-/

open Python

namespace OpenCollabEval

/-- The two kinds of a recovery attempt. -/
inductive RecoveryMode where
  | generation
  | evalOnly
  deriving DecidableEq

/-- The text of a mode in names and paths. -/
def RecoveryMode.text : RecoveryMode → Str
  | generation => "generation"
  | evalOnly => "eval_only"

/-- `CandidateBinding`. -/
structure CandidateBinding where
  task : Str
  recordId : Str
  sourcePatchSha256 : Str
  evalPatchSha256 : Str
  baseRunDir : Str
  deriving DecidableEq

/-- `RecoveryAttempt`. -/
structure RecoveryAttempt where
  index : Int
  ordinal : Int
  mode : RecoveryMode
  runId : Str
  baseRunDir : Str
  outputDir : PosixPath
  parentReport : PosixPath
  parentReportSha256 : Str
  maxEvalAttempts : Int
  candidate : Option CandidateBinding
  deriving DecidableEq

/-- What the planner reads of the configuration of the queue. -/
structure QueueConfig where
  runId : Str
  outputDir : PosixPath
  remoteBase : Str

/-- `v or w`. -/
def orElse (v w : Json) : Json := if v.truthy then v else w

/-- `_one_row(result)`. -/
def oneRow (result : Obj) : Option Obj :=
  match result.get "rows" with
  | .list [row] => row.asDict
  | _ => none

/-- The generation of a row, empty when it is no dict. -/
def rowGeneration (row : Obj) : Obj := (Json.asDict (row.get "generation")).getD []

section Candidate

variable (env : Env) (decimal : Nat → Option Nat) (patchBudget : Int)

/-- The digest of the source patch that a generation reports. -/
def sourcePatchSha (generation : Obj) : Str :=
  env.strOrEmpty (orElse (generation.get "source_patch_sha256") (generation.get "patch_sha256"))

/-- The digest of the evaluated patch that a generation reports. -/
def evalPatchSha (generation : Obj) : Str :=
  env.strOrEmpty (orElse (generation.get "eval_patch_sha256") (generation.get "patch_sha256"))

/-- A digest that is well formed and not that of the empty patch. -/
def nonemptyPatchSha (digest : Str) : Bool := digest != env.sha256 [] && isLowerSha256 digest

/-- `_candidate_fields_present(generation)`. -/
def candidateFieldsPresent (generation : Obj) : Except PyErr Bool :=
  match (orElse (generation.get "patch_len") (.int 0)).toInt decimal with
  | .error .typeError | .error .valueError => .ok false
  | .error e => .error e
  | .ok patchLen => .ok (decide (0 < patchLen) && nonemptyPatchSha env (sourcePatchSha env generation) &&
      nonemptyPatchSha env (evalPatchSha env generation))

/-- The base run directory of a result, or of its summary. -/
def candidateBaseRunDir (result : Obj) : Str :=
  let direct := Str.strip
    (env.strOrEmpty (orElse (result.get "base_run_dir") (result.get "summary_base_run_dir")))
  if !direct.isEmpty then direct
  else
    match result.get "summary" with
    | .dict report => Str.strip (env.strOrEmpty (Obj.get report "base_run_dir"))
    | _ => direct

/-- The binding that the fields of a row give, proven or not. -/
def candidateBinding (result row : Obj) : CandidateBinding where
  task := Str.strip (env.strOrEmpty (orElse (row.get "task") ((rowGeneration row).get "task")))
  recordId := Str.strip (env.strOrEmpty ((rowGeneration row).get "record_id"))
  sourcePatchSha256 := sourcePatchSha env (rowGeneration row)
  evalPatchSha256 := evalPatchSha env (rowGeneration row)
  baseRunDir := candidateBaseRunDir env result

/-- `candidate_binding_from_result(result)`. -/
def candidateBindingFromResult (result : Obj) : Except PyErr (Option CandidateBinding) := do
  let some row := oneRow result | return none
  let generation := rowGeneration row
  let binding := candidateBinding env result row
  if !((generation.get "status").eqStr "generation_done" &&
      (generation.get "submission_integrity").eqStr "proven" &&
      (generation.get "execution_quiesced").isTrue) then return none
  if !(← currentGenerationSummaryProofValid patchBudget generation) then return none
  if binding.task.isEmpty || binding.recordId.isEmpty || binding.baseRunDir.isEmpty then return none
  if !(← candidateFieldsPresent env decimal generation) then return none
  return some binding

/-- `result_has_nonempty_candidate_evidence(result)`. -/
def resultHasNonemptyCandidateEvidence (result : Obj) : Except PyErr Bool :=
  match oneRow result with
  | none => .ok false
  | some row => candidateFieldsPresent env decimal (rowGeneration row)

/-- `recovery_block_reason(result)`. -/
def recoveryBlockReason (result : Obj) : Except PyErr Str := do
  if (← (orElse (result.get "technical_failed") (.int 0)).toInt decimal) = 0 then
    return "not_technical"
  let scope := env.strOrEmpty (result.get "failure_scope")
  let probe := (Json.asDict (result.get "failure_probe")).getD []
  if scope == lit "shared_infrastructure" && (Obj.get probe "direct").isTrue &&
      (Obj.get probe "status").eqStr "failed" then return "shared_infrastructure"
  if scope == lit "image" then return "image_scope"
  if ← resultHasNonemptyCandidateEvidence env decimal result then
    if (← candidateBindingFromResult env decimal patchBudget result).isNone then
      return "candidate_identity_unproven"
  return []

end Candidate

section Plan

/-- The evaluation attempts of a recovery: one more than so far, and at most two. -/
def recoveryEvalAttempts (decimal : Nat → Option Nat) (result : Obj)
    (candidate : Option CandidateBinding) : Except PyErr Int :=
  if candidate.isSome then do
    let attempts ← (orElse (result.get "eval_attempts") (.int 0)).toInt decimal
    return min 2 (max 0 attempts + 1)
  else return 1

variable (env : Env) (decimal : Nat → Option Nat) (patchBudget : Int)
variable (readReport : PosixPath → Option (List Nat)) (config : QueueConfig)

/-- `_regular_sha256(path)`; a report that cannot be read has no digest. -/
def regularSha256 (path : PosixPath) : Str :=
  match readReport path with
  | some payload => env.sha256 payload
  | none => []

/-- The attempt for a result that is not blocked. -/
def recoveryAttempt (result : Obj) (ordinal index : Int) (candidate : Option CandidateBinding)
    (maxEvalAttempts : Int) : RecoveryAttempt :=
  let mode := if candidate.isSome then RecoveryMode.evalOnly else .generation
  let parentReport := PosixPath.ofStr (env.strOrEmpty (result.get "json_report"))
  { index, ordinal, mode, candidate, maxEvalAttempts, parentReport
    runId := config.runId ++ lit "_task" ++ intStr index ++ lit "_technical_" ++ mode.text ++
      lit "_" ++ intStr ordinal
    baseRunDir := config.remoteBase ++ lit "/_technical_recovery/task_" ++ intStr index ++ lit "/" ++
      mode.text ++ lit "_" ++ intStr ordinal
    outputDir := { config.outputDir with
      components := config.outputDir.components ++ [lit "technical_recovery",
        lit "task_" ++ intStr index, lit "attempt_" ++ intStr ordinal ++ lit "_" ++ mode.text] }
    parentReportSha256 := regularSha256 env readReport parentReport }

/-- `plan_recovery_attempt(config, result, ordinal)`. -/
def planRecoveryAttempt (result : Obj) (ordinal : Int) : Except PyErr (Option RecoveryAttempt) := do
  if !(← recoveryBlockReason env decimal patchBudget result).isEmpty then return none
  let index ← (← result.index "index").toInt decimal
  let candidate ← candidateBindingFromResult env decimal patchBudget result
  let maxEvalAttempts ← recoveryEvalAttempts decimal result candidate
  return some (recoveryAttempt env readReport config result ordinal index candidate maxEvalAttempts)

end Plan

end OpenCollabEval
