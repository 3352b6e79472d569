import OpenCollabEval.Evaluation.ExecutionProof
import OpenCollabEval.Evaluation.GenerationProof

/-!
# Attempt integrity

A row of a report counts as an attempt when its generation and its evaluation name the same
candidate and both are proven. What speaks against it is collected as reasons.
-/

open Python

namespace OpenCollabEval

/-- `AttemptIntegrity`. -/
structure AttemptIntegrity where
  recordId : Str
  patchSha256 : Str
  evalPatchSha256 : Str
  filteredPatchPaths : List Str
  directExecutionProven : Bool
  reasons : List Str

/-- `_mapping`. -/
def mapping (value : Json) : Obj := value.asDict.getD []

/-- The reasons that apply, each once. -/
def appliedReasons (checks : List (Bool × Str)) : List Str :=
  ((checks.filter (·.1)).map (·.2)).eraseDups

/-- `_filtered_paths`. -/
def filteredPaths (value : Json) : Option (List Str) := do
  let items ← value.asList
  let paths ← Json.asStrs items
  if paths.any List.isEmpty || !decide paths.Nodup then failure
  return paths

section Integrity

variable (env : Env)

/-- `_full_sha`. -/
def fullSha (value : Json) : Str :=
  let text := env.strOrEmpty value
  if isSha256 text then lowerHex text else []

/-- `EMPTY_PATCH_SHA256`. -/
def emptyPatchSha256 : Str := env.sha256 []

/-- The fields that prove an empty patch, with their values. -/
def emptyPatchIntegrityFields : List (String × Bool) :=
  [("submission_eligible", false), ("execution_quiesced", true),
    ("patch_extraction_succeeded", true), ("injected_path_cleanup_proven", true),
    ("harness_artifact_exclusion_proven", true), ("checkpoint_restore_integrity_proven", true),
    ("task_stage_integrity_proven", true), ("test_patch_isolation_failed", false),
    ("worktree_integrity_proven", true), ("patch_produced", false)]

/-- `_empty_patch_integrity`. -/
def emptyPatchIntegrity (patchBudget : Int) (row : Obj) (task : Str) :
    Except PyErr AttemptIntegrity := do
  let generation := mapping (row.get "generation")
  let evaluation := mapping (row.get "eval")
  let recordId := env.strOrEmpty (generation.get "record_id")
  let patchSha := fullSha env (generation.get "patch_sha256")
  let proven ← currentGenerationSummaryProofValid patchBudget generation
  let noBytes := (Obj.get (mapping (generation.get "trusted_patch_extraction"))
    "patch_bytes").eqInt 0
  let summaryEmpty := match evaluation.get "summary" with
    | .null => true
    | .dict entries => entries.isEmpty
    | _ => false
  let reasons := appliedReasons <|
    [(!(generation.get "status").eqStr "empty_patch", lit "empty_patch_generation_status_invalid"),
      (!countIs generation "patch_len" 0, lit "empty_patch_length_invalid"),
      (payloadTask generation != task, lit "generation_task_mismatch"),
      (recordId.isEmpty, lit "missing_generation_record_id"),
      (patchSha != emptyPatchSha256 env, lit "empty_patch_sha256_invalid"),
      (!(generation.get "workflow_status").eqStr "empty_patch_after_done",
        lit "empty_patch_workflow_status_invalid"),
      (!(generation.get "submission_integrity").eqStr "empty_patch_proven",
        lit "empty_patch_integrity_unproven")] ++
    (emptyPatchIntegrityFields.map fun field =>
      (!(if field.2 then (generation.get field.1).isTrue else (generation.get field.1).isFalse),
        lit "empty_patch_integrity_field_invalid:" ++ lit field.1)) ++
    [(!proven || !noBytes, lit "missing_trusted_empty_patch_proof"),
      (payloadTask evaluation != task, lit "evaluation_task_mismatch"),
      (!(evaluation.get "status").eqStr "skipped_empty_patch",
        lit "empty_patch_eval_status_invalid"),
      (!summaryEmpty, lit "empty_patch_eval_summary_not_empty"),
      ((evaluation.get "executed").isTrue, lit "empty_patch_eval_execution_conflict"),
      (evaluation.has "attempt_count" && !countIs evaluation "attempt_count" 0,
        lit "empty_patch_eval_attempt_count_invalid")]
  return ⟨recordId, patchSha, [], [], false, reasons⟩

/-- What speaks against the generation of a row. -/
def generationChecks (generation : Obj) (task : Str) (proven : Bool) : List (Bool × Str) :=
  let status := env.strOrEmpty (generation.get "status")
  let patchSha := fullSha env (generation.get "patch_sha256")
  let extraction := mapping (generation.get "trusted_patch_extraction")
  [(status != lit "generation_done", if status.isEmpty then lit "missing_generation_status"
      else lit "unexpected_generation_status:" ++ status),
    (payloadTask generation != task, lit "generation_task_mismatch"),
    ((env.strOrEmpty (generation.get "record_id")).isEmpty, lit "missing_generation_record_id"),
    (patchSha.isEmpty, lit "invalid_generation_patch_sha256"),
    (patchSha == emptyPatchSha256 env || (extraction.get "patch_bytes").eqInt 0,
      lit "undeclared_empty_patch"),
    (!proven, lit "missing_trusted_generation_proof")]

/-- What speaks against the summary of an evaluation, beside its generation. -/
def summaryChecks (generation summary : Obj) (task : Str) : List (Bool × Str) :=
  let recordId := env.strOrEmpty (generation.get "record_id")
  let summaryRecordId := env.strOrEmpty (summary.get "record_id")
  let patchSha := fullSha env (generation.get "patch_sha256")
  let summarySha := fullSha env (summary.get "patch_sha256")
  let evalSha := fullSha env (generation.get "eval_patch_sha256")
  let summaryEvalSha := fullSha env (summary.get "eval_patch_sha256")
  let paths := filteredPaths (generation.get "filtered_patch_paths")
  let summaryPaths := filteredPaths (summary.get "filtered_patch_paths")
  [(payloadTask summary != task, lit "eval_summary_task_mismatch"),
    (summaryRecordId.isEmpty, lit "missing_eval_record_id"),
    (!summaryRecordId.isEmpty && !recordId.isEmpty && summaryRecordId != recordId,
      lit "eval_record_id_mismatch"),
    (summarySha.isEmpty, lit "invalid_eval_source_patch_sha256"),
    (!summarySha.isEmpty && !patchSha.isEmpty && summarySha != patchSha,
      lit "eval_source_patch_sha256_mismatch"),
    (evalSha.isEmpty, lit "invalid_generation_eval_patch_sha256"),
    (summaryEvalSha.isEmpty, lit "invalid_eval_patch_sha256"),
    (!summaryEvalSha.isEmpty && !evalSha.isEmpty && summaryEvalSha != evalSha,
      lit "eval_patch_sha256_mismatch"),
    (paths.isNone, lit "invalid_generation_filtered_patch_paths"),
    (summaryPaths.isNone, lit "invalid_eval_filtered_patch_paths"),
    (paths.isSome && summaryPaths.isSome && summaryPaths != paths,
      lit "filtered_patch_paths_mismatch")]

/-- The statuses of an evaluation that was recorded. -/
def recordedEvalStatuses : List Str := lits
  ["eval_done", "technical_eval_failed", "empty_eval_patch_invalid", "blocked_missing_eval_spec"]

/-- `attempt_integrity`; `patchBudget` is `MAX_TRUSTED_PATCH_BYTES`. -/
def attemptIntegrity (patchBudget : Int) (row : Obj) (task : Str) :
    Except PyErr AttemptIntegrity := do
  let generation := mapping (row.get "generation")
  let evaluation := mapping (row.get "eval")
  let generationStatus := env.strOrEmpty (generation.get "status")
  let evalStatus := env.strOrEmpty (evaluation.get "status")
  if generationStatus == lit "would_generate" && evalStatus == lit "would_eval" then
    return ⟨[], [], [], [], false, []⟩
  if generationStatus == lit "empty_patch" || evalStatus == lit "skipped_empty_patch" then
    return ← emptyPatchIntegrity env patchBudget row task
  let summary := mapping (evaluation.get "summary")
  let generationProven ← currentGenerationSummaryProofValid patchBudget generation
  let proven ← if evalStatus == lit "eval_done" then
    directEvalDoneHasExecutionProof env summary ⟨[], none, none, true⟩ else pure false
  let recorded := !summary.isEmpty || recordedEvalStatuses.contains evalStatus
  let reasons := appliedReasons <| generationChecks env generation task generationProven ++
    [(!evaluation.isEmpty && payloadTask evaluation != task, lit "evaluation_task_mismatch")] ++
    (if recorded then summaryChecks env generation summary task else []) ++
    [(evalStatus == lit "eval_done" && !proven, lit "missing_direct_execution_proof"),
      (evalStatus == lit "technical_eval_failed" && (summary.get "resolved").isTrue,
        lit "technical_resolved_conflict")]
  let firstSha (first second : Str) : Str := if first.isEmpty then second else first
  let paths := (filteredPaths (generation.get "filtered_patch_paths")).getD []
  return {
    recordId := env.strOrEmpty (generation.get "record_id")
    patchSha256 := firstSha (fullSha env (generation.get "patch_sha256"))
      (fullSha env (summary.get "patch_sha256"))
    evalPatchSha256 := firstSha (fullSha env (generation.get "eval_patch_sha256"))
      (fullSha env (summary.get "eval_patch_sha256"))
    filteredPatchPaths := if paths.isEmpty
      then (filteredPaths (summary.get "filtered_patch_paths")).getD [] else paths
    directExecutionProven := proven
    reasons }

end Integrity

end OpenCollabEval
