import OpenCollabEval.Evaluation.ExecutionProof
import OpenCollabEval.Evaluation.Verdict

/-!
# Evaluation reports

The report document that the evaluator writes for a finished run, with the test status it was
derived from.
-/

open Python

namespace OpenCollabEval

/-- The identities and plans under which one candidate was evaluated. -/
structure EvalContext where
  task : Str
  recordId : Str
  patchSha256 : Str
  evalSpecSha256 : Str
  sourcePatchSha256 : Json
  evalPatchSha256 : Json
  filteredPatchPaths : Json
  gitlinkProbe : Json
  evalImageId : Json
  candidateExpectation : Json
  runtimeDependencyIdentities : Json
  modelPatchChars : Int
  evalModelPatchChars : Int
  failToPass : Json
  passToPass : Json
  f2pPlan : Obj
  p2pPlan : Obj
  scoringAdapterReceipt : Json

section Written

variable (context : EvalContext) (artifacts : ArtifactSnapshot) (run : RunCompletion)
  (verdict : EvalVerdict)

/-- The evidence of one group as it is written. -/
def evidenceDocument (evidence : List Obj) : Json := .list (evidence.map .dict)

/-- The `tests_status` document of a report. -/
def testsStatusDocument : Obj := .of
  [("pass_to_pass_skips_allowed", .bool verdict.passToPassSkipsAllowed),
    ("base_commit_status", .int artifacts.baseCommitStatus),
    ("service_bootstrap_status", .int artifacts.serviceStatus),
    ("before_repo_status", .int artifacts.beforeStatus),
    ("post_before_base_status", .int artifacts.postBeforeBaseStatus),
    ("model_patch_status", .int artifacts.modelStatus),
    ("test_patch_status", .int artifacts.testStatus),
    ("fail_to_pass_status", .int artifacts.f2pStatus),
    ("pass_to_pass_status", .int artifacts.p2pStatus),
    ("fail_to_pass", context.failToPass),
    ("pass_to_pass", context.passToPass),
    ("fail_to_pass_plan", .dict context.f2pPlan),
    ("pass_to_pass_plan", .dict context.p2pPlan),
    ("fail_to_pass_evidence", evidenceDocument artifacts.f2pEvidence),
    ("pass_to_pass_evidence", evidenceDocument artifacts.p2pEvidence),
    ("f2p_command", .str artifacts.f2pCommand),
    ("p2p_command", .str artifacts.p2pCommand),
    ("base_commit_log_tail", .str artifacts.baseCommitLogTail),
    ("before_repo_log_tail", .str artifacts.beforeRepoLogTail),
    ("service_bootstrap_log_tail", .str artifacts.serviceBootstrapLogTail),
    ("f2p_log_tail", .str artifacts.f2pLogTail),
    ("p2p_log_tail", .str artifacts.p2pLogTail),
    ("model_patch_log_tail", .str artifacts.modelPatchLogTail),
    ("test_patch_log_tail", .str artifacts.testPatchLogTail)]

/-- The report of one task. -/
def evalReport : Obj := .of
  [("schema", "opencollab.prolite_direct_eval.v2"),
    ("status", .str verdict.summaryStatus),
    ("instance_id", .str context.task),
    ("resolved", .bool verdict.resolved),
    ("outcome", .str verdict.outcome.value),
    ("outcome_basis", Json.strs verdict.outcomeBasis),
    ("operational_warnings", Json.strs verdict.operationalWarnings),
    ("patch_successfully_applied", .bool (artifacts.modelStatus == 0)),
    ("error", .bool verdict.technicalError),
    ("technical_reasons", Json.strs verdict.technicalReasons),
    ("output_artifact_errors", Json.strs verdict.outputArtifactErrors),
    ("diagnostic_artifact_errors", Json.strs artifacts.diagnosticArtifactErrors),
    ("docker_exit", .int run.dockerExit),
    ("cleanup_quiesced", .bool run.cleanupQuiesced),
    ("container_cleanup", .dict run.containerCleanup),
    ("patch_sha256", .str context.patchSha256),
    ("base_snapshot_integrity", artifacts.baseSnapshot),
    ("candidate_projection_failure", artifacts.candidateProjectionFailure),
    ("candidate_projection", artifacts.candidateProjection),
    ("source_candidate_projection", artifacts.sourceCandidateProjection),
    ("runtime_dependencies", artifacts.runtimeDependencies),
    ("runtime_dependency_identities", context.runtimeDependencyIdentities),
    ("source_patch_sha256", context.sourcePatchSha256),
    ("eval_patch_sha256", context.evalPatchSha256),
    ("filtered_patch_paths", context.filteredPatchPaths),
    ("gitlink_probe", context.gitlinkProbe),
    ("eval_image_id", context.evalImageId),
    ("candidate_expectation", context.candidateExpectation),
    ("record_id", .str context.recordId),
    ("eval_spec_sha256", .str context.evalSpecSha256),
    ("model_patch_chars", .int context.modelPatchChars),
    ("eval_model_patch_chars", .int context.evalModelPatchChars),
    ("tests_status", .dict (testsStatusDocument context artifacts verdict)),
    ("scoring_adapter", context.scoringAdapterReceipt)]

end Written

end OpenCollabEval
