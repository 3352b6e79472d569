import OpenCollabEval.Evaluation.Outcome
import OpenCollabEval.Evaluation.Projection
import OpenCollabEval.Evaluation.RuntimeDependencies

/-!
# Execution proof of a finished evaluation

The report reader: whether a written evaluation report proves that its candidate was executed, and
with which result. It classifies the evidence of each test group on its own, apart from the
evaluator that derived the verdict.
-/

open Python

namespace OpenCollabEval

/-- The declared-target outcome of one batch, `none` for invalid evidence. -/
def targetEvidencePassed (item : Obj) (allowSkipped : Bool) : Option Bool :=
  match targetEvidenceOutcome item with
  | .passed => some true
  | .skipped => some allowSkipped
  | .candidateFailed => some false
  | .unknown => none

/-- What the reader gathers from the evidence of one group. -/
structure GroupEvidence where
  statuses : List Int
  outcomes : List Bool
  hasUnknownBatches : Bool

/-- Gather the evidence of one group, `none` when an item is no dict or has no exit status. -/
def gatherEvidence (allowSkipped : Bool) : List Json → Option GroupEvidence
  | [] => some ⟨[], [], false⟩
  | .dict item :: rest => do
    let status ← (Obj.get item "status").asInt
    let group ← gatherEvidence allowSkipped rest
    let checked := (Obj.get item "command_matches_plan").isTrue &&
      (Obj.get item "log_artifact_safe").isTrue && (Obj.get item "artifact_safe").isTrue
    match if checked then targetEvidencePassed item allowSkipped else none with
    | some outcome => some { group with
        statuses := status :: group.statuses, outcomes := outcome :: group.outcomes }
    | none => some { group with statuses := status :: group.statuses, hasUnknownBatches := true }
  | _ :: _ => none

/-- The result of one group: 0 passed, 1 failed, `none` unproved. -/
def groupStatus (reported : Json) (group : GroupEvidence) : Option Int := do
  let reported ← reported.asInt
  if group.hasUnknownBatches then
    if group.outcomes.isEmpty || group.outcomes.all id then none else some 1
  else if reported != (group.statuses.find? (· != 0)).getD 0 then none
  else some (if group.outcomes.all id then 0 else 1)

section Reader

variable (env : Env)

/-- The result that the report proves for one group of its tests. -/
def directEvalPlanStatus (testsStatus : Obj) (group : Str) (expectedPlan : Option Json)
    (requireCommands : Bool) : Except PyErr (Option Int) := do
  let some plan := (testsStatus.get (group ++ lit "_plan")).asDict | return none
  let some evidence := (testsStatus.get (group ++ lit "_evidence")).asList | return none
  if (← validatedTestPlanKind env (.dict plan) requireCommands).isNone then return none
  if expectedPlan.any fun expected => !(Json.dict plan).pyEq expected then return none
  let some commands := (Obj.get plan "commands").asList | return none
  if evidence.length != commands.length || (requireCommands && commands.isEmpty) then return none
  if !commands.isEmpty && !(Obj.get plan "coverage_verified").isTrue then return none
  let skipAllowed := (Obj.getOr testsStatus "pass_to_pass_skips_allowed" (.bool false)).isTrue
  let allowSkipped := group == lit "pass_to_pass" && skipAllowed
  let some gathered := gatherEvidence allowSkipped evidence | return none
  return groupStatus (testsStatus.get (group ++ lit "_status")) gathered

/-- The verdict fields of a report, before its identity is looked at. -/
def verdictFieldsValid (payload : Obj) : Bool :=
  (payload.get "schema").eqStr "opencollab.prolite_direct_eval.v2" &&
    (payload.get "status").eqStr "done" && (payload.get "resolved" matches .bool _) &&
    (payload.get "technical_reasons").pyEq (.list []) &&
    (payload.get "output_artifact_errors").pyEq (.list []) &&
    !(payload.get "docker_exit" matches .bool _) && (payload.get "docker_exit").eqInt 0 &&
    (payload.get "cleanup_quiesced").isTrue && (payload.get "container_cleanup").asDict.isSome

/-- The digests of the evaluation specification and of the evaluated patch. -/
def specIdentityValid (payload : Obj) (expectedEvalSpec : Str) (requireEvalImageId : Bool) : Bool :=
  (canonicalSha256 (payload.get "eval_spec_sha256")).isSome &&
    (canonicalSha256 (payload.get "eval_patch_sha256")).isSome &&
    (expectedEvalSpec.isEmpty ||
      sha256Equal (payload.get "eval_spec_sha256") (.str expectedEvalSpec)) &&
    (!requireEvalImageId || isImageDigest (env.strOrEmpty (payload.get "eval_image_id")))

/-- One operational warning, of bounded length. -/
def isShortText (item : Json) : Bool :=
  match item.asStr with
  | some text => text.length ≤ 512
  | none => false

/-- The warnings of a report. A container that was not removed has to be among them. -/
def warningsValid (payload : Obj) : Bool :=
  match (Obj.getOr payload "operational_warnings" (.list [])).asList with
  | some warnings =>
    warnings.all isShortText &&
      match (payload.get "container_cleanup").asDict with
      | some cleanup => (Obj.get cleanup "ok").isTrue ||
          (lit "container_removal_failed_after_stop" : Json).elem warnings
      | none => false
  | none => false

/-- A copy of the source patch digest agrees with the public one. -/
def sourcePatchAgrees (publicPatchSha : Str) (projection : Json) : Bool :=
  match projection with
  | .dict projection =>
    let copy := Obj.get projection "source_patch_sha256"
    isAbsent copy || sha256Equal copy (.str publicPatchSha)
  | _ => true

/-- The task and the patch digests of a payload agree with the immutable expectation. -/
def taskIdentityValid (payload expectation : Obj) : Bool :=
  match directPayloadTaskId (.dict payload), directPayloadPatchSha (.dict payload) with
  | some task, some publicPatchSha =>
    let sourceSha := expectation.get "source_patch_sha256"
    let evalSha := expectation.get "eval_patch_sha256"
    task == textOf env expectation "instance_id" &&
      (publicPatchSha.isEmpty ||
        sha256Equal (.str publicPatchSha) sourceSha &&
        [payload.get "candidate_projection", payload.get "source_candidate_projection",
          payload.get "candidate_projection_failure"].all (sourcePatchAgrees publicPatchSha)) &&
      (isAbsent (payload.get "source_patch_sha256") ||
        sha256Equal (payload.get "source_patch_sha256") sourceSha) &&
      (isAbsent (payload.get "eval_patch_sha256") ||
        sha256Equal (payload.get "eval_patch_sha256") evalSha)
  | _, _ => false

/-- The task of a payload, empty when its aliases disagree. -/
def payloadTask (payload : Obj) : Str := (directPayloadTaskId (.dict payload)).getD []

/-- A projection names the task, record and evaluated patch of its payload. -/
def bindsPayload (projection payload : Obj) : Bool :=
  (projection.get "instance_id").eqStr (payloadTask payload) &&
    (projection.get "record_id").pyEq (payload.get "record_id") &&
    sha256Equal (projection.get "eval_patch_sha256") (payload.get "eval_patch_sha256")

/-- The base commit and tree that a projection failure has to name. -/
def failureBase (payload failure : Obj) : Str × Str :=
  let snapshot := payload.get "base_snapshot_integrity"
  let source := (failure.get "phase").eqStr "source"
  let base := if source then
      match snapshot with
      | .dict entries => Obj.get entries "preparation_input_snapshot"
      | _ => .null
    else snapshot
  match base with
  | .dict base =>
    (textOf env base (if source then "expected_base_commit" else "anonymous_head"),
      textOf env base "base_tree")
  | _ => ([], [])

/-- The report proves that the candidate was rejected before it was tested. -/
def candidateRejected (payload expectation : Obj) : Except PyErr Bool :=
  match payload.get "candidate_projection_failure" with
  | .dict failure =>
    if !candidateRejectionIsConclusive (.dict failure) then .ok false
    else do
      let base := failureBase env payload failure
      return (← candidateProjectionFailureValid env (.dict failure) (.dict expectation)
        (payload.get "source_candidate_projection") base.1 base.2) && bindsPayload failure payload
  | _ => .ok false

/-- The statuses of the steps before the candidate patch. -/
def baseStatusFields : List Str :=
  ["base_commit_status", "before_repo_status", "post_before_base_status"]

/-- The statuses of every step before the tests. -/
def preparationStatusFields : List Str :=
  ["base_commit_status", "service_bootstrap_status", "before_repo_status",
    "post_before_base_status", "model_patch_status", "test_patch_status"]

/-- The verdict of a rejected candidate. -/
def rejectionReported (payload testsStatus : Obj) : Bool :=
  (payload.get "resolved").isFalse &&
    (Obj.getOr payload "outcome" "unresolved").eqStr "unresolved" &&
    (Obj.getOr payload "outcome_basis" (Json.strs ["candidate_patch_could_not_be_applied"])).pyEq
      (Json.strs ["candidate_patch_could_not_be_applied"]) &&
    !(payload.get "candidate_projection").truthy &&
    baseStatusFields.all (fun field => (testsStatus.get field).eqInt 0) &&
    match (testsStatus.get "model_patch_status").asInt with
    | some status => status != 0
    | none => false

/-- The verdict of a tested candidate agrees with the results of both groups. -/
def verdictReported (payload : Obj) (resolved : Bool) : Bool :=
  let outcome : Str := if resolved then "resolved" else "unresolved"
  (if resolved then (payload.get "resolved").isTrue else (payload.get "resolved").isFalse) &&
    (Obj.getOr payload "outcome" (.str outcome)).eqStr outcome

/-- The candidate of a payload was applied to the verified tree. -/
def projectionAccepted (payload expectation : Obj) : Bool :=
  match payload.get "candidate_projection" with
  | .dict projection =>
    bindsPayload projection payload && candidateProjectionValid env (.dict projection)
      (.dict expectation) (payload.get "source_candidate_projection")
  | _ => false

/-- What a reader expects of a report beyond what the report says of itself. -/
structure ExpectedReport where
  evalSpecSha256 : Str
  f2pPlan : Option Json
  p2pPlan : Option Json
  requireEvalImageId : Bool

/-- The tested part of the proof: both groups have a result, and the report states it. -/
def testedProof (payload testsStatus : Obj) (expected : ExpectedReport) : Except PyErr Bool := do
  let f2p ← directEvalPlanStatus env testsStatus "fail_to_pass" expected.f2pPlan true
  let p2p ← directEvalPlanStatus env testsStatus "pass_to_pass" expected.p2pPlan false
  match f2p, p2p with
  | some f2p, some p2p =>
    if !(← runtimeFileDependencyProof env payload testsStatus expected.f2pPlan expected.p2pPlan)
      then return false
    return verdictReported payload (f2p == 0 && p2p == 0)
  | _, _ => return false

/-- Validate the common direct-evaluation execution proof. -/
def directEvalDoneHasExecutionProof (payload : Obj) (expected : ExpectedReport) :
    Except PyErr Bool := do
  if !verdictFieldsValid payload ||
      !specIdentityValid env payload expected.evalSpecSha256 expected.requireEvalImageId ||
      !warningsValid payload then return false
  let some expectation := (payload.get "candidate_expectation").asDict | return false
  let some testsStatus := (payload.get "tests_status").asDict | return false
  if !taskIdentityValid env payload expectation then return false
  if ← candidateRejected env payload expectation then
    return rejectionReported payload testsStatus
  if !projectionAccepted env payload expectation then return false
  if preparationStatusFields.any fun field => (Obj.get testsStatus field).asInt != some 0 then
    return false
  testedProof env payload testsStatus expected

end Reader

end OpenCollabEval
