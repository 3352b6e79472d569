import OpenCollabEval.Evaluation.Outcome
import OpenCollabEval.Evaluation.Projection
import OpenCollabEval.Python.Regex

/-!
# Verdict derivation

How the artifact snapshot of a finished run becomes a verdict. A run whose prerequisites hold is
decided by its evidence, or by a rejection of the candidate patch; in both cases the artifact errors
that the decision explains are set aside.

`deriveEvalVerdict_exact` reads the two conclusive verdicts off the snapshot; every other run is a
technical failure.
-/

open Python

namespace OpenCollabEval

/-- Every verdict-relevant artifact of one run, as the artifact reader returns it. -/
structure ArtifactSnapshot where
  outputArtifactErrors : List Str
  baseCommitStatus : Int
  baseSnapshot : Json
  candidateProjectionFailure : Json
  candidateProjection : Json
  sourceCandidateProjection : Json
  runtimeDependencies : Json
  serviceStatus : Int
  beforeStatus : Int
  postBeforeBaseStatus : Int
  modelStatus : Int
  testStatus : Int
  f2pStatus : Int
  p2pStatus : Int
  f2pLogTail : Str
  p2pLogTail : Str
  f2pEvidence : List Obj
  p2pEvidence : List Obj
  f2pExecutionEvidenceComplete : Bool
  p2pExecutionEvidenceComplete : Bool
  f2pCommand : Str
  p2pCommand : Str
  diagnosticArtifactErrors : List Str
  operationalWarnings : List Str
  serviceBootstrapLogTail : Str
  baseCommitLogTail : Str
  beforeRepoLogTail : Str
  modelPatchLogTail : Str
  testPatchLogTail : Str

/-- How the evaluation container ended, and the skip rule of the row. -/
structure RunCompletion where
  dockerExit : Int
  cleanupQuiesced : Bool
  containerCleanup : Obj
  passToPassSkipsAllowed : Bool

/-- The class `[A-Za-z0-9_.-]`. -/
def isProofNonceChar (c : Nat) : Bool :=
  Str.isAsciiAlnum c || c == 95 || c == 46 || c == 45

/-- `missing:(?:f2p|p2p)\.batch_[0-9]{3}\.(?:command|exit|log|proof\.[A-Za-z0-9_.-]+\.jsonl)`. -/
def missingBatchArtifactRe : Regex :=
  .concat [.lit "missing:", .oneOf [.lit "f2p", .lit "p2p"], .lit ".batch_",
    .exactly 3 (.chars Str.isDigit), .lit ".",
    .oneOf [.lit "command", .lit "exit", .lit "log",
      .concat [.lit "proof.", .plus (.chars isProofNonceChar), .lit ".jsonl"]]]

/-- Artifacts a batch leaves out when it did not run. -/
def unrunTestArtifactRe : Regex := missingBatchArtifactRe

/-- Artifacts that are absent after the candidate patch was rejected. -/
def expectedCandidateRejectionArtifactRe : Regex :=
  .oneOf [.lit "missing:runtime_dependencies.json",
    .concat [.lit "unsafe:",
      .oneOf [.lit "service_bootstrap", .lit "test_patch", .lit "f2p", .lit "p2p"],
      .lit ".log:FileNotFoundError"],
    missingBatchArtifactRe]

section Derivation

variable (artifacts : ArtifactSnapshot) (run : RunCompletion)

/-- The outcomes of the snapshot's evidence. -/
def targetOutcomes : List TargetOutcome :=
  groupedTargetOutcomes artifacts.f2pEvidence artifacts.p2pEvidence run.passToPassSkipsAllowed

/-- Some batch was proved to fail or to be skipped. -/
def conclusiveCandidateFailure : Bool :=
  (targetOutcomes artifacts run).any TargetOutcome.isConclusiveFailure

/-- The patch could not be applied to the verified source tree. -/
def candidateApplicationFailed : Bool :=
  artifacts.modelStatus != 0 &&
    candidateRejectionIsConclusive artifacts.candidateProjectionFailure &&
    artifacts.baseCommitStatus == 0 && artifacts.baseSnapshot.truthy &&
    artifacts.beforeStatus == 0 && artifacts.postBeforeBaseStatus == 0 &&
    run.dockerExit == 0 && run.cleanupQuiesced

/-- An artifact error that the semantic evidence explains. -/
def ignoredArtifactError (error : Str) : Bool :=
  (candidateApplicationFailed artifacts run &&
      expectedCandidateRejectionArtifactRe.fullmatch error) ||
    (conclusiveCandidateFailure artifacts run && unrunTestArtifactRe.fullmatch error)

/-- The artifact errors that remain. -/
def outputErrors : List Str :=
  artifacts.outputArtifactErrors.filter fun error => !ignoredArtifactError artifacts run error

/-- The container ended cleanly, whether or not it could be removed. -/
def containerStopped : Bool := run.dockerExit == 0 && run.cleanupQuiesced

/-- The prerequisites of a verdict, each with whether it is violated. -/
def reasonChecks : List (Str × Bool) :=
  let applicationFailed := candidateApplicationFailed artifacts run
  [("unsafe_or_missing_output_artifact", !(outputErrors artifacts run).isEmpty),
    ("docker_exit", run.dockerExit != 0),
    ("process_cleanup", !run.cleanupQuiesced),
    ("container_cleanup", !(run.containerCleanup.get "ok").truthy && !containerStopped run),
    ("base_commit", artifacts.baseCommitStatus != 0),
    ("base_snapshot_integrity", !artifacts.baseSnapshot.truthy),
    ("candidate_projection", !artifacts.candidateProjection.truthy && !applicationFailed),
    ("service_bootstrap", artifacts.serviceStatus != 0 && !applicationFailed),
    ("before_repo", artifacts.beforeStatus != 0),
    ("post_before_base_commit", artifacts.postBeforeBaseStatus != 0),
    ("model_patch", artifacts.modelStatus != 0 && !applicationFailed),
    ("test_patch", artifacts.testStatus != 0 && !applicationFailed)]

/-- The names of the violated prerequisites. -/
def prerequisiteReasons : List Str :=
  (reasonChecks artifacts run).filterMap fun (reason, active) =>
    if active then some reason else none

/-- The first nonzero batch status, zero if there is none. -/
def aggregateStatus : List Obj → Except PyErr Json
  | [] => .ok (.int 0)
  | item :: rest => do
    let status ← item.index "status"
    if status.eqInt 0 then aggregateStatus rest else return status

/-- The aggregate status of a group disagrees with its evidence. -/
def planEvidenceMismatch (evidence : List Obj) (status : Int) (executionEvidenceComplete : Bool) :
    Except PyErr Bool := do
  let aggregate ← aggregateStatus evidence
  return !executionEvidenceComplete || (!evidence.isEmpty && !aggregate.eqInt status)

/-- The verdict document of one run. -/
structure EvalVerdict where
  passToPassSkipsAllowed : Bool
  outcome : EvaluationOutcome
  outcomeBasis : List Str
  technicalReasons : List Str
  technicalError : Bool
  resolved : Bool
  summaryStatus : Str
  outputArtifactErrors : List Str
  operationalWarnings : List Str

/-- The warnings of a run: what its snapshot recorded, a container that could not be removed, and
every artifact error the verdict does not depend on. -/
def operationalWarnings : List Str :=
  let removal : List Str :=
    if !(run.containerCleanup.get "ok").truthy && containerStopped run
      then ["container_removal_failed_after_stop"] else []
  let ignored := (artifacts.outputArtifactErrors.filter
    (!(outputErrors artifacts run).contains ·)).map (lit "ignored_after_semantic_verdict:" ++ ·)
  (artifacts.operationalWarnings ++ removal ++ ignored).eraseDups

/-- The classification of the snapshot before its aggregate statuses are compared. -/
def firstDecision : VerdictDecision :=
  classifyEvaluation artifacts.f2pEvidence artifacts.p2pEvidence run.passToPassSkipsAllowed
    (prerequisiteReasons artifacts run) (candidateApplicationFailed artifacts run)

/-- The classification that the verdict reports. A technical failure is classified once more, with
the aggregate statuses that disagree with the evidence named among its reasons. -/
def finalDecision : Except PyErr VerdictDecision :=
  if (firstDecision artifacts run).outcome = .technicalFailure then do
    let f2pMismatch ← planEvidenceMismatch artifacts.f2pEvidence artifacts.f2pStatus
      artifacts.f2pExecutionEvidenceComplete
    let p2pMismatch ← planEvidenceMismatch artifacts.p2pEvidence artifacts.p2pStatus
      artifacts.p2pExecutionEvidenceComplete
    let reasons := prerequisiteReasons artifacts run ++
      (if f2pMismatch then [lit "fail_to_pass_evidence"] else []) ++
      (if p2pMismatch then [lit "pass_to_pass_evidence"] else [])
    return classifyEvaluation artifacts.f2pEvidence artifacts.p2pEvidence
      run.passToPassSkipsAllowed reasons false
  else return firstDecision artifacts run

/-- Derive a verdict from identity-bound artifacts and semantic evidence. -/
def deriveEvalVerdict : Except PyErr EvalVerdict := do
  let decision ← finalDecision artifacts run
  let technicalError := decide (decision.outcome = .technicalFailure)
  return {
    passToPassSkipsAllowed := run.passToPassSkipsAllowed
    outcome := decision.outcome
    outcomeBasis := decision.basis
    technicalReasons := decision.technicalReasons
    technicalError
    resolved := decision.resolved
    summaryStatus := if technicalError then "technical_eval_failed" else "done"
    outputArtifactErrors := outputErrors artifacts run
    operationalWarnings := operationalWarnings artifacts run }

/-- A run passes every prerequisite, every batch of the first group passed, and every batch of the
second passed or was skipped where the row allows it. -/
structure ResolvedConditions : Prop where
  noArtifactErrors : artifacts.outputArtifactErrors = []
  dockerExit : run.dockerExit = 0
  quiesced : run.cleanupQuiesced = true
  baseCommit : artifacts.baseCommitStatus = 0
  service : artifacts.serviceStatus = 0
  before : artifacts.beforeStatus = 0
  postBeforeBase : artifacts.postBeforeBaseStatus = 0
  modelPatch : artifacts.modelStatus = 0
  testPatch : artifacts.testStatus = 0
  baseSnapshot : artifacts.baseSnapshot.truthy = true
  candidateProjection : artifacts.candidateProjection.truthy = true
  evidence : artifacts.f2pEvidence ≠ []
  failToPass : ∀ item ∈ artifacts.f2pEvidence, targetEvidenceOutcome item = .passed
  passToPass : ∀ item ∈ artifacts.p2pEvidence, targetEvidenceOutcome item = .passed ∨
    (run.passToPassSkipsAllowed = true ∧ targetEvidenceOutcome item = .skipped)

/-- A nonzero patch status that a conclusive rejection explains. -/
def CandidateRejected : Prop :=
  artifacts.modelStatus ≠ 0 ∧
    candidateRejectionIsConclusive artifacts.candidateProjectionFailure = true

/-- A batch decides against the candidate: one of the first group failed or was skipped, or one of
the second failed, or was skipped where the row does not allow it. -/
def TargetFailed : Prop :=
  (∃ item ∈ artifacts.f2pEvidence,
      targetEvidenceOutcome item = .candidateFailed ∨ targetEvidenceOutcome item = .skipped) ∨
    ∃ item ∈ artifacts.p2pEvidence, targetEvidenceOutcome item = .candidateFailed ∨
      (run.passToPassSkipsAllowed = false ∧ targetEvidenceOutcome item = .skipped)

/-- A batch decides against a candidate that was applied and tested. -/
structure TestedAndFailed : Prop where
  service : artifacts.serviceStatus = 0
  modelPatch : artifacts.modelStatus = 0
  testPatch : artifacts.testStatus = 0
  candidateProjection : artifacts.candidateProjection.truthy = true
  evidence : artifacts.f2pEvidence ≠ []
  failed : TargetFailed artifacts run

/-- The container and the base are proved, every artifact error is explained by the cause, and the
candidate was rejected or a batch decides against it. -/
structure UnresolvedConditions : Prop where
  dockerExit : run.dockerExit = 0
  quiesced : run.cleanupQuiesced = true
  baseCommit : artifacts.baseCommitStatus = 0
  before : artifacts.beforeStatus = 0
  postBeforeBase : artifacts.postBeforeBaseStatus = 0
  baseSnapshot : artifacts.baseSnapshot.truthy = true
  artifactErrors : ∀ error ∈ artifacts.outputArtifactErrors,
    (CandidateRejected artifacts ∧
        expectedCandidateRejectionArtifactRe.fullmatch error = true) ∨
      (TargetFailed artifacts run ∧ unrunTestArtifactRe.fullmatch error = true)
  cause : CandidateRejected artifacts ∨ TestedAndFailed artifacts run

private theorem prerequisiteReasons_ne_nil :
    ∀ reason ∈ prerequisiteReasons artifacts run, reason ≠ [] := by
  have hnames : ∀ check ∈ reasonChecks artifacts run, check.1 ≠ [] := by
    simp [reasonChecks, lit]
  intro reason hreason
  obtain ⟨check, hcheck, hactive⟩ := List.mem_filterMap.mp hreason
  have := hnames check hcheck
  grind

private theorem prerequisiteReasons_eq_nil_iff :
    prerequisiteReasons artifacts run = [] ↔
      ∀ check ∈ reasonChecks artifacts run, check.2 = false := by
  simp only [prerequisiteReasons, List.filterMap_eq_nil_iff]
  grind

/-- The verdict names the outcome of the first classification. -/
theorem finalDecision_outcome {decision : VerdictDecision}
    (h : finalDecision artifacts run = .ok decision) :
    decision.outcome = (firstDecision artifacts run).outcome := by
  unfold finalDecision at h
  split at h
  next htechnical =>
    obtain ⟨f2p, -, h⟩ := bind_eq_ok_iff.mp h
    obtain ⟨p2p, -, h⟩ := bind_eq_ok_iff.mp h
    cases h
    rw [htechnical, List.append_assoc]
    refine technicalFailure_of_more_reasons _ _ _ (prerequisiteReasons_ne_nil artifacts run) ?_
      htechnical
    cases f2p <;> cases p2p <;> simp [lit]
  next => cases h; rfl

/-- A conclusive outcome is reported exactly when the first classification finds it. -/
theorem deriveEvalVerdict_outcome_iff {outcome : EvaluationOutcome}
    (h : outcome ≠ .technicalFailure) :
    (∃ verdict, deriveEvalVerdict artifacts run = .ok verdict ∧ verdict.outcome = outcome) ↔
      (firstDecision artifacts run).outcome = outcome := by
  constructor
  · rintro ⟨verdict, hverdict, rfl⟩
    obtain ⟨decision, hdecision, hfields⟩ := bind_eq_ok_iff.mp hverdict
    cases hfields
    exact (finalDecision_outcome artifacts run hdecision).symm
  · intro hfirst
    have hfinal : finalDecision artifacts run = .ok (firstDecision artifacts run) := by
      simp [finalDecision, hfirst, h]
    rw [deriveEvalVerdict, hfinal]
    exact ⟨_, rfl, hfirst⟩

/-- Without a rejected candidate, no prerequisite is violated exactly when the run and every status
are sound and no artifact error remains. -/
private theorem prerequisiteReasons_eq_nil :
    prerequisiteReasons artifacts run = [] ↔
      outputErrors artifacts run = [] ∧ run.dockerExit = 0 ∧ run.cleanupQuiesced = true ∧
        artifacts.baseCommitStatus = 0 ∧ artifacts.baseSnapshot.truthy = true ∧
        artifacts.beforeStatus = 0 ∧ artifacts.postBeforeBaseStatus = 0 ∧
        (candidateApplicationFailed artifacts run = true ∨
          (artifacts.candidateProjection.truthy = true ∧ artifacts.serviceStatus = 0 ∧
            artifacts.modelStatus = 0 ∧ artifacts.testStatus = 0)) := by
  rw [prerequisiteReasons_eq_nil_iff]
  simp [reasonChecks, containerStopped]
  grind

private theorem conclusiveCandidateFailure_iff :
    conclusiveCandidateFailure artifacts run = true ↔ TargetFailed artifacts run := by
  simp only [conclusiveCandidateFailure, targetOutcomes, List.any_eq_true, TargetFailed]
  exact groupedTargetOutcomes_conclusive_iff _ _ _

/-- The patch counts as not applied when it was rejected after a sound preparation. -/
theorem candidateApplicationFailed_iff :
    candidateApplicationFailed artifacts run = true ↔
      CandidateRejected artifacts ∧ artifacts.baseCommitStatus = 0 ∧
        artifacts.baseSnapshot.truthy = true ∧ artifacts.beforeStatus = 0 ∧
        artifacts.postBeforeBaseStatus = 0 ∧ run.dockerExit = 0 ∧ run.cleanupQuiesced = true := by
  simp [candidateApplicationFailed, CandidateRejected, and_assoc]

private theorem outputErrors_eq_nil_iff :
    outputErrors artifacts run = [] ↔
      ∀ error ∈ artifacts.outputArtifactErrors, ignoredArtifactError artifacts run error = true := by
  simp [outputErrors]

/-- A run resolves its task under exactly these conditions. -/
theorem firstDecision_resolved_iff :
    (firstDecision artifacts run).outcome = .resolved ↔ ResolvedConditions artifacts run := by
  rw [firstDecision, classifyEvaluation_resolved_iff _ _ _
    (prerequisiteReasons_ne_nil artifacts run), prerequisiteReasons_eq_nil,
    groupedTargetOutcomes_passed_iff]
  constructor
  · rintro ⟨⟨herrors, hexit, hquiesced, hbase, hsnapshot, hbefore, hpost, happlied⟩, hfailed,
      hevidence, hf2p, hp2p⟩
    obtain ⟨hprojection, hservice, hmodel, htest⟩ := happlied.resolve_left (by simp [hfailed])
    have hnone : conclusiveCandidateFailure artifacts run = false := by
      rw [Bool.eq_false_iff, ne_eq, conclusiveCandidateFailure_iff]
      rintro (⟨item, hitem, h⟩ | ⟨item, hitem, h⟩)
      · simp [hf2p item hitem] at h
      · rcases hp2p item hitem with hp | ⟨hallowed, hp⟩ <;> simp_all
    have hnoErrors : artifacts.outputArtifactErrors = [] := by
      rw [outputErrors_eq_nil_iff] at herrors
      refine List.eq_nil_iff_forall_not_mem.mpr fun error herror => ?_
      simpa [ignoredArtifactError, hfailed, hnone] using herrors error herror
    exact ⟨hnoErrors, hexit, hquiesced, hbase, hservice, hbefore, hpost, hmodel, htest, hsnapshot,
      hprojection, hevidence, hf2p, hp2p⟩
  · intro h
    refine ⟨⟨?_, h.dockerExit, h.quiesced, h.baseCommit, h.baseSnapshot, h.before,
      h.postBeforeBase, .inr ⟨h.candidateProjection, h.service, h.modelPatch, h.testPatch⟩⟩, ?_,
      h.evidence, h.failToPass, h.passToPass⟩
    · simp [outputErrors, h.noArtifactErrors]
    · simp [candidateApplicationFailed, h.modelPatch]

/-- A run decides against its candidate under exactly these conditions. -/
theorem firstDecision_unresolved_iff :
    (firstDecision artifacts run).outcome = .unresolved ↔ UnresolvedConditions artifacts run := by
  rw [firstDecision, classifyEvaluation_unresolved_iff _ _ _
    (prerequisiteReasons_ne_nil artifacts run), prerequisiteReasons_eq_nil,
    groupedTargetOutcomes_conclusive_iff, outputErrors_eq_nil_iff]
  constructor
  · rintro ⟨⟨herrors, hexit, hquiesced, hbase, hsnapshot, hbefore, hpost, happlied⟩, hcause⟩
    have hrejected : candidateApplicationFailed artifacts run = true ↔
        CandidateRejected artifacts := by
      simp [candidateApplicationFailed_iff, *]
    refine ⟨hexit, hquiesced, hbase, hbefore, hpost, hsnapshot, fun error herror => ?_, ?_⟩
    · simpa [ignoredArtifactError, hrejected, conclusiveCandidateFailure_iff]
        using herrors error herror
    · rcases happlied with happlied | ⟨hprojection, hservice, hmodel, htest⟩
      · exact .inl (hrejected.mp happlied)
      · refine hcause.imp hrejected.mp fun ⟨hevidence, hfailed⟩ => ?_
        exact ⟨hservice, hmodel, htest, hprojection, hevidence, hfailed⟩
  · intro h
    have hrejected : candidateApplicationFailed artifacts run = true ↔
        CandidateRejected artifacts := by
      simp [candidateApplicationFailed_iff, h.baseCommit, h.baseSnapshot, h.before,
        h.postBeforeBase, h.dockerExit, h.quiesced]
    refine ⟨⟨fun error herror => ?_, h.dockerExit, h.quiesced, h.baseCommit, h.baseSnapshot,
      h.before, h.postBeforeBase, ?_⟩, ?_⟩
    · simpa [ignoredArtifactError, hrejected, conclusiveCandidateFailure_iff]
        using h.artifactErrors error herror
    · exact h.cause.imp hrejected.mpr fun t =>
        ⟨t.candidateProjection, t.service, t.modelPatch, t.testPatch⟩
    · exact h.cause.imp hrejected.mpr fun t => ⟨t.evidence, t.failed⟩

/-- The `resolved` flag of a verdict is its outcome. -/
theorem deriveEvalVerdict_resolved_flag {verdict : EvalVerdict}
    (h : deriveEvalVerdict artifacts run = .ok verdict) :
    verdict.resolved = true ↔ verdict.outcome = .resolved := by
  obtain ⟨decision, hdecision, hfields⟩ := bind_eq_ok_iff.mp h
  cases hfields
  suffices decision.resolved = true ↔ decision.outcome = .resolved from this
  unfold finalDecision at hdecision
  split at hdecision
  · obtain ⟨f2p, -, hdecision⟩ := bind_eq_ok_iff.mp hdecision
    obtain ⟨p2p, -, hdecision⟩ := bind_eq_ok_iff.mp hdecision
    cases hdecision
    exact classifyEvaluation_resolved_flag _ _ _ _ _
  · cases hdecision
    exact classifyEvaluation_resolved_flag _ _ _ _ _

/-- Only a technical failure names reasons. -/
private theorem technicalReasons_eq_nil {evidence p2p : List Obj} {b : Bool} {reasons : List Str}
    {caf : Bool}
    (h : (classifyEvaluation evidence p2p b reasons caf).outcome ≠ .technicalFailure) :
    (classifyEvaluation evidence p2p b reasons caf).technicalReasons = [] := by
  revert h
  simp only [classifyEvaluation]
  split_ifs <;> simp

/-- What a verdict reports beside a conclusive outcome. -/
structure ConclusiveReport (verdict : EvalVerdict) : Prop where
  outcome : verdict.outcome = (firstDecision artifacts run).outcome
  technicalReasons : verdict.technicalReasons = []
  outputArtifactErrors : verdict.outputArtifactErrors = []
  summaryStatus : verdict.summaryStatus = "done"
  skipsAllowed : verdict.passToPassSkipsAllowed = run.passToPassSkipsAllowed
  warnings : verdict.operationalWarnings = operationalWarnings artifacts run

/-- A conclusive verdict is done: it reports no reason and no artifact error. -/
theorem deriveEvalVerdict_conclusive {verdict : EvalVerdict}
    (h : deriveEvalVerdict artifacts run = .ok verdict)
    (hconclusive : verdict.outcome ≠ .technicalFailure) :
    ConclusiveReport artifacts run verdict := by
  obtain ⟨decision, hdecision, hfields⟩ := bind_eq_ok_iff.mp h
  cases hfields
  have hfirst := finalDecision_outcome artifacts run hdecision
  have hdone : (firstDecision artifacts run).outcome ≠ .technicalFailure := by
    rw [← hfirst]
    exact hconclusive
  have hsame : decision = firstDecision artifacts run := by
    simpa [finalDecision, hdone, eq_comm] using hdecision
  subst hsame
  have hreasons : prerequisiteReasons artifacts run = [] := by
    by_contra hne
    refine hdone ?_
    rw [firstDecision, classifyEvaluation_outcome _ _ _ (prerequisiteReasons_ne_nil artifacts run),
      if_pos hne]
  exact {
    outcome := rfl
    technicalReasons := technicalReasons_eq_nil hdone
    outputArtifactErrors := ((prerequisiteReasons_eq_nil artifacts run).mp hreasons).1
    summaryStatus := by simp [hconclusive]
    skipsAllowed := rfl
    warnings := rfl }

/-- A verdict is `resolved` under exactly the resolving conditions and `unresolved` under exactly
the conditions that decide against the candidate, and its flag agrees with its outcome. -/
theorem deriveEvalVerdict_exact :
    ((∃ verdict, deriveEvalVerdict artifacts run = .ok verdict ∧ verdict.outcome = .resolved) ↔
        ResolvedConditions artifacts run) ∧
      ((∃ verdict, deriveEvalVerdict artifacts run = .ok verdict ∧
          verdict.outcome = .unresolved) ↔ UnresolvedConditions artifacts run) ∧
      ∀ verdict, deriveEvalVerdict artifacts run = .ok verdict →
        (verdict.resolved = true ↔ verdict.outcome = .resolved) := by
  refine ⟨?_, ?_, fun verdict => deriveEvalVerdict_resolved_flag artifacts run⟩
  · rw [deriveEvalVerdict_outcome_iff artifacts run (by decide), firstDecision_resolved_iff]
  · rw [deriveEvalVerdict_outcome_iff artifacts run (by decide), firstDecision_unresolved_iff]

end Derivation

end OpenCollabEval
