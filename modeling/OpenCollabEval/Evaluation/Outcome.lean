import OpenCollabEval.Python.Json

/-!
# Outcome classification

What a planned test batch proves about a candidate, and how the batches of the two test groups
combine. A batch of the first group has to pass; a batch of the second may also be skipped where
the row allows it. One batch that failed decides against the candidate, whatever is unknown about
the others.
-/

open Python

namespace OpenCollabEval

/-- Outcome proved for one planned test-command batch. -/
inductive TargetOutcome where
  | passed
  | candidateFailed
  | skipped
  | unknown
  deriving DecidableEq

namespace TargetOutcome

/-- A batch that was seen to fail or to be skipped decides against the candidate. -/
def isConclusiveFailure : TargetOutcome → Bool
  | candidateFailed | skipped => true
  | passed | unknown => false

end TargetOutcome

/-- Final semantic outcome for one candidate. -/
inductive EvaluationOutcome where
  | resolved
  | unresolved
  | technicalFailure
  deriving DecidableEq

/-- The text an outcome has in a report. -/
def EvaluationOutcome.value : EvaluationOutcome → Str
  | resolved => "resolved"
  | unresolved => "unresolved"
  | technicalFailure => "technical_failure"

/-- A classified evaluation. -/
structure VerdictDecision where
  outcome : EvaluationOutcome
  resolved : Bool
  technicalReasons : List Str
  basis : List Str

/-- Interpret the parser-backed evidence of one batch. -/
def targetEvidenceOutcome (item : Obj) : TargetOutcome :=
  match (item.get "status").asInt with
  | none => .unknown
  | some status =>
    if !(item.get "command_matches_plan").isTrue || !(item.get "log_artifact_safe").isTrue ||
        !(item.get "artifact_safe").isTrue then .unknown
    else
      let passed := (item.get "target_proof_matches_plan").isTrue
      let failed := (item.get "target_failure_proof_matches_plan").isTrue
      let skipped := (item.get "target_skip_proof_matches_plan").isTrue
      if passed.toNat + failed.toNat + skipped.toNat != 1 then .unknown
      else if passed && (status == 0 || status == 1) then .passed
      else if failed && status != 0 then .candidateFailed
      else if skipped && status == 0 then .skipped
      else .unknown

/-- The maintained-test rule: an allowed skip of a pass-to-pass batch counts as passed. -/
def maintainedOutcome (skipsAllowed : Bool) (outcome : TargetOutcome) : TargetOutcome :=
  if skipsAllowed && outcome == .skipped then .passed else outcome

/-- The outcomes of both groups, the maintained-test rule applied to the second only. -/
def groupedTargetOutcomes (failToPass passToPass : List Obj) (skipsAllowed : Bool) :
    List TargetOutcome :=
  failToPass.map targetEvidenceOutcome ++
    passToPass.map (maintainedOutcome skipsAllowed ∘ targetEvidenceOutcome)

/-- Apply asymmetric proof rules to one bound candidate. -/
def classifyEvaluation (evidence passToPassEvidence : List Obj) (skipsAllowed : Bool)
    (prerequisiteReasons : List Str) (candidateApplicationFailed : Bool) : VerdictDecision :=
  let reasons := (prerequisiteReasons.filter (!·.isEmpty)).eraseDups
  let outcomes := groupedTargetOutcomes evidence passToPassEvidence skipsAllowed
  if !reasons.isEmpty then
    ⟨.technicalFailure, false, reasons, ["evaluation_prerequisite_failed"]⟩
  else if candidateApplicationFailed then
    ⟨.unresolved, false, [], ["candidate_patch_could_not_be_applied"]⟩
  else if evidence.isEmpty then
    ⟨.technicalFailure, false, ["target_outcome_unknown"],
      ["insufficient_semantic_test_evidence"]⟩
  else if outcomes.any TargetOutcome.isConclusiveFailure then
    ⟨.unresolved, false, [],
      ((outcomes.filter TargetOutcome.isConclusiveFailure).map fun outcome =>
        if outcome = .candidateFailed then lit "declared_target_failed"
        else lit "declared_target_skipped").eraseDups⟩
  else if !outcomes.isEmpty && outcomes.all (· == .passed) then
    ⟨.resolved, true, [],
      [if passToPassEvidence.any (targetEvidenceOutcome · == .skipped)
        then "all_declared_targets_passed_or_maintained" else "all_declared_targets_passed"]⟩
  else
    ⟨.technicalFailure, false, ["target_outcome_unknown"],
      ["insufficient_semantic_test_evidence"]⟩

/-- The outcomes that decide against a candidate. -/
theorem isConclusiveFailure_iff (o : TargetOutcome) :
    o.isConclusiveFailure = true ↔ o = .candidateFailed ∨ o = .skipped := by
  cases o <;> simp [TargetOutcome.isConclusiveFailure]

/-- A maintained batch counts as passed when it passed or was allowed to be skipped. -/
theorem maintainedOutcome_passed_iff (b : Bool) (o : TargetOutcome) :
    maintainedOutcome b o = .passed ↔ o = .passed ∨ (b = true ∧ o = .skipped) := by
  cases b <;> cases o <;> simp [maintainedOutcome]

/-- A maintained batch decides against the candidate when it failed, or was skipped without leave. -/
theorem maintainedOutcome_conclusive_iff (b : Bool) (o : TargetOutcome) :
    (maintainedOutcome b o).isConclusiveFailure = true ↔
      o = .candidateFailed ∨ (b = false ∧ o = .skipped) := by
  cases b <;> cases o <;> simp [maintainedOutcome, TargetOutcome.isConclusiveFailure]

section Classification

variable (evidence p2p : List Obj) (b : Bool)

/-- Named reasons vanish only when there are none. -/
private theorem reasons_isEmpty_iff (reasons : List Str) (hne : ∀ r ∈ reasons, r ≠ []) :
    ((reasons.filter (!·.isEmpty)).eraseDups).isEmpty = true ↔ reasons = [] := by
  cases reasons with
  | nil => simp
  | cons r rs =>
    have hr : r ≠ [] := hne r (by simp)
    simp [hr, List.eraseDups_cons]

/-- The outcome alone, branch by branch. -/
theorem classifyEvaluation_outcome {reasons : List Str} (hne : ∀ r ∈ reasons, r ≠ [])
    (caf : Bool) :
    (classifyEvaluation evidence p2p b reasons caf).outcome =
      if reasons ≠ [] then .technicalFailure
      else if caf = true then .unresolved
      else if evidence = [] then .technicalFailure
      else if ∃ o ∈ groupedTargetOutcomes evidence p2p b, o.isConclusiveFailure = true
        then .unresolved
      else if ∀ o ∈ groupedTargetOutcomes evidence p2p b, o = .passed then .resolved
      else .technicalFailure := by
  have hreasons := reasons_isEmpty_iff reasons hne
  have houtcomes : evidence ≠ [] → groupedTargetOutcomes evidence p2p b ≠ [] := by
    simp +contextual [groupedTargetOutcomes]
  simp only [classifyEvaluation, Bool.not_eq_true', List.any_eq_true, List.isEmpty_iff,
    Bool.and_eq_true, List.all_eq_true, beq_iff_eq, ← Bool.not_eq_true, hreasons]
  split_ifs <;> grind

/-- A classification is `resolved` when no reason speaks against it and every batch passed. -/
theorem classifyEvaluation_resolved_iff {reasons : List Str} (hne : ∀ r ∈ reasons, r ≠ [])
    (caf : Bool) :
    (classifyEvaluation evidence p2p b reasons caf).outcome = .resolved ↔
      reasons = [] ∧ caf = false ∧ evidence ≠ [] ∧
        ∀ o ∈ groupedTargetOutcomes evidence p2p b, o = .passed := by
  have hpassed : (∀ o ∈ groupedTargetOutcomes evidence p2p b, o = .passed) →
      ¬∃ o ∈ groupedTargetOutcomes evidence p2p b, o.isConclusiveFailure = true := by
    rintro h ⟨o, ho, hconclusive⟩
    simp [h o ho, TargetOutcome.isConclusiveFailure] at hconclusive
  rw [classifyEvaluation_outcome _ _ _ hne]
  split_ifs <;> grind

/-- A classification is `unresolved` when the candidate could not be applied or a batch decides
against it. -/
theorem classifyEvaluation_unresolved_iff {reasons : List Str} (hne : ∀ r ∈ reasons, r ≠ [])
    (caf : Bool) :
    (classifyEvaluation evidence p2p b reasons caf).outcome = .unresolved ↔
      reasons = [] ∧ (caf = true ∨ (evidence ≠ [] ∧
        ∃ o ∈ groupedTargetOutcomes evidence p2p b, o.isConclusiveFailure = true)) := by
  rw [classifyEvaluation_outcome _ _ _ hne]
  split_ifs <;> grind

/-- The flag of a classification is its outcome. -/
theorem classifyEvaluation_resolved_flag (reasons : List Str) (caf : Bool) :
    (classifyEvaluation evidence p2p b reasons caf).resolved = true ↔
      (classifyEvaluation evidence p2p b reasons caf).outcome = .resolved := by
  simp only [classifyEvaluation]
  split_ifs <;> simp

/-- All grouped outcomes passed, read off the evidence items. -/
theorem groupedTargetOutcomes_passed_iff :
    (∀ o ∈ groupedTargetOutcomes evidence p2p b, o = .passed) ↔
      (∀ item ∈ evidence, targetEvidenceOutcome item = .passed) ∧
        ∀ item ∈ p2p, targetEvidenceOutcome item = .passed ∨
          (b = true ∧ targetEvidenceOutcome item = .skipped) := by
  simp [groupedTargetOutcomes, or_imp, forall_and, maintainedOutcome_passed_iff]

/-- Some grouped outcome decides against the candidate, read off the evidence items. -/
theorem groupedTargetOutcomes_conclusive_iff :
    (∃ o ∈ groupedTargetOutcomes evidence p2p b, o.isConclusiveFailure = true) ↔
      (∃ item ∈ evidence,
        targetEvidenceOutcome item = .candidateFailed ∨ targetEvidenceOutcome item = .skipped) ∨
      ∃ item ∈ p2p, targetEvidenceOutcome item = .candidateFailed ∨
        (b = false ∧ targetEvidenceOutcome item = .skipped) := by
  simp [groupedTargetOutcomes, or_and_right, exists_or,
    ← maintainedOutcome_conclusive_iff, ← isConclusiveFailure_iff]

/-- Further reasons do not turn a technical failure into a verdict. -/
theorem technicalFailure_of_more_reasons
    {reasons extra : List Str} {caf : Bool} (hne : ∀ r ∈ reasons, r ≠ [])
    (hextra : ∀ r ∈ extra, r ≠ [])
    (h : (classifyEvaluation evidence p2p b reasons caf).outcome = .technicalFailure) :
    (classifyEvaluation evidence p2p b (reasons ++ extra) false).outcome = .technicalFailure := by
  have hboth : ∀ r ∈ reasons ++ extra, r ≠ [] := by
    intro r hr
    rcases List.mem_append.mp hr with hr | hr
    · exact hne r hr
    · exact hextra r hr
  rw [classifyEvaluation_outcome _ _ _ hne] at h
  rw [classifyEvaluation_outcome _ _ _ hboth]
  by_cases hreasons : reasons = []
  · subst hreasons
    split_ifs at h ⊢ <;> simp_all
  · simp [hreasons]

end Classification

end OpenCollabEval
