import OpenCollabEval.Evaluation.Report
import OpenCollabEval.Contract.Trusted

/-!
# Agreement of the writer and the reader of a verdict

The evaluator classifies the batches of both test groups in one list, the report reader folds each
group on its own. `directEvalPlanStatus_eq` computes the reader's result of a group from its
evidence; `reportAccepted_iff` then says for which evidence a verdict that was reached by the tests
is accepted once it is written.

The two procedures part where one group decides against the candidate and the other one holds a
batch of unknown outcome: one failure is enough for the evaluator, while the reader finds no result
in the other group.
-/

open Python

namespace OpenCollabEval

/-- Every batch carries an exit status. -/
def HasStatuses (evidence : List Obj) : Prop :=
  ∀ item ∈ evidence, ∃ status, item.get "status" = .int status

/-- The exit statuses of some batches. -/
def batchStatuses (evidence : List Obj) : List Int :=
  evidence.filterMap fun item => (item.get "status").asInt

/-- The first nonzero batch status, 0 if there is none. -/
def firstNonzeroStatus (evidence : List Obj) : Int :=
  ((batchStatuses evidence).find? (· != 0)).getD 0

/-- The reader finds no outcome in a batch exactly when the evaluator finds none. -/
theorem targetEvidencePassed_eq_none_iff (item : Obj) (allowSkipped : Bool) :
    targetEvidencePassed item allowSkipped = none ↔ targetEvidenceOutcome item = .unknown := by
  cases h : targetEvidenceOutcome item <;> simp [targetEvidencePassed, h]

/-- A batch whose command or artifacts are not as planned proves nothing. -/
theorem targetEvidenceOutcome_of_unsafe {item : Obj}
    (h : ((item.get "command_matches_plan").isTrue && (item.get "log_artifact_safe").isTrue &&
      (item.get "artifact_safe").isTrue) = false) : targetEvidenceOutcome item = .unknown := by
  unfold targetEvidenceOutcome
  cases (item.get "status").asInt with
  | none => rfl
  | some status =>
    simp only [Bool.and_eq_false_iff] at h
    rcases h with (h | h) | h <;> simp [h]

/-- What the reader gathers from evidence that carries its statuses. -/
theorem gatherEvidence_eq (allowSkipped : Bool) {evidence : List Obj} (h : HasStatuses evidence) :
    gatherEvidence allowSkipped (evidence.map .dict) = some {
      statuses := batchStatuses evidence
      outcomes := evidence.filterMap (targetEvidencePassed · allowSkipped)
      hasUnknownBatches := evidence.any (targetEvidenceOutcome · == .unknown) } := by
  induction evidence with
  | nil => rfl
  | cons item rest ih =>
    obtain ⟨status, hstatus⟩ := h item (by simp)
    have hrest := ih fun other hother => h other (by simp [hother])
    have hchecked : (if ((item.get "command_matches_plan").isTrue &&
        (item.get "log_artifact_safe").isTrue && (item.get "artifact_safe").isTrue) = true then
          targetEvidencePassed item allowSkipped else none) =
        targetEvidencePassed item allowSkipped := by
      split
      · rfl
      next hunsafe =>
        rw [eq_comm, targetEvidencePassed_eq_none_iff]
        exact targetEvidenceOutcome_of_unsafe (by simpa using hunsafe)
    have hitem : (item.get "status").asInt = some status := by rw [hstatus]; rfl
    simp only [List.map_cons, gatherEvidence, hitem, hrest, hchecked, Option.bind_eq_bind,
      Option.bind_some]
    rcases hpassed : targetEvidencePassed item allowSkipped with _ | outcome
    · have hunknown := (targetEvidencePassed_eq_none_iff item allowSkipped).mp hpassed
      simp [batchStatuses, hitem, hpassed, hunknown]
    · have hknown : targetEvidenceOutcome item ≠ .unknown := by
        rw [ne_eq, ← targetEvidencePassed_eq_none_iff item allowSkipped, hpassed]
        simp
      simp [batchStatuses, hitem, hpassed, hknown]

/-- A group has a result: nothing in it is unknown, or a batch of it was proved to fail. -/
def GroupDecided (evidence : List Obj) (allowSkipped : Bool) : Prop :=
  (∀ item ∈ evidence, targetEvidenceOutcome item ≠ .unknown) ∨
    ∃ item ∈ evidence, targetEvidencePassed item allowSkipped = some false

/-- The result of a group: 1 when a batch was proved to fail, 0 when all are known and none did. -/
def groupResult (evidence : List Obj) (allowSkipped : Bool) : Option Int :=
  if ∃ item ∈ evidence, targetEvidencePassed item allowSkipped = some false then some 1
  else if ∀ item ∈ evidence, targetEvidenceOutcome item ≠ .unknown then some 0 else none

/-- The result of a group whose aggregate status is the first nonzero one. -/
theorem groupStatus_eq (evidence : List Obj) (allowSkipped : Bool) :
    groupStatus (.int (firstNonzeroStatus evidence)) {
      statuses := batchStatuses evidence
      outcomes := evidence.filterMap (targetEvidencePassed · allowSkipped)
      hasUnknownBatches := evidence.any (targetEvidenceOutcome · == .unknown) } =
    groupResult evidence allowSkipped := by
  have hall : (evidence.filterMap (targetEvidencePassed · allowSkipped)).all id = true ↔
      ¬∃ item ∈ evidence, targetEvidencePassed item allowSkipped = some false := by
    simp
    grind
  have hunknown : evidence.any (targetEvidenceOutcome · == .unknown) = true ↔
      ¬∀ item ∈ evidence, targetEvidenceOutcome item ≠ .unknown := by
    simp
  simp only [groupResult, groupStatus, Json.asInt, Option.bind_eq_bind, Option.bind_some,
    firstNonzeroStatus, bne_self_eq_false, Bool.false_eq_true, if_false, hunknown,
    Bool.or_eq_true, List.isEmpty_iff, hall]
  by_cases hfailed : ∃ item ∈ evidence, targetEvidencePassed item allowSkipped = some false
  · have hsome : evidence.filterMap (targetEvidencePassed · allowSkipped) ≠ [] := by
      intro hnil
      rw [hnil] at hall
      simp [hfailed] at hall
    simp [hfailed, hsome]
  · simp [hfailed]
    grind

/-- The evidence of a plan: one batch for each of its commands, each with its exit status. -/
structure PlannedEvidence (plan : Obj) (evidence : List Obj) (status : Int) : Prop where
  oneBatchEach : (plan.get "commands").asList.map List.length = some evidence.length
  hasStatuses : HasStatuses evidence
  aggregate : status = firstNonzeroStatus evidence

section GroupReader

variable {env : Env} {testsStatus plan : Obj} {group : Str} {evidence : List Obj} {status : Int}
  {requireCommands : Bool} {expectedPlan : Option Json} {kind : Str}

/-- A trusted plan lists its commands, at least one where they are demanded, and then its coverage
is verified. -/
theorem trusted_commands
    (h : validatedTestPlanKind env (.dict plan) requireCommands = .ok (some kind)) :
    ∃ commands, stringList (plan.get "commands") = some commands ∧
      (commands = [] → requireCommands = false) ∧
      (commands ≠ [] → (plan.get "coverage_verified").isTrue = true) := by
  cases requireCommands with
  | true =>
    obtain ⟨parts, hparts⟩ := validatedTestPlanKind_iff.mp h
    exact ⟨parts.commands, hparts.commands, fun hnil => absurd hnil hparts.someCommand,
      fun _ => hparts.coverageVerified⟩
  | false =>
    rcases validatedTestPlanKind_false h with hnil | h
    · exact ⟨[], hnil, fun _ => rfl, fun hne => absurd rfl hne⟩
    · obtain ⟨parts, hparts⟩ := validatedTestPlanKind_iff.mp h
      exact ⟨parts.commands, hparts.commands, fun hnil => absurd hnil hparts.someCommand,
        fun _ => hparts.coverageVerified⟩

/-- The reader's result for a group of a written document. -/
theorem directEvalPlanStatus_eq
    (hplan : testsStatus.get (group ++ lit "_plan") = .dict plan)
    (hevidence : testsStatus.get (group ++ lit "_evidence") = evidenceDocument evidence)
    (hstatus : testsStatus.get (group ++ lit "_status") = .int status)
    (htrusted : validatedTestPlanKind env (.dict plan) requireCommands = .ok (some kind))
    (hexpected : ∀ expected, expectedPlan = some expected → (Json.dict plan).pyEq expected = true)
    (hplanned : PlannedEvidence plan evidence status) :
    directEvalPlanStatus env testsStatus group expectedPlan requireCommands =
      .ok (groupResult evidence (group == lit "pass_to_pass" &&
        (Obj.getOr testsStatus "pass_to_pass_skips_allowed" (.bool false)).isTrue)) := by
  obtain ⟨commands, hcommands, hrequired, hcovered⟩ := trusted_commands htrusted
  obtain ⟨hitems, -⟩ := (stringList_eq_some_iff _ _).mp hcommands
  have hlength : evidence.length = commands.length := by
    simpa [hitems] using hplanned.oneBatchEach.symm
  have hmatches : (expectedPlan.any fun expected => !(Json.dict plan).pyEq expected) = false := by
    cases expectedPlan with
    | none => rfl
    | some expected => simp [hexpected expected rfl]
  have hcount : (evidence.length != commands.length || (requireCommands && commands.isEmpty)) =
      false := by
    simp only [hlength, bne_self_eq_false, Bool.false_or, Bool.and_eq_false_iff]
    by_cases hnil : commands = []
    · exact .inl (hrequired hnil)
    · exact .inr (by simpa using hnil)
  have hcovers : (!commands.isEmpty && !(plan.get "coverage_verified").isTrue) = false := by
    by_cases hnil : commands = []
    · simp [hnil]
    · simp [hcovered hnil]
  simp only [directEvalPlanStatus, hplan, hevidence, hstatus, evidenceDocument, Json.asDict_dict,
    Json.asList_list, htrusted, ok_bind, Option.isNone_some, hmatches, hitems, List.length_map,
    List.isEmpty_map,
    hcount, hcovers, Bool.false_eq_true, if_false, gatherEvidence_eq _ hplanned.hasStatuses,
    hplanned.aggregate, groupStatus_eq, pure_eq_ok]

end GroupReader


/-- A group has a result exactly when it is decided. -/
theorem groupResult_isSome_iff (evidence : List Obj) (allowSkipped : Bool) :
    (∃ result, groupResult evidence allowSkipped = some result) ↔
      GroupDecided evidence allowSkipped := by
  unfold groupResult GroupDecided
  split_ifs <;> simp_all

/-- A decided group passes exactly when no batch of it was proved to fail. -/
theorem groupResult_eq_zero_iff {evidence : List Obj} {allowSkipped : Bool} {result : Int}
    (h : groupResult evidence allowSkipped = some result) :
    result = 0 ↔ ∀ item ∈ evidence, targetEvidencePassed item allowSkipped ≠ some false := by
  unfold groupResult at h
  split_ifs at h with hfailed hknown
  · obtain ⟨item, hitem, hfalse⟩ := hfailed
    have hone : result = 1 := by simpa using h.symm
    simp only [hone, one_ne_zero, false_iff, not_forall, not_not]
    exact ⟨item, hitem, hfalse⟩
  · have hzero : result = 0 := by simpa using h.symm
    simp only [hzero, true_iff]
    exact fun item hitem hfalse => hfailed ⟨item, hitem, hfalse⟩

/-- A batch speaks against the candidate when it failed, or was skipped without leave. -/
theorem targetEvidencePassed_eq_false_iff (item : Obj) (allowSkipped : Bool) :
    targetEvidencePassed item allowSkipped = some false ↔
      targetEvidenceOutcome item = .candidateFailed ∨
        (allowSkipped = false ∧ targetEvidenceOutcome item = .skipped) := by
  cases h : targetEvidenceOutcome item <;> cases allowSkipped <;> simp [targetEvidencePassed, h]

section Written

variable {env : Env} {context : EvalContext} {artifacts : ArtifactSnapshot} {run : RunCompletion}
  {verdict : EvalVerdict} {expected : ExpectedReport}

/-- Both plans are trusted, and their evidence was read as planned. -/
structure WrittenEvidence (env : Env) (context : EvalContext) (artifacts : ArtifactSnapshot) :
    Prop where
  f2pTrusted : ∃ kind, validatedTestPlanKind env (.dict context.f2pPlan) false = .ok (some kind)
  p2pTrusted : ∃ kind, validatedTestPlanKind env (.dict context.p2pPlan) false = .ok (some kind)
  f2pPlanned : PlannedEvidence context.f2pPlan artifacts.f2pEvidence artifacts.f2pStatus
  p2pPlanned : PlannedEvidence context.p2pPlan artifacts.p2pEvidence artifacts.p2pStatus

/-- A reader that expects particular plans expects the written ones. -/
structure ExpectsWrittenPlans (context : EvalContext) (expected : ExpectedReport) : Prop where
  f2p : ∀ plan, expected.f2pPlan = some plan → (Json.dict context.f2pPlan).pyEq plan = true
  p2p : ∀ plan, expected.p2pPlan = some plan → (Json.dict context.p2pPlan).pyEq plan = true

/-- The verdict was reached by the test evidence, not by a rejection of the patch. -/
def DecidedByTests (artifacts : ArtifactSnapshot) (run : RunCompletion) (verdict : EvalVerdict) :
    Prop :=
  verdict.outcome = .resolved ∨
    (verdict.outcome = .unresolved ∧ candidateApplicationFailed artifacts run = false)

/-- The reader finds a result in both groups, both passed exactly for a resolved verdict. -/
def ReaderAgrees (env : Env) (context : EvalContext) (artifacts : ArtifactSnapshot)
    (verdict : EvalVerdict) (expected : ExpectedReport) : Prop :=
  ∃ f2p p2p : Int,
    directEvalPlanStatus env (testsStatusDocument context artifacts verdict) "fail_to_pass"
        expected.f2pPlan true = .ok (some f2p) ∧
      directEvalPlanStatus env (testsStatusDocument context artifacts verdict) "pass_to_pass"
        expected.p2pPlan false = .ok (some p2p) ∧
      ((f2p = 0 ∧ p2p = 0) ↔ verdict.outcome = .resolved)

/-- Everything that the reader checks beside the two groups: the identities of the specification, of
the patch and of its projection, and the restored files. -/
structure IdentityProven (env : Env) (context : EvalContext) (artifacts : ArtifactSnapshot)
    (run : RunCompletion) (verdict : EvalVerdict) (expected : ExpectedReport)
    (expectation : Obj) : Prop where
  specification : specIdentityValid env (evalReport context artifacts run verdict)
    expected.evalSpecSha256 expected.requireEvalImageId = true
  warnings : warningsValid (evalReport context artifacts run verdict) = true
  expects : context.candidateExpectation = .dict expectation
  task : taskIdentityValid env (evalReport context artifacts run verdict) expectation = true
  notRejected : candidateRejectionIsConclusive artifacts.candidateProjectionFailure = false
  projection : projectionAccepted env (evalReport context artifacts run verdict) expectation = true
  runtimeFiles : runtimeFileDependencyProof env (evalReport context artifacts run verdict)
    (testsStatusDocument context artifacts verdict) expected.f2pPlan expected.p2pPlan = .ok true

/-- Written evidence of a first group that has batches belongs to a plan with commands. -/
theorem WrittenEvidence.f2pRuns (h : WrittenEvidence env context artifacts)
    (hevidence : artifacts.f2pEvidence ≠ []) :
    ∃ kind, validatedTestPlanKind env (.dict context.f2pPlan) true = .ok (some kind) := by
  obtain ⟨kind, hkind⟩ := h.f2pTrusted
  refine ⟨kind, (validatedTestPlanKind_false hkind).resolve_left fun hnil => hevidence ?_⟩
  obtain ⟨hitems, -⟩ := (stringList_eq_some_iff _ _).mp hnil
  have hlength := h.f2pPlanned.oneBatchEach
  rw [hitems] at hlength
  exact List.length_eq_zero_iff.mp (by simpa using hlength.symm)

/-- The reader's result for the first group of a written report. -/
theorem f2pStatus_eq (hwritten : WrittenEvidence env context artifacts)
    (hplans : ExpectsWrittenPlans context expected) (hevidence : artifacts.f2pEvidence ≠ []) :
    directEvalPlanStatus env (testsStatusDocument context artifacts verdict) "fail_to_pass"
      expected.f2pPlan true = .ok (groupResult artifacts.f2pEvidence false) := by
  obtain ⟨kind, hkind⟩ := hwritten.f2pRuns hevidence
  have hplan : (testsStatusDocument context artifacts verdict).get
      (lit "fail_to_pass" ++ lit "_plan") = .dict context.f2pPlan := by
    simp [testsStatusDocument]
  have hbatches : (testsStatusDocument context artifacts verdict).get
      (lit "fail_to_pass" ++ lit "_evidence") = evidenceDocument artifacts.f2pEvidence := by
    simp [testsStatusDocument]
  have hstatus : (testsStatusDocument context artifacts verdict).get
      (lit "fail_to_pass" ++ lit "_status") = .int artifacts.f2pStatus := by
    simp [testsStatusDocument]
  rw [directEvalPlanStatus_eq hplan hbatches hstatus hkind hplans.f2p hwritten.f2pPlanned]
  simp

/-- The reader's result for the second group of a written report. -/
theorem p2pStatus_eq (hwritten : WrittenEvidence env context artifacts)
    (hplans : ExpectsWrittenPlans context expected) :
    directEvalPlanStatus env (testsStatusDocument context artifacts verdict) "pass_to_pass"
        expected.p2pPlan false =
      .ok (groupResult artifacts.p2pEvidence verdict.passToPassSkipsAllowed) := by
  obtain ⟨kind, hkind⟩ := hwritten.p2pTrusted
  have hplan : (testsStatusDocument context artifacts verdict).get
      (lit "pass_to_pass" ++ lit "_plan") = .dict context.p2pPlan := by
    simp [testsStatusDocument]
  have hbatches : (testsStatusDocument context artifacts verdict).get
      (lit "pass_to_pass" ++ lit "_evidence") = evidenceDocument artifacts.p2pEvidence := by
    simp [testsStatusDocument]
  have hstatus : (testsStatusDocument context artifacts verdict).get
      (lit "pass_to_pass" ++ lit "_status") = .int artifacts.p2pStatus := by
    simp [testsStatusDocument]
  have hskips : (Obj.getOr (testsStatusDocument context artifacts verdict)
      "pass_to_pass_skips_allowed" (.bool false)).isTrue = verdict.passToPassSkipsAllowed := by
    cases hallowed : verdict.passToPassSkipsAllowed <;>
      simp [testsStatusDocument, hallowed, Json.isTrue]
  rw [directEvalPlanStatus_eq hplan hbatches hstatus hkind hplans.p2p hwritten.p2pPlanned, hskips]
  simp

/-- What holds of a snapshot that the tests decided. -/
structure TestedSnapshot (artifacts : ArtifactSnapshot) (run : RunCompletion)
    (verdict : EvalVerdict) : Prop where
  dockerExit : run.dockerExit = 0
  quiesced : run.cleanupQuiesced = true
  baseCommit : artifacts.baseCommitStatus = 0
  service : artifacts.serviceStatus = 0
  before : artifacts.beforeStatus = 0
  postBeforeBase : artifacts.postBeforeBaseStatus = 0
  modelPatch : artifacts.modelStatus = 0
  testPatch : artifacts.testStatus = 0
  evidence : artifacts.f2pEvidence ≠ []
  report : ConclusiveReport artifacts run verdict
  conclusive : verdict.outcome ≠ .technicalFailure
  resolved : verdict.outcome = .resolved ↔ ¬TargetFailed artifacts run

/-- A verdict that the tests reached was preceded by a sound preparation, has test evidence, and is
resolved unless a target failed. -/
theorem testedSnapshot_of_decided (hverdict : deriveEvalVerdict artifacts run = .ok verdict)
    (hdecided : DecidedByTests artifacts run verdict) : TestedSnapshot artifacts run verdict := by
  rcases hdecided with hresolved | ⟨hunresolved, happlied⟩
  · have hreport := deriveEvalVerdict_conclusive artifacts run hverdict (by simp [hresolved])
    have h := (firstDecision_resolved_iff artifacts run).mp (by rw [← hreport.outcome, hresolved])
    refine ⟨h.dockerExit, h.quiesced, h.baseCommit, h.service, h.before, h.postBeforeBase,
      h.modelPatch, h.testPatch, h.evidence, hreport, by simp [hresolved], iff_of_true hresolved ?_⟩
    rintro (⟨item, hitem, hfailed⟩ | ⟨item, hitem, hfailed⟩)
    · simp [h.failToPass item hitem] at hfailed
    · rcases h.passToPass item hitem with hpassed | ⟨hallowed, hskipped⟩ <;> simp_all
  · have hreport := deriveEvalVerdict_conclusive artifacts run hverdict (by simp [hunresolved])
    have h := (firstDecision_unresolved_iff artifacts run).mp
      (by rw [← hreport.outcome, hunresolved])
    have hnotRejected : ¬CandidateRejected artifacts := fun hrejected => by
      rw [(candidateApplicationFailed_iff artifacts run).mpr ⟨hrejected, h.baseCommit,
        h.baseSnapshot, h.before, h.postBeforeBase, h.dockerExit, h.quiesced⟩] at happlied
      simp at happlied
    have t := h.cause.resolve_left hnotRejected
    refine ⟨h.dockerExit, h.quiesced, h.baseCommit, t.service, h.before, h.postBeforeBase,
      t.modelPatch, t.testPatch, t.evidence, hreport, by simp [hunresolved],
      iff_of_false (by simp [hunresolved]) ?_⟩
    exact not_not_intro t.failed

/-- A target failed exactly when the reader takes a batch of one of the groups for failed. -/
theorem targetFailed_iff : TargetFailed artifacts run ↔
    (∃ item ∈ artifacts.f2pEvidence, targetEvidencePassed item false = some false) ∨
      ∃ item ∈ artifacts.p2pEvidence,
        targetEvidencePassed item run.passToPassSkipsAllowed = some false := by
  simp [TargetFailed, targetEvidencePassed_eq_false_iff]

/-- Both groups are decided. -/
def BothGroupsDecided (artifacts : ArtifactSnapshot) (run : RunCompletion) : Prop :=
  GroupDecided artifacts.f2pEvidence false ∧
    GroupDecided artifacts.p2pEvidence run.passToPassSkipsAllowed

/-- The reader agrees with a verdict of the tests exactly when both groups are decided. -/
theorem readerAgrees_iff (hwritten : WrittenEvidence env context artifacts)
    (hplans : ExpectsWrittenPlans context expected)
    (htested : TestedSnapshot artifacts run verdict) :
    ReaderAgrees env context artifacts verdict expected ↔ BothGroupsDecided artifacts run := by
  rw [ReaderAgrees, f2pStatus_eq hwritten hplans htested.evidence, p2pStatus_eq hwritten hplans,
    htested.report.skipsAllowed]
  simp only [Except.ok.injEq]
  constructor
  · rintro ⟨f2p, p2p, hf2p, hp2p, -⟩
    exact ⟨(groupResult_isSome_iff _ _).mp ⟨f2p, hf2p⟩, (groupResult_isSome_iff _ _).mp ⟨p2p, hp2p⟩⟩
  · rintro ⟨hf2p, hp2p⟩
    obtain ⟨f2p, hf2p⟩ := (groupResult_isSome_iff _ _).mpr hf2p
    obtain ⟨p2p, hp2p⟩ := (groupResult_isSome_iff _ _).mpr hp2p
    refine ⟨f2p, p2p, hf2p, hp2p, ?_⟩
    rw [groupResult_eq_zero_iff hf2p, groupResult_eq_zero_iff hp2p, htested.resolved,
      targetFailed_iff]
    simp

/-- The reader finds the written verdict fields valid. -/
theorem verdictFieldsValid_evalReport (htested : TestedSnapshot artifacts run verdict) :
    verdictFieldsValid (evalReport context artifacts run verdict) = true := by
  have hreport := htested.report
  simp [verdictFieldsValid, evalReport, Json.eqStr, Json.eqInt, Json.pyEq, Json.pyEqList,
    Json.strs, Json.isTrue, hreport.technicalReasons, hreport.outputArtifactErrors,
    hreport.summaryStatus, htested.dockerExit, htested.quiesced]

/-- The report states the result that the reader finds in both groups. -/
theorem verdictReported_evalReport {passed : Bool} (htested : TestedSnapshot artifacts run verdict)
    (hflag : verdict.resolved = true ↔ verdict.outcome = .resolved)
    (hpassed : passed = true ↔ verdict.outcome = .resolved) :
    verdictReported (evalReport context artifacts run verdict) passed = true := by
  have hresolved : verdict.resolved = passed := Bool.eq_iff_iff.mpr (hflag.trans hpassed.symm)
  have houtcome : verdict.outcome.value = if passed then lit "resolved" else "unresolved" := by
    have hconclusive := htested.conclusive
    cases h : verdict.outcome <;> simp_all [EvaluationOutcome.value]
  cases passed <;>
    simp [verdictReported, evalReport, hresolved, houtcome, Json.isTrue, Json.isFalse, Json.eqStr]

/-- A reader that agrees with the verdict accepts the written report, the identities being proved. -/
theorem directEvalDone_of_readerAgrees {expectation : Obj}
    (hverdict : deriveEvalVerdict artifacts run = .ok verdict)
    (htested : TestedSnapshot artifacts run verdict)
    (hidentity : IdentityProven env context artifacts run verdict expected expectation)
    (hagrees : ReaderAgrees env context artifacts verdict expected) :
    directEvalDoneHasExecutionProof env (evalReport context artifacts run verdict) expected =
      .ok true := by
  obtain ⟨f2p, p2p, hf2p, hp2p, hresolved⟩ := hagrees
  have hexpects : (evalReport context artifacts run verdict).get "candidate_expectation" =
      .dict expectation := by simp [evalReport, hidentity.expects]
  have hstatus : (evalReport context artifacts run verdict).get "tests_status" =
      .dict (testsStatusDocument context artifacts verdict) := by simp [evalReport]
  have hnotRejected : candidateRejected env (evalReport context artifacts run verdict)
      expectation = .ok false := by
    have hfailure : (evalReport context artifacts run verdict).get
        "candidate_projection_failure" = artifacts.candidateProjectionFailure := by
      simp [evalReport]
    rw [candidateRejected, hfailure]
    split
    next failure hdict => rw [← hdict, hidentity.notRejected]; rfl
    next => rfl
  have hprepared : (preparationStatusFields.any fun field =>
      ((testsStatusDocument context artifacts verdict).get field).asInt != some 0) = false := by
    simp [preparationStatusFields, testsStatusDocument, htested.baseCommit, htested.service,
      htested.before, htested.postBeforeBase, htested.modelPatch, htested.testPatch]
  have hreported : verdictReported (evalReport context artifacts run verdict)
      (f2p == 0 && p2p == 0) = true := by
    refine verdictReported_evalReport htested ?_ ?_
    · exact deriveEvalVerdict_resolved_flag artifacts run hverdict
    · simpa using hresolved
  rw [directEvalDoneHasExecutionProof, verdictFieldsValid_evalReport htested,
    hidentity.specification, hidentity.warnings, hexpects, hstatus]
  simp [hidentity.task, hnotRejected, hidentity.projection, hprepared, testedProof, hf2p, hp2p,
    hidentity.runtimeFiles, hreported, -List.any_eq_false, -List.any_eq_true]

/-- A verdict that the tests reached is accepted by the reader exactly when both groups are decided:
no batch of a group is unknown, or one of them was proved to fail. -/
theorem reportAccepted_iff (hwritten : WrittenEvidence env context artifacts)
    (hplans : ExpectsWrittenPlans context expected)
    (hverdict : deriveEvalVerdict artifacts run = .ok verdict)
    (hdecided : DecidedByTests artifacts run verdict) :
    (ReaderAgrees env context artifacts verdict expected ∧
      ∀ expectation,
        IdentityProven env context artifacts run verdict expected expectation →
          directEvalDoneHasExecutionProof env (evalReport context artifacts run verdict) expected =
            .ok true) ↔
      BothGroupsDecided artifacts run := by
  have htested := testedSnapshot_of_decided hverdict hdecided
  rw [← readerAgrees_iff hwritten hplans htested]
  refine and_iff_left_of_imp fun hagrees expectation hidentity => ?_
  exact directEvalDone_of_readerAgrees hverdict htested hidentity hagrees

end Written

/-- The plan of one Go target in the root package. -/
def goTargetPlan (file test : String) : Obj := .of
  [("schema", .str planSchema), ("adapter", "go-test-json"), ("coverage", "exact_test_events"),
    ("coverage_verified", .bool true), ("declared_targets", Json.strs [file ++ "::" ++ test]),
    ("target_batches", .list [Json.strs [file ++ "::" ++ test]]),
    ("commands", Json.strs [goExactCommand "." test]),
    ("proofs", .list [.dict (Obj.of [("kind", "go_json_test_pass"), ("test", test),
      ("package", "."), ("test_file", file)])]),
    ("runtime_dependencies", .list [])]

/-- The evidence of a batch that ran as planned. -/
def batchEvidence (status : Int) (passed failed : Bool) : Obj := .of
  [("status", .int status), ("command_matches_plan", .bool true),
    ("log_artifact_safe", .bool true), ("artifact_safe", .bool true),
    ("target_proof_matches_plan", .bool passed),
    ("target_failure_proof_matches_plan", .bool failed),
    ("target_skip_proof_matches_plan", .bool false)]

/-- The identity fields of a candidate whose base is not named. -/
def namedIdentity : Obj := .of
  [("instance_id", "task"), ("record_id", "record"),
    ("run_identity_sha256", .str (List.replicate 64 97)),
    ("source_patch_sha256", .str (List.replicate 64 98)),
    ("eval_patch_sha256", .str (List.replicate 64 99)),
    ("source_base_commit", ""), ("source_anonymous_base", ""), ("source_base_tree", ""),
    ("source_candidate_tree", ""), ("expected_candidate_tree", "")]

/-- The expectation of that candidate. -/
def namedExpectation : Obj :=
  (lit "schema", "opencollab.eval_candidate_expectation.v1") :: namedIdentity

/-- A context with two Go plans. -/
def goContext : EvalContext where
  task := "task"
  recordId := "record"
  patchSha256 := List.replicate 64 98
  evalSpecSha256 := List.replicate 64 100
  sourcePatchSha256 := .str (List.replicate 64 98)
  evalPatchSha256 := .str (List.replicate 64 99)
  filteredPatchPaths := .list []
  gitlinkProbe := .null
  evalImageId := ""
  candidateExpectation := .dict namedExpectation
  runtimeDependencyIdentities := .null
  modelPatchChars := 0
  evalModelPatchChars := 0
  failToPass := Json.strs ["a_test.go::TestA"]
  passToPass := Json.strs ["b_test.go::TestB"]
  f2pPlan := goTargetPlan "a_test.go" "TestA"
  p2pPlan := goTargetPlan "b_test.go" "TestB"
  scoringAdapterReceipt := .null

/-- A snapshot whose candidate was applied, with one batch in each group. -/
def testedSnapshot (f2pStatus p2pStatus : Int) (f2p p2p : Obj) : ArtifactSnapshot where
  outputArtifactErrors := []
  baseCommitStatus := 0
  baseSnapshot := .dict (Obj.of [("status", "verified")])
  candidateProjectionFailure := .dict []
  candidateProjection := .dict (Obj.of
    [("schema", "opencollab.eval_candidate_projection.v1"), ("status", "verified"),
      ("base_commit", .str (List.replicate 40 97)), ("base_tree", .str (List.replicate 40 98)),
      ("candidate_tree", .str (List.replicate 40 99)), ("generation_tree_matches", .null)] ++
    namedIdentity)
  sourceCandidateProjection := .null
  runtimeDependencies := .dict []
  serviceStatus := 0
  beforeStatus := 0
  postBeforeBaseStatus := 0
  modelStatus := 0
  testStatus := 0
  f2pStatus
  p2pStatus
  f2pLogTail := []
  p2pLogTail := []
  f2pEvidence := [f2p]
  p2pEvidence := [p2p]
  f2pExecutionEvidenceComplete := true
  p2pExecutionEvidenceComplete := true
  f2pCommand := []
  p2pCommand := []
  diagnosticArtifactErrors := []
  operationalWarnings := []
  serviceBootstrapLogTail := []
  baseCommitLogTail := []
  beforeRepoLogTail := []
  modelPatchLogTail := []
  testPatchLogTail := []

/-- A container that ended cleanly and was removed. -/
def cleanRun : RunCompletion := ⟨0, true, Obj.of [("ok", .bool true)], false⟩

/-- The verdict of a clean run. -/
def cleanVerdict (outcome : EvaluationOutcome) (basis : String) : EvalVerdict where
  passToPassSkipsAllowed := false
  outcome
  outcomeBasis := [basis]
  technicalReasons := []
  technicalError := false
  resolved := outcome = .resolved
  summaryStatus := "done"
  outputArtifactErrors := []
  operationalWarnings := []

/-- A reader without expectations of its own. -/
def anyReport : ExpectedReport := ⟨[], none, none, false⟩

/-- Both Go plans are trusted. -/
theorem goTargetPlans_trusted :
    validatedTestPlanKind asciiEnv (.dict (goTargetPlan "a_test.go" "TestA")) true =
        .ok (some (lit "go-test-json")) ∧
      validatedTestPlanKind asciiEnv (.dict (goTargetPlan "b_test.go" "TestB")) true =
        .ok (some (lit "go-test-json")) := by
  decide +kernel

/-- Both Go plans are trusted and ran their one batch. -/
theorem writtenEvidence_goContext {f2pStatus p2pStatus : Int} {f2p p2p : Obj}
    (hf2p : f2p.get "status" = .int f2pStatus) (hp2p : p2p.get "status" = .int p2pStatus) :
    WrittenEvidence asciiEnv goContext (testedSnapshot f2pStatus p2pStatus f2p p2p) := by
  have hplanned (file test : String) {item : Obj} {status : Int}
      (h : item.get "status" = .int status) :
      PlannedEvidence (goTargetPlan file test) [item] status := by
    refine ⟨by simp [goTargetPlan, Json.strs], ?_, ?_⟩
    · simpa [HasStatuses] using ⟨status, h⟩
    · by_cases hzero : status = 0 <;> simp [firstNonzeroStatus, batchStatuses, h, hzero]
  exact ⟨⟨"go-test-json", goTargetPlans_trusted.1⟩, ⟨"go-test-json", goTargetPlans_trusted.2⟩,
    hplanned _ _ hf2p, hplanned _ _ hp2p⟩

/-- A report of two passed batches is accepted. -/
theorem reportAccepted_both_passed :
    directEvalDoneHasExecutionProof asciiEnv
        (evalReport goContext (testedSnapshot 0 0 (batchEvidence 0 true false)
          (batchEvidence 0 true false)) cleanRun
          (cleanVerdict .resolved "all_declared_targets_passed")) anyReport = .ok true := by
  have hdecided : BothGroupsDecided (testedSnapshot 0 0 (batchEvidence 0 true false)
      (batchEvidence 0 true false)) cleanRun := by
    refine ⟨.inl ?_, .inl ?_⟩ <;> decide +kernel
  refine ((reportAccepted_iff (writtenEvidence_goContext rfl rfl) ⟨by simp [anyReport],
    by simp [anyReport]⟩ rfl (.inl rfl)).mpr hdecided).2 namedExpectation ?_
  exact {
    specification := by decide +kernel
    warnings := by decide +kernel
    expects := rfl
    task := by decide +kernel
    notRejected := by decide +kernel
    projection := by decide +kernel
    runtimeFiles := by decide +kernel }

/-- One failed batch decides the verdict, yet the reader finds no result in the group whose only
batch is unknown. -/
theorem readerAgrees_fails_at_unknown_batch :
    ∃ artifacts verdict, WrittenEvidence asciiEnv goContext artifacts ∧
      ExpectsWrittenPlans goContext anyReport ∧
      deriveEvalVerdict artifacts cleanRun = .ok verdict ∧ verdict.outcome = .unresolved ∧
      DecidedByTests artifacts cleanRun verdict ∧
      directEvalPlanStatus asciiEnv (testsStatusDocument goContext artifacts verdict)
        "pass_to_pass" none false = .ok none ∧
      ¬ReaderAgrees asciiEnv goContext artifacts verdict anyReport := by
  have hnone : directEvalPlanStatus asciiEnv (testsStatusDocument goContext
      (testedSnapshot 1 2 (batchEvidence 1 false true) (batchEvidence 2 false false))
      (cleanVerdict .unresolved "declared_target_failed")) "pass_to_pass" none false =
        .ok none := by decide +kernel
  refine ⟨testedSnapshot 1 2 (batchEvidence 1 false true) (batchEvidence 2 false false),
    cleanVerdict .unresolved "declared_target_failed", writtenEvidence_goContext rfl rfl,
    ⟨by simp [anyReport], by simp [anyReport]⟩, rfl, rfl, .inr ⟨rfl, rfl⟩, hnone, ?_⟩
  rintro ⟨f2p, p2p, -, hp2p, -⟩
  rw [show anyReport.p2pPlan = none from rfl, hnone] at hp2p
  simp at hp2p

end OpenCollabEval
