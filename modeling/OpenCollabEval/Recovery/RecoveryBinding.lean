import OpenCollabEval.Recovery.TechnicalQueue

/-!
# What a recovery attempt is bound to

An attempt that only evaluates carries the binding of a proven generation. An attempt that generates is
never planned over a single row whose generation reports a complete candidate.
-/

open Python

namespace OpenCollabEval

variable {env : Env} {decimal : Nat → Option Nat} {patchBudget : Int} {result : Obj}

/-- A generation whose candidate may be evaluated again. -/
structure ProvenGeneration (patchBudget : Int) (generation : Obj) : Prop where
  status : generation.get "status" = .str "generation_done"
  integrity : generation.get "submission_integrity" = .str "proven"
  quiesced : (generation.get "execution_quiesced").isTrue = true
  proof : currentGenerationSummaryProofValid patchBudget generation = .ok true

/-- A generation that reports a candidate in full: a positive length, and two well-formed digests that
are not those of the empty patch. -/
def ReportsCandidate (env : Env) (decimal : Nat → Option Nat) (generation : Obj) : Prop :=
  candidateFieldsPresent env decimal generation = .ok true

theorem reportsCandidate_iff (generation : Obj) : ReportsCandidate env decimal generation ↔
    ∃ patchLen, (orElse (generation.get "patch_len") (.int 0)).toInt decimal = .ok patchLen ∧
      0 < patchLen ∧ nonemptyPatchSha env (sourcePatchSha env generation) = true ∧
      nonemptyPatchSha env (evalPatchSha env generation) = true := by
  unfold ReportsCandidate candidateFieldsPresent
  split
  · simp_all
  · simp_all
  · simp_all
  · next patchLen h => simp [h, and_assoc]

/-- The one row of a result. -/
theorem oneRow_eq_some_iff (row : Obj) :
    oneRow result = some row ↔ result.get "rows" = .list [.dict row] := by
  unfold oneRow
  split
  · next row' h => cases row' <;> simp [h, Json.asDict]
  · next h =>
    constructor
    · simp
    · intro hrows
      exact absurd hrows (h _)

/-- A generation with a text field is a dict of the row. -/
theorem get_generation_of_status {row : Obj} {text : Str}
    (h : (rowGeneration row).get "status" = .str text) :
    row.get "generation" = .dict (rowGeneration row) := by
  unfold rowGeneration at h ⊢
  cases hgeneration : row.get "generation" with
  | dict generation => rfl
  | _ => simp [hgeneration, Json.asDict] at h

/-- A function that may give up with `None` finds something exactly when it does not. -/
theorem giveUp_eq_ok_some_iff {α : Type} {c : Bool} {y : Except PyErr (Option α)} {a : α} :
    (if c = true then pure none else y) = .ok (some a) ↔ c = false ∧ y = .ok (some a) := by
  cases c <;> simp

/-- A binding comes from the one row of the result, and its generation is proven. -/
theorem candidateBindingFromResult_eq_some {binding : CandidateBinding}
    (h : candidateBindingFromResult env decimal patchBudget result = .ok (some binding)) :
    ∃ row, oneRow result = some row ∧ binding = candidateBinding env result row ∧
      ProvenGeneration patchBudget (rowGeneration row) ∧
      ReportsCandidate env decimal (rowGeneration row) ∧
      binding.task ≠ [] ∧ binding.recordId ≠ [] ∧ binding.baseRunDir ≠ [] := by
  unfold candidateBindingFromResult at h
  rcases hrow : oneRow result with _ | row
  · rw [hrow] at h
    cases h
  · rw [hrow] at h
    obtain ⟨hfields, h⟩ := giveUp_eq_ok_some_iff.mp h
    obtain ⟨proven, hproof, h⟩ := bind_eq_ok_iff.mp h
    obtain ⟨hproven, h⟩ := giveUp_eq_ok_some_iff.mp h
    obtain ⟨htexts, h⟩ := giveUp_eq_ok_some_iff.mp h
    obtain ⟨present, hpresent, h⟩ := bind_eq_ok_iff.mp h
    obtain ⟨hcomplete, h⟩ := giveUp_eq_ok_some_iff.mp h
    cases h
    simp only [Bool.not_eq_false', Bool.and_eq_true, Json.eqStr_iff] at hfields hproven hcomplete
    simp only [Bool.or_eq_false_iff, List.isEmpty_eq_false_iff] at htexts
    obtain ⟨⟨hstatus, hintegrity⟩, hquiesced⟩ := hfields
    rw [hproven] at hproof
    rw [hcomplete] at hpresent
    exact ⟨row, rfl, rfl, ⟨hstatus, hintegrity, hquiesced, hproof⟩, hpresent,
      htexts.1.1, htexts.1.2, htexts.2⟩

/-- A result that is not blocked and reports a candidate in full has a binding. -/
theorem exists_binding_of_not_blocked {row : Obj}
    (h : recoveryBlockReason env decimal patchBudget result = .ok []) (hrow : oneRow result = some row)
    (hcandidate : ReportsCandidate env decimal (rowGeneration row)) :
    ∃ binding, candidateBindingFromResult env decimal patchBudget result = .ok (some binding) := by
  have hevidence : resultHasNonemptyCandidateEvidence env decimal result = .ok true := by
    unfold resultHasNonemptyCandidateEvidence
    rw [hrow]
    exact hcandidate
  unfold recoveryBlockReason at h
  obtain ⟨failed, -, h⟩ := bind_eq_ok_iff.mp h
  -- every other block reason is a text
  split at h
  · cases h
  dsimp only at h
  split at h
  · cases h
  split at h
  · cases h
  rw [hevidence, ok_bind] at h
  obtain ⟨found, hfound, h⟩ := bind_eq_ok_iff.mp h
  rcases found with _ | binding
  · cases h
  · exact ⟨binding, hfound⟩

section Plan

variable {readReport : PosixPath → Option (List Nat)} {config : QueueConfig} {ordinal : Int}
  {attempt : RecoveryAttempt}

/-- What a planned attempt has passed: no block reason applies, and its candidate is the binding of the
result. -/
theorem planRecoveryAttempt_eq_some
    (h : planRecoveryAttempt env decimal patchBudget readReport config result ordinal =
      .ok (some attempt)) :
    recoveryBlockReason env decimal patchBudget result = .ok [] ∧
      candidateBindingFromResult env decimal patchBudget result = .ok attempt.candidate ∧
      attempt.mode = if attempt.candidate.isSome then .evalOnly else .generation := by
  unfold planRecoveryAttempt at h
  obtain ⟨reason, hreason, h⟩ := bind_eq_ok_iff.mp h
  obtain ⟨hempty, h⟩ := giveUp_eq_ok_some_iff.mp h
  obtain ⟨value, -, h⟩ := bind_eq_ok_iff.mp h
  obtain ⟨index, -, h⟩ := bind_eq_ok_iff.mp h
  obtain ⟨candidate, hcandidate, h⟩ := bind_eq_ok_iff.mp h
  obtain ⟨attempts, -, h⟩ := bind_eq_ok_iff.mp h
  cases h
  obtain rfl : reason = [] := by simpa using hempty
  exact ⟨hreason, hcandidate, rfl⟩

/-- An attempt that only evaluates is bound to the one row of the result: its generation is proven, and
the record and the digests of the binding are those of the generation. An attempt that generates has no
binding, and is not planned over one row whose generation reports a candidate in full. -/
theorem plan_recovery_attempt_sound
    (h : planRecoveryAttempt env decimal patchBudget readReport config result ordinal =
      .ok (some attempt)) :
    (attempt.mode = .evalOnly → ∃ row generation : Obj,
      result.get "rows" = .list [.dict row] ∧ row.get "generation" = .dict generation ∧
        ProvenGeneration patchBudget generation ∧ ReportsCandidate env decimal generation ∧
        attempt.candidate = some {
          task := Str.strip (env.strOrEmpty (orElse (row.get "task") (generation.get "task")))
          recordId := Str.strip (env.strOrEmpty (generation.get "record_id"))
          sourcePatchSha256 := sourcePatchSha env generation
          evalPatchSha256 := evalPatchSha env generation
          baseRunDir := candidateBaseRunDir env result } ∧
        ∀ binding ∈ attempt.candidate,
          binding.task ≠ [] ∧ binding.recordId ≠ [] ∧ binding.baseRunDir ≠ []) ∧
      (attempt.mode = .generation → attempt.candidate = none ∧ ∀ row generation : Obj,
        result.get "rows" = .list [.dict row] → row.get "generation" = .dict generation →
          ¬ReportsCandidate env decimal generation) := by
  obtain ⟨hblocked, hcandidate, hmode⟩ := planRecoveryAttempt_eq_some h
  rcases hbinding : attempt.candidate with _ | binding
  · rw [hbinding] at hcandidate hmode
    refine ⟨fun heval => ?_, fun _ => ⟨rfl, ?_⟩⟩
    · rw [heval] at hmode
      cases hmode
    · intro row generation hrows hgeneration hreports
      have hrow : oneRow result = some row := (oneRow_eq_some_iff row).mpr hrows
      have hsame : rowGeneration row = generation := by
        rw [rowGeneration, hgeneration]
        rfl
      obtain ⟨binding, hbinding⟩ := exists_binding_of_not_blocked hblocked hrow (hsame ▸ hreports)
      rw [hcandidate] at hbinding
      cases hbinding
  · rw [hbinding] at hcandidate hmode
    refine ⟨fun _ => ?_, fun hgeneration => ?_⟩
    · obtain ⟨row, hrow, rfl, hproven, hreports, htexts⟩ :=
        candidateBindingFromResult_eq_some hcandidate
      refine ⟨row, rowGeneration row, (oneRow_eq_some_iff row).mp hrow,
        get_generation_of_status hproven.status, hproven, hreports, rfl, ?_⟩
      rintro _ ⟨⟩
      exact htexts
    · rw [hgeneration] at hmode
      cases hmode

end Plan

section Sample

/-- A snapshot of a solver that removed nothing. -/
def sampleSnapshot : Obj := .of
  [("enabled", .bool true), ("anonymous_head", .str (List.replicate 40 49)),
    ("base_tree", .str (List.replicate 40 50)), ("workspace_sha256", .str (List.replicate 64 51)),
    ("commit_count", .int 1), ("remote_count", .int 0), ("extra_git_metadata", .int 0),
    ("removed_git_metadata", .int 0), ("removed_gitlinks", .list []),
    ("materialized_gitlinks", .list []), ("expected_base_commit", .str (List.replicate 40 52)),
    ("workspace_integrity", .dict (Obj.of [("schema", "opencollab.workspace_integrity.v1"),
      ("failure_scope", "none"), ("outcome", "allow"), ("findings", .list [])]))]

/-- The digest of the candidate patch. -/
def sampleDigest : Str := List.replicate 64 97

/-- An extraction of a patch that changes one file. -/
def sampleExtraction : Obj := .of
  [("schema", "opencollab.trusted_patch_extraction.v1"), ("host_trusted", .bool true),
    ("fixed_anonymous_base", .str (List.replicate 40 49)), ("base_tree", .str (List.replicate 40 50)),
    ("archive_bounded", .bool true), ("baseline_archive_sha256", .str (List.replicate 64 53)),
    ("baseline_archive_bytes", .int 1), ("baseline_archive_entries", .int 1),
    ("baseline_extracted_bytes", .int 1), ("workspace_archive_sha256", .str (List.replicate 64 54)),
    ("workspace_archive_bytes", .int 1), ("workspace_archive_entries", .int 1),
    ("workspace_extracted_bytes", .int 1), ("archive_byte_limit", .int maxWorkspaceArchiveBytes),
    ("extracted_byte_limit", .int maxExtractedBytes), ("file_byte_limit", .int maxArchivedFileBytes),
    ("entry_limit", .int maxWorkspaceArchiveEntries), ("patch_byte_limit", .int 1000),
    ("container_quiesced_before", .bool true), ("container_quiesced_after", .bool true),
    ("workspace_frozen_during_copy", .bool true), ("patch_sha256", .str sampleDigest),
    ("patch_bytes", .int 10), ("candidate_tree", .str (List.replicate 40 55)),
    ("changed_paths", .list ["a.py"]),
    ("path_modes", .list [.dict (Obj.of
      [("path", "a.py"), ("old_mode", "100644"), ("new_mode", "100644")])]),
    ("workspace_integrity", .dict (Obj.of [("schema", "opencollab.workspace_integrity.v1"),
      ("failure_scope", "none"), ("outcome", "allow"), ("findings", .list [])]))]

/-- A proven generation of the task `a`. -/
def sampleGeneration : Obj := .of
  [("status", "generation_done"), ("submission_integrity", "proven"),
    ("execution_quiesced", .bool true),
    ("generation_image_id", .str (lit "sha256:" ++ List.replicate 64 56)),
    ("solver_git_snapshot", .dict sampleSnapshot),
    ("trusted_patch_extraction", .dict sampleExtraction), ("patch_sha256", .str sampleDigest),
    ("patch_len", .int 10), ("record_id", "r"), ("task", "a")]

/-- A technical result of one row, which names the task `b`. -/
def sampleResult : Obj := .of
  [("index", .int 1), ("technical_failed", .int 1), ("base_run_dir", "/runs/b"),
    ("rows", .list [.dict (Obj.of [("task", "b"), ("generation", .dict sampleGeneration)])])]

/-- A technical result of two rows that report the same candidate. -/
def twoRowResult : Obj := .of
  [("index", .int 1), ("technical_failed", .int 1), ("base_run_dir", "/runs/b"),
    ("rows", .list [.dict (Obj.of [("task", "b"), ("generation", .dict sampleGeneration)]),
      .dict (Obj.of [("task", "b"), ("generation", .dict sampleGeneration)])])]

/-- A queue that reads no reports. -/
def samplePlan (result : Obj) : Except PyErr (Option RecoveryAttempt) :=
  planRecoveryAttempt asciiEnv asciiDecimal 1000 (fun _ => none)
    ⟨"q", PosixPath.ofStr "/out", "/remote"⟩ result 1

/-- What is planned for the two results, evaluated together. -/
theorem samplePlan_runs :
    ((samplePlan sampleResult).toOption.any fun attempt => attempt.any fun attempt =>
      attempt.mode = .evalOnly && attempt.candidate.any fun binding =>
        binding.task == lit "b" && binding.baseRunDir == lit "/runs/b") = true ∧
      ((samplePlan twoRowResult).toOption.any fun attempt => attempt.any fun attempt =>
        attempt.mode = .generation) = true := by
  decide +kernel

/-- The recovery of the sample evaluates its candidate again. -/
theorem exists_sampleAttempt :
    ∃ attempt, samplePlan sampleResult = .ok (some attempt) ∧ attempt.mode = .evalOnly := by
  obtain ⟨found, hfound, hany⟩ := exists_of_any_toOption samplePlan_runs.1
  obtain ⟨attempt, rfl, hplanned⟩ := (Option.any_eq_true _ _).mp hany
  rw [Bool.and_eq_true, decide_eq_true_eq] at hplanned
  exact ⟨attempt, hfound, hplanned.1⟩

theorem plan_recovery_attempt_sound_sample : ∃ attempt,
    samplePlan sampleResult = .ok (some attempt) ∧ ∃ row generation : Obj,
      sampleResult.get "rows" = .list [.dict row] ∧ row.get "generation" = .dict generation ∧
        ProvenGeneration 1000 generation := by
  obtain ⟨attempt, hattempt, hmode⟩ := exists_sampleAttempt
  obtain ⟨row, generation, hrow, hgeneration, hproven, -⟩ :=
    (plan_recovery_attempt_sound hattempt).1 hmode
  exact ⟨attempt, hattempt, row, generation, hrow, hgeneration, hproven⟩

/-- The task of an attempt that only evaluates is that of the row, and its base run directory is that of
the result; the generation has another task and no directory. Two rows with a candidate each do not
keep a generation from being planned. -/
theorem recovery_attempt_not_from_generation :
    ((samplePlan sampleResult).toOption.any fun attempt => attempt.any fun attempt =>
      attempt.mode = .evalOnly && attempt.candidate.any fun binding =>
        binding.task == lit "b" && binding.baseRunDir == lit "/runs/b") = true ∧
      sampleGeneration.get "task" = .str "a" ∧ sampleGeneration.has "base_run_dir" = false ∧
      ((samplePlan twoRowResult).toOption.any fun attempt => attempt.any fun attempt =>
        attempt.mode = .generation) = true :=
  ⟨samplePlan_runs.1, rfl, rfl, samplePlan_runs.2⟩

end Sample

end OpenCollabEval
