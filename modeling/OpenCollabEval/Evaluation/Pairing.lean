import OpenCollabEval.Evaluation.RecordIdentity

/-!
# Pairing of predictions and metrics

A prediction row and the metric row of the same attempt are found by record id, else by patch
digest, else by position. The runner (`latestPair`) and the status tool (`latestPairedRows`) each
have their own procedure; `pairing_safe_iff` says when both select the same metric and that metric
has the identity of the prediction.
-/

open Python

namespace OpenCollabEval

/-- The task of a row. -/
def rowTaskId (row : Obj) : Str :=
  (taskIdentityAliasValue (.dict row) ["instance_id", "task_id", "id"]).getD []

/-- The record id of a row, empty when its aliases disagree. -/
def rowRecordId (row : Obj) : Str :=
  (directPayloadAliasValue (.dict row) ["record_id", "attempt_id", "workflow_record_id"]).getD []

/-- The digest that a row names for its patch, empty when its aliases disagree. -/
def rowExplicitPatchSha (row : Obj) : Str :=
  (directPayloadAliasValue (.dict row)
    ["patch_sha256", "patch_sha", "model_patch_sha256"]).getD []

/-- Two digests are well formed and equal up to hexadecimal case. -/
def patchShaMatches (left right : Str) : Bool :=
  !left.isEmpty && !right.isEmpty && isSha256 left && isSha256 right &&
    lowerHex left == lowerHex right

/-- A prediction, the metric that belongs to it, and how the two were paired. -/
structure PairedRows where
  prediction : Option Obj
  metric : Option Obj
  status : Str

section Pairing

variable (env : Env)

/-- The patch of a row. -/
def predictionPatch (row : Obj) : Str :=
  if (row.get "model_patch").truthy then env.str (row.get "model_patch")
  else env.strOrEmpty (row.get "patch")

/-- The digest of a patch, empty for an empty patch. -/
def patchSha (patch : Str) : Str :=
  if patch.isEmpty then [] else env.sha256 patch.encodeSurrogatePass

/-- The patch digest of a row: of its patch, or else the one it names. -/
def rowPatchSha (row : Obj) : Str :=
  if (predictionPatch env row).isEmpty then rowExplicitPatchSha row
  else patchSha env (predictionPatch env row)

/-- The metric that a prediction carries, when it has the prediction's own identity. -/
def embeddedWorkflowMetric (row : Obj) : Option Obj := do
  let metric ← (row.get "workflow_metric").asDict
  if rowTaskId metric == rowTaskId row && rowRecordId metric == rowRecordId row &&
      patchShaMatches (rowPatchSha env row) (rowPatchSha env metric) then some metric
  else none

/-- The rows of a task. -/
def taskRows (rows : List Obj) (task : Str) : List Obj := rows.filter (rowTaskId · == task)

section Runner

/- How a stopped or failed attempt is recovered, and how a metric is shown for an adopted patch. -/
variable (recovered : Obj → Obj → Option (Obj × Obj)) (view : Obj → Str → Obj)

/-- The runner's metric for a prediction that names no record. -/
def latestPairByPatch (prediction : Obj) (metrics : List Obj) : PairedRows :=
  let currentSha := rowPatchSha env prediction
  if currentSha.isEmpty then ⟨some prediction, metrics.getLast?, "legacy_latest"⟩
  else
    match metrics.reverse.find? (fun metric => patchShaMatches (rowPatchSha env metric) currentSha) with
    | some metric => ⟨some prediction, view metric (predictionPatch env prediction), "patch_sha"⟩
    | none =>
      match embeddedWorkflowMetric env prediction with
      | some metric =>
        ⟨some prediction, view metric (predictionPatch env prediction), "embedded_metric"⟩
      | none => ⟨some prediction, none, "missing_metric_for_patch_sha"⟩

/-- The runner's metric for a prediction that names its record. -/
def latestPairByRecord (prediction : Obj) (metrics : List Obj) : PairedRows :=
  let currentSha := rowPatchSha env prediction
  match (metrics.filter (rowRecordId · == rowRecordId prediction)).getLast? with
  | none =>
    match embeddedWorkflowMetric env prediction with
    | some metric =>
      ⟨some prediction, view metric (predictionPatch env prediction), "embedded_metric"⟩
    | none => ⟨some prediction, none, "missing_metric_for_record_id"⟩
  | some metric =>
    let metricSha := rowPatchSha env metric
    if !currentSha.isEmpty && !metricSha.isEmpty && !patchShaMatches metricSha currentSha then
      ⟨some prediction, none, "record_id_patch_sha_mismatch"⟩
    else if !currentSha.isEmpty && metricSha.isEmpty then
      ⟨some prediction, none, "record_id_patch_sha_missing"⟩
    else
      match recovered prediction metric with
      | some pair => ⟨some pair.1, some pair.2, "recovered_record_id"⟩
      | none => ⟨some prediction, view metric (predictionPatch env prediction), "record_id"⟩

/-- The runner's last prediction of a task, with its metric. -/
def latestPair (predictions metrics : List Obj) (task : Str) : PairedRows :=
  match (taskRows predictions task).getLast? with
  | none => ⟨none, none, "missing_prediction"⟩
  | some prediction =>
    if (rowRecordId prediction).isEmpty then
      latestPairByPatch env view prediction (taskRows metrics task)
    else latestPairByRecord env recovered view prediction (taskRows metrics task)

end Runner

/-- The status tool's metric for a prediction. -/
def pairedMetric (prediction : Obj) (metrics : List Obj) : PairedRows :=
  let currentSha := rowPatchSha env prediction
  let embedded (status : Str) : PairedRows :=
    match embeddedWorkflowMetric env prediction with
    | some metric => ⟨some prediction, some metric, "embedded_metric"⟩
    | none => ⟨some prediction, none, status⟩
  if !(rowRecordId prediction).isEmpty then
    match (metrics.filter (rowRecordId · == rowRecordId prediction)).getLast? with
    | some metric =>
      let metricSha := rowPatchSha env metric
      if !currentSha.isEmpty && !metricSha.isEmpty && !patchShaMatches metricSha currentSha then
        ⟨some prediction, none, "record_id_patch_sha_mismatch"⟩
      else if !currentSha.isEmpty && metricSha.isEmpty then
        ⟨some prediction, none, "record_id_patch_sha_missing"⟩
      else ⟨some prediction, some metric, "record_id"⟩
    | none => embedded "missing_metric_for_record_id"
  else if !currentSha.isEmpty then
    match metrics.reverse.find? (fun metric => patchShaMatches (rowPatchSha env metric) currentSha) with
    | some metric => ⟨some prediction, some metric, "patch_sha"⟩
    | none => embedded "missing_metric_for_patch_sha"
  else
    match (metrics.filter fun row =>
        (rowRecordId row).isEmpty && (rowExplicitPatchSha row).isEmpty).getLast? with
    | some metric => ⟨some prediction, some metric, "legacy_latest"⟩
    | none => ⟨some prediction, none, "missing_metric"⟩

/-- The status tool's last prediction of a task, with its metric. -/
def latestPairedRows (predictions metrics : List Obj) (task : Str) : PairedRows :=
  match (taskRows predictions task).getLast? with
  | none => ⟨none, (taskRows metrics task).getLast?, "missing_prediction"⟩
  | some prediction => pairedMetric env prediction (taskRows metrics task)

/-- The metric row that the runner selects, before it is shown for an adopted patch and where no
failed attempt is recovered. -/
def runnerMetric (predictions metrics : List Obj) (task : Str) : Option Obj :=
  (latestPair env (fun _ _ => none) (fun metric _ => metric) predictions metrics task).metric

/-- A metric carries the identity of a prediction: its record id and its patch digest, if either of
the two rows has one. -/
structure CarriesIdentity (prediction metric : Obj) : Prop where
  recordId : rowRecordId prediction ≠ [] ∨ rowRecordId metric ≠ [] →
    rowRecordId metric = rowRecordId prediction
  patchSha : rowPatchSha env prediction ≠ [] ∨ rowPatchSha env metric ≠ [] →
    patchShaMatches (rowPatchSha env metric) (rowPatchSha env prediction) = true

/-- The metrics that the identity of a prediction leaves: those of its record, else those of its
patch, else all. -/
def identityMetrics (prediction : Obj) (metrics : List Obj) : List Obj :=
  if rowRecordId prediction ≠ [] then metrics.filter (rowRecordId · == rowRecordId prediction)
  else if rowPatchSha env prediction ≠ [] then
    metrics.filter (fun metric => patchShaMatches (rowPatchSha env metric) (rowPatchSha env prediction))
  else metrics

/-- A metric has no identity that the prediction lacks. -/
def AddsNoIdentity (prediction metric : Obj) : Prop :=
  (rowRecordId prediction = [] → rowRecordId metric = []) ∧
    (rowPatchSha env prediction = [] → rowPatchSha env metric = [])

variable {env : Env} {prediction metric : Obj} {metrics : List Obj}

/-- Digests that match are there. -/
theorem patchShaMatches_ne_nil {left right : Str} (h : patchShaMatches left right = true) :
    left ≠ [] ∧ right ≠ [] := by
  simp only [patchShaMatches, Bool.and_eq_true, Bool.not_eq_true', List.isEmpty_eq_false_iff] at h
  exact ⟨h.1.1.1.1, h.1.1.1.2⟩

/-- Matching digests match in both directions. -/
theorem patchShaMatches_comm (left right : Str) :
    patchShaMatches left right = patchShaMatches right left := by
  rw [Bool.eq_iff_iff]
  simp only [patchShaMatches, Bool.and_eq_true, beq_iff_eq]
  constructor <;> rintro ⟨⟨⟨⟨hl, hr⟩, hl'⟩, hr'⟩, heq⟩ <;> exact ⟨⟨⟨⟨hr, hl⟩, hr'⟩, hl'⟩, heq.symm⟩

/-- An embedded metric carries the identity of its prediction. -/
theorem carriesIdentity_of_embedded (h : embeddedWorkflowMetric env prediction = some metric) :
    CarriesIdentity env prediction metric := by
  obtain ⟨found, -, h⟩ := Option.bind_eq_some_iff.mp h
  split at h
  next hidentity =>
    cases h
    simp only [Bool.and_eq_true, beq_iff_eq] at hidentity
    exact ⟨fun _ => hidentity.1.2, fun _ => by rw [patchShaMatches_comm]; exact hidentity.2⟩
  next => simp at h

/-- A metric of the same record that does not contradict the patch of the prediction carries its
identity exactly when it adds none. -/
theorem carriesIdentity_iff_of_record (hrecord : rowRecordId prediction ≠ [])
    (hsame : rowRecordId metric = rowRecordId prediction)
    (hpatch : rowPatchSha env prediction ≠ [] →
      patchShaMatches (rowPatchSha env metric) (rowPatchSha env prediction) = true) :
    CarriesIdentity env prediction metric ↔ AddsNoIdentity env prediction metric := by
  constructor
  · intro h
    refine ⟨fun hnone => absurd hnone hrecord, fun hnone => ?_⟩
    by_contra hadds
    exact (patchShaMatches_ne_nil (h.patchSha (.inr hadds))).2 hnone
  · intro h
    refine ⟨fun _ => hsame, fun hsome => hpatch fun hnone => ?_⟩
    exact hsome.elim (· hnone) (· (h.2 hnone))

section SameSelection

variable (metrics)

/-- The metric of a prediction that names its record, as both procedures select it. -/
private def recordMetric (env : Env) (prediction : Obj) (metrics : List Obj) : Option Obj :=
  match (metrics.filter (rowRecordId · == rowRecordId prediction)).getLast? with
  | none => embeddedWorkflowMetric env prediction
  | some metric =>
    if rowPatchSha env prediction ≠ [] ∧
        patchShaMatches (rowPatchSha env metric) (rowPatchSha env prediction) = false then none
    else some metric

/-- The metric of a prediction that names its patch only, as both procedures select it. -/
private def patchMetric (env : Env) (prediction : Obj) (metrics : List Obj) : Option Obj :=
  ((metrics.filter fun metric =>
    patchShaMatches (rowPatchSha env metric) (rowPatchSha env prediction)).getLast?).or
      (embeddedWorkflowMetric env prediction)

private theorem latestPairByRecord_metric :
    (latestPairByRecord env (fun _ _ => none) (fun metric _ => metric) prediction metrics).metric =
      recordMetric env prediction metrics := by
  unfold latestPairByRecord recordMetric
  rcases (metrics.filter (rowRecordId · == rowRecordId prediction)).getLast? with _ | metric
  · rcases embeddedWorkflowMetric env prediction with _ | metric <;> rfl
  · by_cases hmatch : patchShaMatches (rowPatchSha env metric) (rowPatchSha env prediction) = true
    · have := patchShaMatches_ne_nil hmatch
      simp [hmatch, this]
    · by_cases hcurrent : rowPatchSha env prediction = []
      · simp [hcurrent]
      · by_cases hmetric : rowPatchSha env metric = []
        · rw [hmetric] at hmatch
          simp [hmatch, hcurrent, hmetric]
        · simp [hmatch, hcurrent, hmetric]

private theorem pairedMetric_of_record (hrecord : rowRecordId prediction ≠ []) :
    (pairedMetric env prediction metrics).metric = recordMetric env prediction metrics := by
  have hsome : (!(rowRecordId prediction).isEmpty) = true := by simpa using hrecord
  rw [← latestPairByRecord_metric, pairedMetric, if_pos hsome, latestPairByRecord]
  rcases (metrics.filter (rowRecordId · == rowRecordId prediction)).getLast? with _ | metric
  · rcases embeddedWorkflowMetric env prediction with _ | metric <;> rfl
  · rfl

private theorem latestPairByPatch_metric (hpatch : rowPatchSha env prediction ≠ []) :
    (latestPairByPatch env (fun metric _ => metric) prediction metrics).metric =
      patchMetric env prediction metrics := by
  simp only [latestPairByPatch, patchMetric, List.isEmpty_iff, hpatch, if_false, List.getLast?_filter]
  rcases metrics.reverse.find? _ with _ | metric
  · rcases embeddedWorkflowMetric env prediction with _ | metric <;> rfl
  · rfl

private theorem pairedMetric_of_patch (hrecord : rowRecordId prediction = [])
    (hpatch : rowPatchSha env prediction ≠ []) :
    (pairedMetric env prediction metrics).metric = patchMetric env prediction metrics := by
  rw [← latestPairByPatch_metric _ hpatch]
  simp only [pairedMetric, latestPairByPatch, hrecord, List.isEmpty_nil, Bool.not_true,
    Bool.false_eq_true, if_false, Bool.not_eq_true', List.isEmpty_iff, hpatch,
    List.isEmpty_eq_false_iff, not_false_eq_true, ne_eq, if_true]

end SameSelection

/-- A metric of the prediction's record is selected with its identity exactly when it adds none. -/
private theorem recordMetric_safe_iff (hrecord : rowRecordId prediction ≠ []) :
    (∀ metric, recordMetric env prediction metrics = some metric →
        CarriesIdentity env prediction metric) ↔
      ∀ metric, (metrics.filter (rowRecordId · == rowRecordId prediction)).getLast? =
        some metric → AddsNoIdentity env prediction metric := by
  unfold recordMetric
  rcases hlast : (metrics.filter (rowRecordId · == rowRecordId prediction)).getLast?
    with _ | metric
  · simpa using fun metric => carriesIdentity_of_embedded
  · have hsame : rowRecordId metric = rowRecordId prediction := by
      simpa using (List.mem_filter.mp (List.mem_of_getLast? hlast)).2
    dsimp only
    split_ifs with hmismatch
    · simp [AddsNoIdentity, hrecord, hmismatch.1]
    · have hpatch : rowPatchSha env prediction ≠ [] →
          patchShaMatches (rowPatchSha env metric) (rowPatchSha env prediction) = true :=
        fun hsome => by simpa [hsome] using hmismatch
      simpa using carriesIdentity_iff_of_record hrecord hsame hpatch

/-- A metric of the prediction's patch is selected with its identity exactly when it adds none. -/
private theorem patchMetric_safe_iff (hrecord : rowRecordId prediction = [])
    (hpatch : rowPatchSha env prediction ≠ []) :
    (∀ metric, patchMetric env prediction metrics = some metric →
        CarriesIdentity env prediction metric) ↔
      ∀ metric, (metrics.filter fun metric =>
          patchShaMatches (rowPatchSha env metric) (rowPatchSha env prediction)).getLast? =
        some metric → AddsNoIdentity env prediction metric := by
  unfold patchMetric
  rcases hlast : (metrics.filter fun metric =>
    patchShaMatches (rowPatchSha env metric) (rowPatchSha env prediction)).getLast? with _ | metric
  · simpa using fun metric => carriesIdentity_of_embedded
  · have hmatch : patchShaMatches (rowPatchSha env metric) (rowPatchSha env prediction) = true :=
      (List.mem_filter.mp (List.mem_of_getLast? hlast)).2
    simp only [Option.some_or, Option.some.injEq, forall_eq']
    constructor
    · intro h
      refine ⟨fun _ => ?_, fun hnone => absurd hnone hpatch⟩
      by_contra hadds
      exact hadds ((h.recordId (.inr hadds)).trans hrecord)
    · exact fun h => ⟨fun _ => (h.1 hrecord).trans hrecord.symm, fun _ => hmatch⟩

/-- Without any identity of the prediction, the last metric carries that identity exactly when it has
none. -/
theorem carriesIdentity_iff_of_none (hrecord : rowRecordId prediction = [])
    (hpatch : rowPatchSha env prediction = []) :
    CarriesIdentity env prediction metric ↔ AddsNoIdentity env prediction metric := by
  constructor
  · intro h
    refine ⟨fun _ => ?_, fun _ => ?_⟩
    · by_contra hadds
      exact hadds ((h.recordId (.inr hadds)).trans hrecord)
    · by_contra hadds
      exact (patchShaMatches_ne_nil (h.patchSha (.inr hadds))).2 hpatch
  · exact fun h => ⟨fun _ => (h.1 hrecord).trans hrecord.symm,
      fun hsome => absurd (h.2 hpatch) (hsome.resolve_left (· hpatch))⟩

/-- A row without any patch digest names none. -/
theorem rowExplicitPatchSha_eq_nil {row : Obj} (h : rowPatchSha env row = []) :
    rowExplicitPatchSha row = [] := by
  unfold rowPatchSha at h
  split at h
  · exact h
  next hpatch =>
    rw [patchSha, if_neg hpatch] at h
    exact absurd h (env.sha256_ne_nil _)

/-- Without any identity of the prediction, the status tool selects the last metric exactly when it
has no identity that the prediction lacks. -/
private theorem legacyMetric_safe_iff (hrecord : rowRecordId prediction = [])
    (hpatch : rowPatchSha env prediction = []) :
    ((pairedMetric env prediction metrics).metric = metrics.getLast? ∧
        ∀ metric, metrics.getLast? = some metric → CarriesIdentity env prediction metric) ↔
      ∀ metric, metrics.getLast? = some metric → AddsNoIdentity env prediction metric := by
  simp only [carriesIdentity_iff_of_none hrecord hpatch]
  refine and_iff_right_of_imp fun hadds => ?_
  simp only [pairedMetric, hrecord, hpatch, List.isEmpty_nil, Bool.not_true, Bool.false_eq_true,
    if_false]
  rcases List.eq_nil_or_concat metrics with rfl | ⟨before, last, rfl⟩
  · rfl
  · obtain ⟨hlastRecord, hlastPatch⟩ := hadds last (by simp)
    have hlegacy : ((rowRecordId last).isEmpty && (rowExplicitPatchSha last).isEmpty) = true := by
      simp [hlastRecord hrecord, rowExplicitPatchSha_eq_nil (hlastPatch hpatch)]
    simp [List.filter_append, hlegacy]

end Pairing

/-- For the last prediction of a task, the runner and the status tool select the same metric and that
metric carries the prediction's identity exactly when the last metric that the identity leaves has
none that the prediction lacks. -/
theorem pairing_safe_iff (env : Env) (predictions metrics : List Obj) (task : Str)
    (prediction : Obj) (hprediction : (taskRows predictions task).getLast? = some prediction) :
    (runnerMetric env predictions metrics task =
        (latestPairedRows env predictions metrics task).metric ∧
      ∀ metric, runnerMetric env predictions metrics task = some metric →
        CarriesIdentity env prediction metric) ↔
      ∀ metric, (identityMetrics env prediction (taskRows metrics task)).getLast? = some metric →
        AddsNoIdentity env prediction metric := by
  simp only [runnerMetric, latestPair, latestPairedRows, hprediction]
  by_cases hrecord : rowRecordId prediction = []
  · by_cases hpatch : rowPatchSha env prediction = []
    · have hlegacy := @legacyMetric_safe_iff env prediction (taskRows metrics task) hrecord hpatch
      simpa [identityMetrics, latestPairByPatch, hrecord, hpatch, eq_comm] using hlegacy
    · rw [pairedMetric_of_patch _ hrecord hpatch]
      have hsafe := @patchMetric_safe_iff env prediction (taskRows metrics task) hrecord hpatch
      simpa [identityMetrics, hrecord, hpatch, latestPairByPatch_metric _ hpatch] using hsafe
  · rw [pairedMetric_of_record _ hrecord]
    have hsafe := @recordMetric_safe_iff env prediction (taskRows metrics task) hrecord
    simpa [identityMetrics, hrecord, latestPairByRecord_metric] using hsafe

/-- A row of the first attempt at a task. -/
def attemptRow : Obj := .of
  [("instance_id", "task"), ("record_id", "attempt-1"),
    ("patch_sha256", .str (List.replicate 64 97))]

/-- A row of the same task from before attempts had an identity. -/
def legacyRow : Obj := .of [("instance_id", "task")]

/-- The metric of an attempt is paired with its prediction, past a later row of another task. -/
theorem pairing_safe_same_attempt :
    runnerMetric asciiEnv [attemptRow] [attemptRow, []] "task" =
        (latestPairedRows asciiEnv [attemptRow] [attemptRow, []] "task").metric ∧
      ∀ metric, runnerMetric asciiEnv [attemptRow] [attemptRow, []] "task" = some metric →
        CarriesIdentity asciiEnv attemptRow metric := by
  refine (pairing_safe_iff asciiEnv [attemptRow] [attemptRow, []] "task" attemptRow rfl).mpr ?_
  intro metric hmetric
  have hsame : metric = attemptRow := (Option.some.inj hmetric).symm
  subst hsame
  exact ⟨id, id⟩

/-- The runner lends the metric of another attempt to a prediction without an identity; the status
tool does not. -/
theorem runnerMetric_borrows :
    runnerMetric asciiEnv [legacyRow] [attemptRow] "task" = some attemptRow ∧
      (latestPairedRows asciiEnv [legacyRow] [attemptRow] "task").metric = none ∧
      ¬CarriesIdentity asciiEnv legacyRow attemptRow := by
  refine ⟨rfl, rfl, fun h => ?_⟩
  have hrecord : rowRecordId attemptRow = rowRecordId legacyRow := h.recordId (.inr (by decide))
  revert hrecord
  decide

end OpenCollabEval
