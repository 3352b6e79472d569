import OpenCollabEval.Env
import OpenCollabEval.Evaluation.Pairing
import Mathlib.Data.List.Perm.Basic
import Mathlib.Data.List.Nodup

/-!
# Metrics in attempt order

`report_metric_records` gives the metrics of a cell in the order of their predictions. A metric is a
row of the metrics log or is embedded in its prediction. Rows of the log are told apart by their
position, as the code tells them apart by their identity.
-/

open Python

namespace OpenCollabEval.MetricOrder

/-- A metric of the report: a row of the log with its position, or a metric that a prediction embeds. -/
inductive MetricSource where
  | recorded (row : Obj × Nat)
  | embedded (metric : Obj)

/-- The metric itself. -/
def MetricSource.metric : MetricSource → Obj
  | .recorded row => row.1
  | .embedded metric => metric

/-- The row of the log that a metric is. -/
def MetricSource.row? : MetricSource → Option (Obj × Nat)
  | .recorded row => some row
  | .embedded _ => none

@[simp] theorem row?_recorded (row : Obj × Nat) : (MetricSource.recorded row).row? = some row := rfl

@[simp] theorem row?_embedded (metric : Obj) : (MetricSource.embedded metric).row? = none := rfl

section Report

variable (env : Env)

/-- The metric of a prediction, with the status of the pairing: `latest_paired_rows` for one prediction
and rows that are told apart by their positions. -/
def pairedSource (prediction : Obj) (rows : List (Obj × Nat)) : Option MetricSource × Str :=
  let currentSha := rowPatchSha env prediction
  let embedded (status : Str) : Option MetricSource × Str :=
    match embeddedWorkflowMetric env prediction with
    | some metric => (some (.embedded metric), "embedded_metric")
    | none => (none, status)
  if !(rowRecordId prediction).isEmpty then
    match (rows.filter (rowRecordId ·.1 == rowRecordId prediction)).getLast? with
    | some row =>
      let metricSha := rowPatchSha env row.1
      if !currentSha.isEmpty && !metricSha.isEmpty && !patchShaMatches metricSha currentSha then
        (none, "record_id_patch_sha_mismatch")
      else if !currentSha.isEmpty && metricSha.isEmpty then (none, "record_id_patch_sha_missing")
      else (some (.recorded row), "record_id")
    | none => embedded "missing_metric_for_record_id"
  else if !currentSha.isEmpty then
    match rows.reverse.find? (fun row => patchShaMatches (rowPatchSha env row.1) currentSha) with
    | some row => (some (.recorded row), "patch_sha")
    | none => embedded "missing_metric_for_patch_sha"
  else
    match (rows.filter fun row =>
        (rowRecordId row.1).isEmpty && (rowExplicitPatchSha row.1).isEmpty).getLast? with
    | some row => (some (.recorded row), "legacy_latest")
    | none => (none, "missing_metric")

/-- The rows of a task, with their positions. -/
def taskRowsAt (rows : List (Obj × Nat)) (task : Str) : List (Obj × Nat) :=
  rows.filter (rowTaskId ·.1 == task)

/-- The statuses of a pairing that the report takes a metric from. -/
def reportedStatuses : List Str := ["record_id", "patch_sha", "embedded_metric"]

/-- What the report has collected so far. -/
structure Collected where
  ordered : List MetricSource
  used : List Nat

/-- One prediction. -/
def collectStep (rows : List (Obj × Nat)) (s : Collected) (prediction : Obj) : Collected :=
  let task := rowTaskId prediction
  if task.isEmpty then s
  else
    match pairedSource env prediction (taskRowsAt rows task) with
    | (none, _) => s
    | (some source, status) =>
      if !reportedStatuses.elem status then s
      else
        match source with
        | .embedded _ => { s with ordered := s.ordered ++ [source] }
        | .recorded row =>
          if s.used.contains row.2 then s
          else ⟨s.ordered ++ [source], s.used ++ [row.2]⟩

/-- The metrics of the predictions, in their order. -/
def collected (rows : List (Obj × Nat)) (predictions : List Obj) : Collected :=
  predictions.foldl (collectStep env rows) ⟨[], []⟩

/-- The metrics of the report: those of no prediction before the others. -/
def reportSources (recorded : List Obj) (predictions : Option (List Obj)) : List MetricSource :=
  match predictions with
  | none => recorded.zipIdx.map .recorded
  | some predictions =>
    let s := collected env recorded.zipIdx predictions
    (recorded.zipIdx.filter fun row => !s.used.contains row.2).map .recorded ++ s.ordered

/-- `report_metric_records` of the rows of a log without damaged lines. Without a predictions file the
order of the log stays. -/
def reportMetricRecords (recorded : List Obj) (predictions : Option (List Obj)) : List Obj :=
  (reportSources env recorded predictions).map MetricSource.metric

end Report

section Pairing

variable {env : Env} {prediction : Obj} {rows : List (Obj × Nat)} {source : MetricSource} {status : Str}

/-- Positions make no difference to the pairing. -/
theorem pairedSource_metric (env : Env) (prediction : Obj) (rows : List (Obj × Nat)) :
    (pairedSource env prediction rows).1.map MetricSource.metric =
        (pairedMetric env prediction (rows.map Prod.fst)).metric ∧
      (pairedSource env prediction rows).2 =
        (pairedMetric env prediction (rows.map Prod.fst)).status := by
  unfold pairedSource pairedMetric
  dsimp only
  rw [List.filter_map, List.filter_map, List.getLast?_map, List.getLast?_map, ← List.map_reverse,
    List.find?_map]
  simp only [Function.comp_def]
  split_ifs with hrecord hsha
  · generalize (rows.filter fun row => rowRecordId row.1 == rowRecordId prediction).getLast? = last
    cases last with
    | none => cases embeddedWorkflowMetric env prediction <;> exact ⟨rfl, rfl⟩
    | some row =>
      dsimp only [Option.map_some]
      split_ifs <;> exact ⟨rfl, rfl⟩
  · generalize (rows.reverse.find? fun row =>
      patchShaMatches (rowPatchSha env row.1) (rowPatchSha env prediction)) = found
    cases found with
    | none => cases embeddedWorkflowMetric env prediction <;> exact ⟨rfl, rfl⟩
    | some row => exact ⟨rfl, rfl⟩
  · generalize (rows.filter fun row =>
      (rowRecordId row.1).isEmpty && (rowExplicitPatchSha row.1).isEmpty).getLast? = last
    cases last <;> exact ⟨rfl, rfl⟩

/-- A row that is paired is one of the rows. -/
theorem mem_of_pairedSource {row : Obj × Nat}
    (h : (pairedSource env prediction rows).1 = some (.recorded row)) : row ∈ rows := by
  unfold pairedSource at h
  dsimp only at h
  split_ifs at h
  · split at h
    next found hfound =>
      split_ifs at h
      cases h
      exact (List.mem_filter.mp (List.mem_of_getLast? hfound)).1
    next => split at h <;> cases h
  · split at h
    next found hfound =>
      cases h
      exact List.mem_reverse.mp (List.mem_of_find?_eq_some hfound)
    next => split at h <;> cases h
  · split at h
    next found hfound =>
      cases h
      exact (List.mem_filter.mp (List.mem_of_getLast? hfound)).1
    next => cases h

/-- An embedded metric has the record id of its prediction, and digests that match. -/
theorem embedded_identity {metric : Obj} (h : embeddedWorkflowMetric env prediction = some metric) :
    rowTaskId metric = rowTaskId prediction ∧ rowRecordId metric = rowRecordId prediction ∧
      patchShaMatches (rowPatchSha env metric) (rowPatchSha env prediction) = true := by
  obtain ⟨found, -, h⟩ := Option.bind_eq_some_iff.mp h
  split at h
  next hidentity =>
    cases h
    simp only [Bool.and_eq_true, beq_iff_eq] at hidentity
    exact ⟨hidentity.1.1, hidentity.1.2, by rw [patchShaMatches_comm]; exact hidentity.2⟩
  next => cases h

/-- A prediction takes an embedded metric only where no row of its task is that metric. -/
theorem not_mem_of_embedded {metric : Obj}
    (h : (pairedSource env prediction rows).1 = some (.embedded metric)) :
    embeddedWorkflowMetric env prediction = some metric ∧ ∀ row ∈ rows, row.1 ≠ metric := by
  unfold pairedSource at h
  dsimp only at h
  split_ifs at h with hrecord hsha
  · split at h
    next =>
      split_ifs at h
      cases h
    next hnone =>
      split at h
      next found hfound =>
        cases h
        refine ⟨hfound, ?_⟩
        rintro row hrow rfl
        have hmem : row ∈ rows.filter (rowRecordId ·.1 == rowRecordId prediction) :=
          List.mem_filter.mpr ⟨hrow, by simpa using (embedded_identity hfound).2.1⟩
        rw [List.getLast?_eq_none_iff.mp hnone] at hmem
        exact List.not_mem_nil hmem
      next => cases h
  · split at h
    next => cases h
    next hnone =>
      split at h
      next found hfound =>
        cases h
        refine ⟨hfound, ?_⟩
        rintro row hrow rfl
        exact List.find?_eq_none.mp hnone row (List.mem_reverse.mpr hrow)
          (embedded_identity hfound).2.2
      next => cases h
  · split at h <;> cases h

end Pairing

section NoneLost

variable {env : Env} {rows : List (Obj × Nat)} {prediction : Obj} {s : Collected}

/-- What one prediction can do to the collection: nothing, an embedded metric that is no row of the
log, or a row of the log that was not used before. -/
theorem collectStep_cases (env : Env) (rows : List (Obj × Nat)) (s : Collected) (prediction : Obj) :
    collectStep env rows s prediction = s ∨
      (∃ metric, (∀ row ∈ rows, row.1 ≠ metric) ∧
        collectStep env rows s prediction = { s with ordered := s.ordered ++ [.embedded metric] }) ∨
      ∃ row ∈ rows, row.2 ∉ s.used ∧
        collectStep env rows s prediction = ⟨s.ordered ++ [.recorded row], s.used ++ [row.2]⟩ := by
  unfold collectStep
  dsimp only
  split_ifs with htask
  · exact .inl rfl
  split
  next => exact .inl rfl
  next source status hpair =>
    split_ifs with hstatus
    · exact .inl rfl
    have hsource : (pairedSource env prediction (taskRowsAt rows (rowTaskId prediction))).1 =
        some source := congrArg Prod.fst hpair
    cases source with
    | embedded metric =>
      obtain ⟨hembedded, hother⟩ := not_mem_of_embedded hsource
      refine .inr (.inl ⟨metric, ?_, rfl⟩)
      rintro row hrow rfl
      refine hother row (List.mem_filter.mpr ⟨hrow, ?_⟩) rfl
      simpa using (embedded_identity hembedded).1
    | recorded row =>
      dsimp only
      split_ifs with hused
      · exact .inl rfl
      · refine .inr (.inr ⟨row, ?_, by simpa using hused, rfl⟩)
        exact (List.mem_filter.mp (mem_of_pairedSource hsource)).1

/-- What holds of a collection: it has used each of its rows once, and no embedded metric of it is a row
of the log. -/
structure CollectedOnce (rows : List (Obj × Nat)) (s : Collected) : Prop where
  used : (s.ordered.filterMap MetricSource.row?).map Prod.snd = s.used
  nodup : s.used.Nodup
  mem : ∀ row ∈ s.ordered.filterMap MetricSource.row?, row ∈ rows
  other : ∀ metric, .embedded metric ∈ s.ordered → ∀ row ∈ rows, row.1 ≠ metric

/-- One prediction keeps that. -/
theorem CollectedOnce.step (h : CollectedOnce rows s) (prediction : Obj) :
    CollectedOnce rows (collectStep env rows s prediction) := by
  obtain ⟨hused, hnodup, hmem, hother⟩ := h
  rcases collectStep_cases env rows s prediction with heq | ⟨metric, hmetric, heq⟩ |
    ⟨row, hrow, hnew, heq⟩ <;> rw [heq]
  · exact ⟨hused, hnodup, hmem, hother⟩
  · refine ⟨by simpa [List.filterMap_append, List.filterMap_cons] using hused, hnodup,
      by simpa [List.filterMap_append, List.filterMap_cons] using hmem, ?_⟩
    intro found hfound
    rcases List.mem_append.mp hfound with hfound | hfound
    · exact hother found hfound
    · rw [MetricSource.embedded.inj (List.mem_singleton.mp hfound)]
      exact hmetric
  · refine ⟨by simp [hused], ?_, ?_, ?_⟩
    · refine List.nodup_append.mpr ⟨hnodup, by simp, ?_⟩
      rintro position hposition _ hlast rfl
      exact hnew (List.mem_singleton.mp hlast ▸ hposition)
    · intro found hfound
      simp only [List.filterMap_append, List.filterMap_cons, List.filterMap_nil, row?_recorded,
        List.mem_append, List.mem_singleton] at hfound
      rcases hfound with hfound | rfl
      · exact hmem found hfound
      · exact hrow
    · intro found hfound
      exact hother found (by simpa using hfound)

/-- All predictions keep it. -/
theorem collectedOnce (env : Env) (rows : List (Obj × Nat)) (predictions : List Obj) :
    CollectedOnce rows (collected env rows predictions) := by
  induction predictions using List.reverseRecOn with
  | nil => exact ⟨rfl, List.nodup_nil, by simp [collected], by simp [collected]⟩
  | append_singleton predictions prediction ih =>
    rw [collected, List.foldl_append]
    exact ih.step prediction

/-- A position is that of one row. -/
theorem eq_of_position {recorded : List Obj} {row other : Obj × Nat} (hrow : row ∈ recorded.zipIdx)
    (hother : other ∈ recorded.zipIdx) (h : row.2 = other.2) : row = other := by
  rw [List.mem_zipIdx_iff_getElem?] at hrow hother
  rw [h, hother, Option.some.injEq] at hrow
  exact Prod.ext hrow.symm h

/-- The rows that are used are those of the collection. -/
theorem CollectedOnce.perm {recorded : List Obj} (h : CollectedOnce recorded.zipIdx s) :
    (s.ordered.filterMap MetricSource.row?).Perm
      (recorded.zipIdx.filter fun row => s.used.contains row.2) := by
  have hpositions : (recorded.zipIdx.map Prod.snd).Nodup := by
    rw [List.zipIdx_map_snd]
    exact List.nodup_range'
  refine (List.perm_ext_iff_of_nodup ?_ ((hpositions.of_map _).filter _)).mpr fun row => ?_
  · exact List.Nodup.of_map Prod.snd (h.used ▸ h.nodup)
  · rw [List.mem_filter, List.contains_iff_mem]
    constructor
    · intro hrow
      exact ⟨h.mem row hrow, h.used ▸ List.mem_map_of_mem hrow⟩
    · rintro ⟨hrow, hused⟩
      rw [← h.used] at hused
      obtain ⟨other, hother, hposition⟩ := List.mem_map.mp hused
      rwa [← eq_of_position (h.mem other hother) hrow hposition]

/-- Every row of the log is in the report exactly once, and what else is in the report is not a row of
the log. -/
theorem reportSources_rows (env : Env) (recorded : List Obj) (predictions : Option (List Obj)) :
    ((reportSources env recorded predictions).filterMap MetricSource.row?).Perm recorded.zipIdx ∧
      ∀ metric, .embedded metric ∈ reportSources env recorded predictions → metric ∉ recorded := by
  cases predictions with
  | none =>
    have hrows : (reportSources env recorded none).filterMap MetricSource.row? = recorded.zipIdx := by
      rw [reportSources, List.filterMap_map]
      exact List.filterMap_some
    refine ⟨by rw [hrows], fun metric hmetric => ?_⟩
    obtain ⟨row, -, hrow⟩ := List.mem_map.mp hmetric
    cases hrow
  | some predictions =>
    have honce := collectedOnce env recorded.zipIdx predictions
    rw [reportSources]
    generalize collected env recorded.zipIdx predictions = s at honce
    constructor
    · rw [List.filterMap_append, List.filterMap_map]
      have hunused : ((recorded.zipIdx.filter fun row => !s.used.contains row.2).filterMap
          (MetricSource.row? ∘ MetricSource.recorded)) =
          recorded.zipIdx.filter fun row => !s.used.contains row.2 := List.filterMap_some
      rw [hunused]
      refine (honce.perm.append_left _).trans (List.perm_append_comm.trans ?_)
      exact List.filter_append_perm (fun row => s.used.contains row.2) recorded.zipIdx
    · intro metric hmetric hrecorded
      rcases List.mem_append.mp hmetric with hmetric | hmetric
      · obtain ⟨row, -, hrow⟩ := List.mem_map.mp hmetric
        cases hrow
      · obtain ⟨position, hposition, heq⟩ := List.mem_iff_getElem.mp hrecorded
        refine honce.other metric hmetric (metric, position) ?_ rfl
        rw [List.mem_zipIdx_iff_getElem?, List.getElem?_eq_getElem hposition, heq]

end NoneLost

section Order

variable {env : Env}

/-- A prediction with its own metric: they have one task and one record, and their patch digests
agree. -/
structure OwnMetric (env : Env) (attempt : Obj × Obj) : Prop where
  task : rowTaskId attempt.1 ≠ [] ∧ rowTaskId attempt.2 = rowTaskId attempt.1
  record : rowRecordId attempt.1 ≠ [] ∧ rowRecordId attempt.2 = rowRecordId attempt.1
  digest : patchShaMatches (rowPatchSha env attempt.2) (rowPatchSha env attempt.1) = true

/-- Attempts with their own metrics, each attempt with a record id of its own, and a log that holds some
of the metrics in any order. The other metrics are embedded in their predictions. -/
structure RecoveredLog (env : Env) (attempts : List (Obj × Obj)) (recorded : List Obj) : Prop where
  own : ∀ attempt ∈ attempts, OwnMetric env attempt
  distinct : (attempts.map fun attempt => rowRecordId attempt.1).Nodup
  some_recorded : ∃ chosen : List (Obj × Obj), chosen.Sublist attempts ∧
    recorded.Perm (chosen.map Prod.snd) ∧
    ∀ attempt ∈ attempts, attempt ∉ chosen → attempt.1.get "workflow_metric" = .dict attempt.2

variable {attempts : List (Obj × Obj)} {attempt : Obj × Obj} {recorded : List Obj}

/-- A metric of the log with the record id of an attempt is the metric of the attempt. -/
theorem RecoveredLog.eq_of_record (h : RecoveredLog env attempts recorded) {metric : Obj}
    (hmetric : metric ∈ recorded) :
    ∃ attempt ∈ attempts, attempt.2 = metric ∧
      ∀ other ∈ attempts, rowRecordId metric = rowRecordId other.1 → other = attempt := by
  obtain ⟨chosen, hchosen, hperm, -⟩ := h.some_recorded
  obtain ⟨attempt, hattempt, rfl⟩ := List.mem_map.mp (hperm.mem_iff.mp hmetric)
  have hmem := hchosen.subset hattempt
  refine ⟨attempt, hmem, rfl, fun other hother hrecord => ?_⟩
  rw [(h.own attempt hmem).record.2] at hrecord
  exact (List.inj_on_of_nodup_map h.distinct hother hmem hrecord.symm)

/-- The metrics of the log are distinct. -/
theorem RecoveredLog.nodup (h : RecoveredLog env attempts recorded) : recorded.Nodup := by
  obtain ⟨chosen, hchosen, hperm, -⟩ := h.some_recorded
  rw [hperm.nodup_iff]
  apply List.Nodup.of_map rowRecordId
  have hmap : (chosen.map Prod.snd).map rowRecordId =
      chosen.map fun attempt => rowRecordId attempt.1 := by
    rw [List.map_map]
    exact List.map_congr_left fun attempt hattempt =>
      (h.own attempt (hchosen.subset hattempt)).record.2
  rw [hmap]
  exact h.distinct.sublist (hchosen.map _)

/-- An attempt is paired with its own metric. -/
theorem RecoveredLog.pairedSource_eq (h : RecoveredLog env attempts recorded)
    (hattempt : attempt ∈ attempts) :
    ∃ source status,
      pairedSource env attempt.1 (taskRowsAt recorded.zipIdx (rowTaskId attempt.1)) =
        (some source, status) ∧ status ∈ reportedStatuses ∧ source.metric = attempt.2 := by
  obtain ⟨htask, hrecord, hdigest⟩ := h.own attempt hattempt
  have hsome : (!(rowRecordId attempt.1).isEmpty) = true := by simpa using hrecord.1
  have hown : ∀ row ∈ (taskRowsAt recorded.zipIdx (rowTaskId attempt.1)).filter
      (rowRecordId ·.1 == rowRecordId attempt.1), row.1 = attempt.2 := by
    intro row hrow
    obtain ⟨hrow, hsame⟩ := List.mem_filter.mp hrow
    have hmem : row.1 ∈ recorded := List.fst_mem_of_mem_zipIdx (List.mem_filter.mp hrow).1
    obtain ⟨found, -, hfound, hunique⟩ := h.eq_of_record hmem
    rw [← hfound, hunique attempt hattempt (by simpa using hsame)]
  rw [pairedSource, if_pos hsome]
  split
  next row hlast =>
    have hrow := hown row (List.mem_of_getLast? hlast)
    have hne := patchShaMatches_ne_nil hdigest
    rw [hrow, if_neg (by simp [hdigest]), if_neg (by simp [hne.1])]
    exact ⟨_, _, rfl, by simp [reportedStatuses], hrow⟩
  next hnone =>
    -- without a row of its own, the attempt has its metric with it
    obtain ⟨chosen, -, hperm, hembedded⟩ := h.some_recorded
    have hnot : attempt ∉ chosen := fun hmem => by
      have hmetric := hperm.mem_iff.mpr (List.mem_map_of_mem hmem)
      obtain ⟨position, hposition, heq⟩ := List.mem_iff_getElem.mp hmetric
      have hrow : (attempt.2, position) ∈ (taskRowsAt recorded.zipIdx (rowTaskId attempt.1)).filter
          (rowRecordId ·.1 == rowRecordId attempt.1) := by
        refine List.mem_filter.mpr ⟨List.mem_filter.mpr ⟨?_, by simpa using htask.2⟩,
          by simpa using hrecord.2⟩
        rw [List.mem_zipIdx_iff_getElem?, List.getElem?_eq_getElem hposition, heq]
      rw [List.getLast?_eq_none_iff.mp hnone] at hrow
      exact List.not_mem_nil hrow
    have hmetric : embeddedWorkflowMetric env attempt.1 = some attempt.2 := by
      rw [embeddedWorkflowMetric, hembedded attempt hattempt hnot]
      rw [patchShaMatches_comm] at hdigest
      simp [Json.asDict, htask.2, hrecord.2, hdigest]
    rw [hmetric]
    exact ⟨_, _, rfl, by simp [reportedStatuses], rfl⟩

/-- Attempts with one metric are one attempt. -/
theorem RecoveredLog.eq_of_metric (h : RecoveredLog env attempts recorded) {other : Obj × Obj}
    (hattempt : attempt ∈ attempts) (hother : other ∈ attempts) (hmetric : attempt.2 = other.2) :
    attempt = other := by
  apply List.inj_on_of_nodup_map h.distinct hattempt hother
  rw [← (h.own attempt hattempt).record.2, ← (h.own other hother).record.2, hmetric]

/-- The metrics of the attempts are collected in their order. -/
theorem RecoveredLog.collected_eq (h : RecoveredLog env attempts recorded)
    {earlier : List (Obj × Obj)} (hearlier : earlier <+: attempts) :
    (collected env recorded.zipIdx (earlier.map Prod.fst)).ordered.map MetricSource.metric =
      earlier.map Prod.snd := by
  induction earlier using List.reverseRecOn with
  | nil => rfl
  | append_singleton earlier attempt ih =>
    have hordered := ih ((List.prefix_append _ _).trans hearlier)
    have honce := collectedOnce env recorded.zipIdx (earlier.map Prod.fst)
    have hattempt : attempt ∈ attempts := hearlier.subset (by simp)
    have hnew : attempt ∉ earlier := by
      have hnodup := h.distinct.of_map.sublist hearlier.sublist
      rw [List.nodup_append] at hnodup
      exact fun hmem => hnodup.2.2 attempt hmem attempt (by simp) rfl
    obtain ⟨source, status, hpair, hstatus, hmetric⟩ := h.pairedSource_eq hattempt
    have hstep : collected env recorded.zipIdx ((earlier ++ [attempt]).map Prod.fst) =
        collectStep env recorded.zipIdx (collected env recorded.zipIdx (earlier.map Prod.fst))
          attempt.1 := by
      rw [List.map_append, collected, List.foldl_append]
      rfl
    rw [hstep]
    generalize collected env recorded.zipIdx (earlier.map Prod.fst) = s at hordered honce ⊢
    have htask : (rowTaskId attempt.1).isEmpty = false := by
      simpa using (h.own attempt hattempt).task.1
    have hkept : (!reportedStatuses.elem status) = false := by simpa using hstatus
    have hlast : s.ordered.map MetricSource.metric ++ [source.metric] =
        (earlier ++ [attempt]).map Prod.snd := by
      rw [hordered, hmetric, List.map_append]
      rfl
    unfold collectStep
    simp only [htask, hpair, hkept, Bool.false_eq_true, if_false]
    cases source with
    | embedded metric => exact (List.map_append ..).trans hlast
    | recorded row =>
      have hrow : row ∈ recorded.zipIdx :=
        (List.mem_filter.mp (mem_of_pairedSource (congrArg Prod.fst hpair))).1
      have hunused : row.2 ∉ s.used := by
        intro hused
        rw [← honce.used] at hused
        obtain ⟨other, hother, hposition⟩ := List.mem_map.mp hused
        have hsame := eq_of_position (honce.mem other hother) hrow hposition
        obtain ⟨found, hfound, hfoundRow⟩ := List.mem_filterMap.mp hother
        -- the metric of an earlier attempt would be that of this one
        have hearlierMetric : attempt.2 ∈ earlier.map Prod.snd := by
          rw [← hordered, ← hmetric]
          refine List.mem_map.mpr ⟨found, hfound, ?_⟩
          cases found with
          | recorded foundRow =>
            rw [row?_recorded, Option.some.injEq] at hfoundRow
            rw [hfoundRow, hsame]
          | embedded metric => cases hfoundRow
        obtain ⟨previous, hprevious, heq⟩ := List.mem_map.mp hearlierMetric
        have hmem := hearlier.subset (List.mem_append_left [attempt] hprevious)
        exact hnew (h.eq_of_metric hmem hattempt heq ▸ hprevious)
      dsimp only
      rw [if_neg (by simpa using hunused)]
      exact (List.map_append ..).trans hlast

/-- The report has the metrics of the attempts in their order, and nothing else. -/
theorem RecoveredLog.reportMetricRecords_eq (h : RecoveredLog env attempts recorded) :
    reportMetricRecords env recorded (some (attempts.map Prod.fst)) = attempts.map Prod.snd := by
  have hordered := h.collected_eq List.prefix_rfl
  have honce := collectedOnce env recorded.zipIdx (attempts.map Prod.fst)
  rw [reportMetricRecords, reportSources]
  generalize collected env recorded.zipIdx (attempts.map Prod.fst) = s at hordered honce ⊢
  have hnone : (recorded.zipIdx.filter fun row => !s.used.contains row.2) = [] := by
    rw [List.filter_eq_nil_iff]
    intro row hrow
    obtain ⟨attempt, hattempt, hmetric, -⟩ := h.eq_of_record (List.fst_mem_of_mem_zipIdx hrow)
    have hcollected : row.1 ∈ s.ordered.map MetricSource.metric := by
      rw [hordered, ← hmetric]
      exact List.mem_map_of_mem hattempt
    obtain ⟨source, hsource, heq⟩ := List.mem_map.mp hcollected
    cases source with
    | embedded metric => exact absurd heq.symm (honce.other metric hsource row hrow)
    | recorded other =>
      have hmem : other ∈ s.ordered.filterMap MetricSource.row? :=
        List.mem_filterMap.mpr ⟨_, hsource, rfl⟩
      have hother := honce.mem other hmem
      have hposition : other.2 = row.2 := by
        rw [List.mem_zipIdx_iff_getElem?] at hother hrow
        have hlength := (List.getElem?_eq_some_iff.mp hother).1
        refine (List.getElem?_inj hlength h.nodup).mp ?_
        rw [hother, hrow]
        exact congrArg some heq
      have hused : row.2 ∈ s.used := by
        rw [← honce.used, ← hposition]
        exact List.mem_map_of_mem hmem
      simpa using hused
  rw [hnone]
  exact hordered

/-- The metrics of recovered attempts are reported in the order of the attempts, and no row of any log
is lost or doubled. -/
theorem metrics_in_attempt_order (h : RecoveredLog env attempts recorded) (log : List Obj)
    (predictions : Option (List Obj)) :
    reportMetricRecords env recorded (some (attempts.map Prod.fst)) = attempts.map Prod.snd ∧
      ((reportSources env log predictions).filterMap MetricSource.row?).Perm log.zipIdx ∧
      ∀ metric, .embedded metric ∈ reportSources env log predictions → metric ∉ log :=
  ⟨h.reportMetricRecords_eq, reportSources_rows env log predictions⟩

/-- The metric of a record. -/
def sampleMetric (recordId : String) : Obj :=
  [(lit "instance_id", .str "t"), (lit "record_id", .str recordId),
    (lit "patch_sha256", .str (List.replicate 64 48))]

/-- Its prediction, which embeds it. -/
def samplePrediction (recordId : String) : Obj :=
  sampleMetric recordId ++ [(lit "workflow_metric", .dict (sampleMetric recordId))]

/-- Of two attempts the second has its metric in the log, and the first has it with its prediction. -/
theorem metrics_in_attempt_order_sample :
    reportMetricRecords asciiEnv [sampleMetric "b"] (some [samplePrediction "a", samplePrediction "b"]) =
      [sampleMetric "a", sampleMetric "b"] := by
  have hlog : RecoveredLog asciiEnv
      [(samplePrediction "a", sampleMetric "a"), (samplePrediction "b", sampleMetric "b")]
      [sampleMetric "b"] := by
    refine ⟨fun attempt hattempt => ?_, by decide +kernel, ⟨[(samplePrediction "b", sampleMetric "b")],
      ?_, .refl _, fun attempt hattempt _ => ?_⟩⟩
    · simp only [List.mem_cons, List.not_mem_nil, or_false] at hattempt
      rcases hattempt with rfl | rfl
      · exact ⟨by decide +kernel, by decide +kernel, by decide +kernel⟩
      · exact ⟨by decide +kernel, by decide +kernel, by decide +kernel⟩
    · exact (List.Sublist.refl _).cons _
    · simp only [List.mem_cons, List.not_mem_nil, or_false] at hattempt
      rcases hattempt with rfl | rfl <;> rfl
  exact (metrics_in_attempt_order hlog [] none).1

end Order

end OpenCollabEval.MetricOrder
