import OpenCollabEval.Evaluation.SpendAssignment
import OpenCollabEval.Python.Runs

/-!
# Each group of API calls is charged once

Whatever the rows of a report are, a group of API calls is charged to at most one task and at most
once: the groups that the tasks of a report list are those of one list of charges in which no group
stands twice.
-/

open Python

namespace OpenCollabEval.Spend

/-- A group that is charged to a task. -/
structure Charge where
  task : Str
  index : Nat
  reason : Str

/-- The groups that a task reports after some charges. -/
def reportedGroups (groups : List Obj) (charges : List Charge) (task : Str) : List AssignedGroup :=
  (charges.filter fun charge => charge.task = task).map fun charge =>
    assignedGroup (groups.getD charge.index []) charge.reason

/-- A state is the result of some charges, each of another group. -/
structure Charged (groups : List Obj) (charges : List Charge) (state : Assignment) : Prop where
  used : state.used = charges.map Charge.index
  nodup : state.used.Nodup
  bounded : ∀ index ∈ state.used, index < groups.length
  reported : ∀ task, (state.entry task).apiUsageGroups = reportedGroups groups charges task
  tasks : state.tasks.Nodup

/-- What a change of the spend of one task leaves as it is, with the groups that the task reports.
-/
def SameCharges (state next : Assignment) : Prop :=
  next.used = state.used ∧ next.tasks = state.tasks ∧
    ∀ task, (next.entry task).apiUsageGroups = (state.entry task).apiUsageGroups

section Steps

variable {host : Host} {groups : List Obj} {task : Str} {state next : Assignment}

theorem Charged.of_same {charges : List Charge} (h : Charged groups charges state)
    (hsame : SameCharges state next) : Charged groups charges next := by
  obtain ⟨hused, htasks, hgroups⟩ := hsame
  constructor
  · exact hused.trans h.used
  · exact hused ▸ h.nodup
  · exact hused ▸ h.bounded
  · exact fun task => (hgroups task).trans (h.reported task)
  · exact htasks ▸ h.tasks

/-- Nothing is charged before the first row. -/
theorem charged_start : Charged groups [] .start := by
  constructor
  · rfl
  · exact List.nodup_nil
  · exact fun _ h => absurd h List.not_mem_nil
  · exact fun _ => rfl
  · exact List.nodup_nil

/-- A task is listed once. -/
theorem charged_withTask {charges : List Charge} (task : Str) (h : Charged groups charges state) :
    Charged groups charges (state.withTask task) := by
  rw [Assignment.withTask]
  split
  · exact h
  · rename_i hnew
    refine ⟨h.used, h.nodup, h.bounded, h.reported, ?_⟩
    rw [List.nodup_append]
    refine ⟨h.tasks, List.nodup_singleton task, ?_⟩
    rintro a ha b hb rfl
    exact hnew (List.contains_iff_mem.mpr (List.mem_singleton.mp hb ▸ ha))

/-- A new entry with the same groups. -/
theorem sameCharges_setEntry {entry : CostEntry}
    (h : entry.apiUsageGroups = (state.entry task).apiUsageGroups) :
    SameCharges state (state.setEntry task entry) := by
  refine ⟨rfl, rfl, fun other => ?_⟩
  by_cases hother : other = task
  · subst hother
    rw [Assignment.setEntry_entry_self, h]
  · rw [Assignment.setEntry_entry_of_ne hother]

/-- A charge adds its group to the groups of the task and leaves the counts. -/
theorem assignApiGroup_ok {entry entry' : CostEntry} {group : Obj} {reason : Str}
    (h : assignApiGroup host entry group reason = .ok entry') :
    entry'.apiUsageGroups = entry.apiUsageGroups ++ [assignedGroup group reason] ∧
      entry'.workflowAttempts = entry.workflowAttempts ∧
        entry'.workflowTokens = entry.workflowTokens := by
  rw [assignApiGroup] at h
  split at h
  · obtain ⟨cost, -, h⟩ := bind_eq_ok_iff.mp h
    cases h
    exact ⟨rfl, rfl, rfl⟩
  · cases h
    exact ⟨rfl, rfl, rfl⟩

/-- What a charge changes. -/
theorem charge_ok {index : Nat} {reason : Str}
    (h : state.charge host groups task index reason = .ok next) :
    ∃ entry, assignApiGroup host (state.entry task) (groups.getD index []) reason = .ok entry ∧
      next = { state.setEntry task entry with used := state.used ++ [index] } := by
  obtain ⟨entry, hentry, h⟩ := bind_eq_ok_iff.mp h
  cases h
  exact ⟨entry, hentry, rfl⟩

/-- A group that is not used yet may be charged. -/
theorem charged_charge {charges : List Charge} {index : Nat} {reason : Str}
    (hcharged : Charged groups charges state) (hnew : index ∉ state.used)
    (hindex : index < groups.length)
    (h : state.charge host groups task index reason = .ok next) :
    Charged groups (charges ++ [⟨task, index, reason⟩]) next := by
  obtain ⟨entry, hentry, rfl⟩ := charge_ok h
  constructor
  · show state.used ++ [index] = _
    rw [hcharged.used, List.map_append]
    rfl
  · show (state.used ++ [index]).Nodup
    rw [List.nodup_append]
    refine ⟨hcharged.nodup, List.nodup_singleton index, ?_⟩
    rintro a ha b hb rfl
    exact hnew (List.mem_singleton.mp hb ▸ ha)
  · intro other hother
    rcases List.mem_append.mp hother with hother | hother
    · exact hcharged.bounded other hother
    · exact List.mem_singleton.mp hother ▸ hindex
  · intro other
    show ((state.setEntry task entry).entry other).apiUsageGroups = _
    rw [reportedGroups, List.filter_append, List.map_append, ← reportedGroups,
      ← hcharged.reported other]
    by_cases hother : other = task
    · subst hother
      rw [Assignment.setEntry_entry_self, (assignApiGroup_ok hentry).1]
      simp
    · rw [Assignment.setEntry_entry_of_ne hother]
      simp [Ne.symm hother]
  · exact hcharged.tasks

/-- The groups that a task may be charged are those with an index that is not used. -/
theorem of_mem_candidates {record : Obj} {tokens : Int} {used : List Nat}
    {items : List (Obj × Nat)} {found : List (Nat × Nat)} {index score : Nat}
    (h : candidates host record tokens used items = .ok found) (hmem : (index, score) ∈ found) :
    index ∉ used ∧ index ∈ items.map Prod.snd := by
  induction items generalizing found with
  | nil =>
    cases h
    cases hmem
  | cons item rest ih =>
    obtain ⟨group, i⟩ := item
    have hlater : ∀ {found}, candidates host record tokens used rest = .ok found →
        (index, score) ∈ found → index ∉ used ∧ index ∈ ((group, i) :: rest).map Prod.snd :=
      fun h hmem => (ih h hmem).imp_right (List.mem_cons_of_mem _)
    rw [candidates] at h
    split at h
    · exact hlater h hmem
    · rename_i hunused
      obtain ⟨total, -, h⟩ := bind_eq_ok_iff.mp h
      split at h
      · exact hlater h hmem
      · obtain ⟨first, -, h⟩ := bind_eq_ok_iff.mp h
        obtain ⟨others, hothers, h⟩ := bind_eq_ok_iff.mp h
        cases h
        rcases List.mem_cons.mp hmem with heq | hmem
        · cases heq
          exact ⟨hunused, List.mem_cons_self⟩
        · exact hlater hothers hmem

/-- The best candidate is a candidate. -/
theorem bestCandidate_mem {found : List (Nat × Nat)} {index : Nat} {reason : Str}
    (h : bestCandidate found = (some index, reason)) : ∃ score, (index, score) ∈ found := by
  rw [bestCandidate] at h
  split at h
  · cases h
  · rename_i best rest hsorted
    split at h
    · cases h
    · split at h
      · cases h
      · cases h
        have hbest : best ∈ found.insertionSort fun a b => b.2 ≤ a.2 := by
          rw [hsorted]
          exact List.mem_cons_self
        exact ⟨best.2, (List.mem_insertionSort _).mp hbest⟩

/-- The group that matches a record is not used yet. -/
theorem matchGroup_ok {record : Obj} {used : List Nat} {index : Nat} {reason : Str}
    (h : matchGroup host record groups used = .ok (some index, reason)) :
    index ∉ used ∧ index < groups.length := by
  obtain ⟨tokens, -, h⟩ := bind_eq_ok_iff.mp h
  obtain ⟨found, hfound, h⟩ := bind_eq_ok_iff.mp h
  obtain ⟨score, hmem⟩ := bestCandidate_mem (Except.ok.inj h)
  obtain ⟨hunused, hindex⟩ := of_mem_candidates hfound hmem
  refine ⟨hunused, ?_⟩
  rw [List.zipIdx_map_snd, List.mem_range'_1] at hindex
  simpa using hindex.2

/-- A group is charged for a counted record, or none is. -/
theorem charged_settle {charges : List Charge} {record : Obj} {tokens : Int}
    (hcharged : Charged groups charges state)
    (h : state.settle host groups task record tokens = .ok next) :
    ∃ charges, Charged groups charges next := by
  obtain ⟨⟨found, reason⟩, hfound, h⟩ := bind_eq_ok_iff.mp h
  cases found with
  | none =>
    cases h
    exact ⟨charges, hcharged.of_same (sameCharges_setEntry rfl)⟩
  | some index =>
    obtain ⟨hunused, hindex⟩ := matchGroup_ok hfound
    exact ⟨_, charged_charge hcharged hunused hindex h⟩

/-- A record is counted with at most one charge. -/
theorem charged_count {charges : List Charge} {record : Obj} {key : RecordKey}
    (hcharged : Charged groups charges state)
    (h : state.count host groups task record key = .ok next) :
    ∃ charges, Charged groups charges next := by
  obtain ⟨tokens, -, h⟩ := bind_eq_ok_iff.mp h
  refine charged_settle (Charged.of_same hcharged ?_) h
  show SameCharges (state.remember task key (record.get "path")) _
  apply sameCharges_setEntry
  rfl

/-- A record of a row is counted with at most one charge, or not at all. -/
theorem charged_addRecord {charges : List Charge} {record : Obj}
    (hcharged : Charged groups charges state)
    (h : addRecord host groups task state record = .ok next) :
    ∃ charges, Charged groups charges next := by
  rcases addRecord_cases h with ⟨-, rfl⟩ | ⟨-, -, h⟩
  · exact ⟨charges, hcharged⟩
  · exact charged_count hcharged h

/-- A group in the directory of a task is charged. -/
theorem charged_chargeDirect {charges : List Charge} {index : Nat}
    (hcharged : Charged groups charges state) (hnew : index ∉ state.used)
    (hindex : index < groups.length) (h : chargeDirect host groups task state index = .ok next) :
    Charged groups (charges ++ [⟨task, index, "matched_by_task_directory"⟩]) next ∧
      next.used = state.used ++ [index] := by
  obtain ⟨tokens, -, h⟩ := bind_eq_ok_iff.mp h
  dsimp only at h
  generalize hcounted : state.setEntry task _ = counted at h
  have hsame : SameCharges state counted := by
    subst hcounted
    apply sameCharges_setEntry
    rfl
  refine ⟨charged_charge (hcharged.of_same hsame) (hsame.1 ▸ hnew) hindex h, ?_⟩
  obtain ⟨entry, -, rfl⟩ := charge_ok h
  rw [← hsame.1]

/-- So are all of them, when each is listed once. -/
theorem charged_directGroups {charges : List Charge} {indices : List Nat}
    (hcharged : Charged groups charges state) (hnodup : indices.Nodup)
    (hnew : ∀ index ∈ indices, index ∉ state.used ∧ index < groups.length)
    (h : indices.foldlM (chargeDirect host groups task) state = .ok next) :
    ∃ charges, Charged groups charges next := by
  induction indices generalizing state charges with
  | nil =>
    cases h
    exact ⟨charges, hcharged⟩
  | cons index rest ih =>
    obtain ⟨middle, hmiddle, h⟩ := bind_eq_ok_iff.mp h
    obtain ⟨hunused, hindex⟩ := hnew index List.mem_cons_self
    obtain ⟨hcharged, hused⟩ := charged_chargeDirect hcharged hunused hindex hmiddle
    rw [List.nodup_cons] at hnodup
    refine ih hcharged hnodup.2 (fun other hother => ?_) h
    obtain ⟨hother', hbound⟩ := hnew other (List.mem_cons_of_mem _ hother)
    refine ⟨?_, hbound⟩
    rw [hused, List.mem_append, List.mem_singleton, not_or]
    exact ⟨hother', fun heq => hnodup.1 (heq ▸ hother)⟩

/-- The groups in the directory of a task are listed once, and none is used. -/
theorem directGroups_spec (host : Host) (groups : List Obj) (task : Str) (logPath : Json)
    (used : List Nat) :
    (directGroups host groups task logPath used).Nodup ∧
      ∀ index ∈ directGroups host groups task logPath used,
        index ∉ used ∧ index < groups.length := by
  have hindices : groups.zipIdx.map Prod.snd = List.range' 0 groups.length := List.zipIdx_map_snd ..
  constructor
  · refine List.Nodup.sublist (List.filter_sublist.map Prod.snd) ?_
    rw [hindices]
    exact List.nodup_range' ..
  · intro index hindex
    obtain ⟨item, hitem, rfl⟩ := List.mem_map.mp hindex
    obtain ⟨hmem, hkept⟩ := List.mem_filter.mp hitem
    have hrange : item.2 ∈ groups.zipIdx.map Prod.snd := List.mem_map_of_mem hmem
    rw [hindices, List.mem_range'_1] at hrange
    simp only [Bool.and_eq_true, decide_eq_true_eq] at hkept
    exact ⟨hkept.1, by omega⟩

/-- The charges of one row. -/
theorem charged_addRow {charges : List Charge} {tokenCost row : Obj}
    (hcharged : Charged groups charges state)
    (h : addRow host groups tokenCost state row = .ok next) :
    ∃ charges, Charged groups charges next := by
  rw [addRow] at h
  dsimp only at h
  split at h
  · cases h
    exact ⟨charges, hcharged⟩
  · obtain ⟨records, -, h⟩ := bind_eq_ok_iff.mp h
    have hopened := charged_withTask (taskKey row) hcharged
    split at h
    · obtain ⟨hnodup, hnew⟩ := directGroups_spec host groups (taskKey row)
        ((generationOf row).get "log") (state.withTask (taskKey row)).used
      exact charged_directGroups hopened hnodup hnew h
    · exact invariant_foldlM (fun state => ∃ charges, Charged groups charges state)
        (fun _ _ _ ⟨_, hcharged⟩ h => charged_addRecord hcharged h) ⟨charges, hopened⟩ h

/-- The charges of all rows. -/
theorem charged_rows {tokenCost : Obj} {rows : List Obj}
    (h : rows.foldlM (addRow host groups tokenCost) .start = .ok next) :
    ∃ charges, Charged groups charges next :=
  invariant_foldlM (fun state => ∃ charges, Charged groups charges state)
    (fun _ _ _ ⟨_, hcharged⟩ h => charged_addRow hcharged h) ⟨[], charged_start⟩ h

end Steps

/-- The groups that the tasks of a report list are those of some charges, and no group is charged
twice. -/
def ChargedOnce (groups : List Obj) (result : List (Str × Option PyFloat × CostEntry)) : Prop :=
  ∃ charges : List Charge, (charges.map Charge.index).Nodup ∧
    (∀ charge ∈ charges, charge.index < groups.length) ∧ (result.map Prod.fst).Nodup ∧
      ∀ entry ∈ result, entry.2.2.apiUsageGroups = reportedGroups groups charges entry.1

/-- Each group is charged to at most one task, and at most once. -/
theorem chargedOnce_of_assignCosts {host : Host} {rows : List Obj} {tokenCost : Obj}
    {result : List (Str × Option PyFloat × CostEntry)}
    (h : assignCosts host rows tokenCost = .ok result) :
    ∃ groups, apiGroups tokenCost = .ok groups ∧ ChargedOnce groups result := by
  obtain ⟨groups, hgroups, h⟩ := bind_eq_ok_iff.mp h
  obtain ⟨state, hstate, h⟩ := bind_eq_ok_iff.mp h
  cases h
  obtain ⟨charges, hcharged⟩ := charged_rows hstate
  refine ⟨groups, hgroups, charges, ?_, ?_, ?_, ?_⟩
  · exact hcharged.used ▸ hcharged.nodup
  · intro charge hcharge
    apply hcharged.bounded
    rw [hcharged.used]
    exact List.mem_map_of_mem hcharge
  · rw [List.map_map]
    exact (List.map_id state.tasks).symm ▸ hcharged.tasks
  · intro entry hentry
    obtain ⟨task, -, rfl⟩ := List.mem_map.mp hentry
    exact hcharged.reported task

end OpenCollabEval.Spend
