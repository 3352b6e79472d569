import OpenCollabEval.Evaluation.SpendCharges
import OpenCollabEval.Order.Sightings

/-!
# Workflow spend is counted once

A record of a row is what was seen of a generation: its task, its numbers, and perhaps the log that
stands for its place. What a task remembers of its records is what is counted of the sightings, so a
generation is counted twice exactly when a record without a log path is followed by one that has a
path.
-/

open Python

namespace OpenCollabEval.Spend

/-- A record of a task as a sighting of a generation. -/
def RecordKey.sighting (task : Str) (key : RecordKey) :
    Sighting SetKey (Str × SetKey) (SetKey × SetKey) :=
  ⟨key.path, (task, key.tokens), (key.steps, key.duration)⟩

section Memory

variable {seen : List (Sighting SetKey (Str × SetKey) (SetKey × SetKey))}
  {host : Host} {groups : List Obj} {task : Str} {state next : Assignment} {key : RecordKey}

/-- A sighting is one of a record. -/
theorem exists_sighting (t : Sighting SetKey (Str × SetKey) (SetKey × SetKey)) :
    ∃ key : RecordKey, t = key.sighting t.size.1 :=
  ⟨⟨t.place, t.size.2, t.other.1, t.other.2⟩, rfl⟩

theorem sighting_inj {other : Str} {key' : RecordKey} :
    key.sighting task = key'.sighting other ↔ task = other ∧ key = key' := by
  cases key
  cases key'
  simp only [RecordKey.sighting, Sighting.mk.injEq, Prod.mk.injEq, RecordKey.mk.injEq]
  tauto

/-- The tasks remember what is counted of some sightings. -/
structure Tracks (seen : List (Sighting SetKey (Str × SetKey) (SetKey × SetKey)))
    (state : Assignment) : Prop where
  records : ∀ task key, key ∈ (state.memory task).records ↔
    key.sighting task ∈ Sighting.counted SetKey.truthy seen
  fingerprints : ∀ task, (state.memory task).fingerprints =
    (state.memory task).records.map RecordKey.fingerprint
  pathTokens : ∀ task, (state.memory task).pathTokens =
    ((state.memory task).records.filter RecordKey.hasPath).map RecordKey.tokens

theorem Tracks.of_memory (h : Tracks seen state) (hmemory : next.memory = state.memory) :
    Tracks seen next := by
  constructor
  · exact hmemory ▸ h.records
  · exact hmemory ▸ h.fingerprints
  · exact hmemory ▸ h.pathTokens

theorem tracks_start : Tracks [] .start := by
  constructor
  · intro task key
    show key ∈ [] ↔ key.sighting task ∈ []
    rw [List.mem_nil_iff, List.mem_nil_iff]
  · exact fun _ => rfl
  · exact fun _ => rfl

/-- What is counted of a task is what the task remembers. -/
theorem Tracks.exists_iff (h : Tracks seen state) (task : Str)
    (p : Sighting SetKey (Str × SetKey) (SetKey × SetKey) → Prop) :
    (∃ t ∈ Sighting.counted SetKey.truthy seen, t.size.1 = task ∧ p t) ↔
      ∃ key ∈ (state.memory task).records, p (key.sighting task) := by
  constructor
  · rintro ⟨t, ht, rfl, hp⟩
    obtain ⟨key, hkey⟩ := exists_sighting t
    refine ⟨key, ?_, hkey ▸ hp⟩
    rw [h.records, ← hkey]
    exact ht
  · rintro ⟨key, hkey, hp⟩
    exact ⟨key.sighting task, (h.records task key).mp hkey, rfl, hp⟩

/-- The numbers of a record are known when they were counted, or its tokens at a place. -/
theorem Tracks.knowsNumbers_iff (h : Tracks seen state) :
    (state.memory task).knowsNumbers key.fingerprint = true ↔
      (∃ t ∈ Sighting.counted SetKey.truthy seen, Sighting.SameNumbers t (key.sighting task)) ∨
        ∃ t ∈ Sighting.counted SetKey.truthy seen,
          t.place.truthy = true ∧ t.size = (key.sighting task).size := by
  have hnumbers : (∃ t ∈ Sighting.counted SetKey.truthy seen,
      Sighting.SameNumbers t (key.sighting task)) ↔
        key.fingerprint ∈ (state.memory task).fingerprints := by
    have hrecords := h.exists_iff task fun t =>
      t.size.2 = key.tokens ∧ t.other = (key.steps, key.duration)
    rw [h.fingerprints, List.mem_map]
    refine Iff.trans ?_ (hrecords.trans ?_)
    · refine exists_congr fun t => and_congr_right fun _ => ?_
      rw [Sighting.SameNumbers, RecordKey.sighting, Prod.ext_iff, and_assoc]
    · refine exists_congr fun other => and_congr_right fun _ => ?_
      simp only [RecordKey.sighting, RecordKey.fingerprint, Prod.mk.injEq]
  have htokens : (∃ t ∈ Sighting.counted SetKey.truthy seen,
      t.place.truthy = true ∧ t.size = (key.sighting task).size) ↔
        key.fingerprint.1 ∈ (state.memory task).pathTokens := by
    have hrecords := h.exists_iff task fun t => t.place.truthy = true ∧ t.size.2 = key.tokens
    rw [h.pathTokens, List.mem_map]
    refine Iff.trans ?_ (hrecords.trans ?_)
    · refine exists_congr fun t => and_congr_right fun _ => ?_
      rw [RecordKey.sighting, Prod.ext_iff]
      tauto
    · refine exists_congr fun other => ?_
      rw [List.mem_filter, and_assoc]
      rfl
  rw [hnumbers, htokens, Memory.knowsNumbers, Bool.or_eq_true, decide_eq_true_eq, decide_eq_true_eq]

/-- A task counts a record when the sighting counts. -/
theorem Tracks.takes_iff (h : Tracks seen state) :
    (state.memory task).Takes key ↔
      Sighting.Counts SetKey.truthy (Sighting.counted SetKey.truthy seen) (key.sighting task) := by
  rw [Memory.Takes, Sighting.Counts, h.records, and_comm, ← not_or, ← h.knowsNumbers_iff,
    Bool.not_eq_true]
  rfl

/-- A counted record is remembered. -/
theorem Tracks.remember {path : Json} (h : Tracks seen state) (hpath : key.hasPath = path.truthy)
    (hcounts : Sighting.Counts SetKey.truthy (Sighting.counted SetKey.truthy seen)
      (key.sighting task)) :
    Tracks (seen ++ [key.sighting task]) (state.remember task key path) := by
  have hcounted : Sighting.counted SetKey.truthy (seen ++ [key.sighting task]) =
      Sighting.counted SetKey.truthy seen ++ [key.sighting task] := by
    rw [Sighting.counted_concat, Sighting.add_of_counts hcounts]
  constructor
  · intro other key'
    rw [hcounted, List.mem_append, List.mem_singleton, sighting_inj, ← h.records]
    by_cases hother : other = task
    · subst hother
      rw [Assignment.remember_memory_self]
      simp [Memory.add]
    · rw [Assignment.remember_memory_of_ne hother]
      simp [hother]
  · intro other
    by_cases hother : other = task
    · subst hother
      rw [Assignment.remember_memory_self]
      simp [Memory.add, h.fingerprints]
    · rw [Assignment.remember_memory_of_ne hother, h.fingerprints]
  · intro other
    by_cases hother : other = task
    · subst hother
      rw [Assignment.remember_memory_self]
      cases hp : path.truthy <;> simp [Memory.add, h.pathTokens, hpath, hp]
    · rw [Assignment.remember_memory_of_ne hother, h.pathTokens]

/-- A record that does not count is not remembered. -/
theorem Tracks.skip (h : Tracks seen state)
    (hcounts : ¬Sighting.Counts SetKey.truthy (Sighting.counted SetKey.truthy seen)
      (key.sighting task)) : Tracks (seen ++ [key.sighting task]) state := by
  have hcounted : Sighting.counted SetKey.truthy (seen ++ [key.sighting task]) =
      Sighting.counted SetKey.truthy seen := by
    rw [Sighting.counted_concat, Sighting.add_of_not_counts hcounts]
  constructor
  · rw [hcounted]
    exact h.records
  · exact h.fingerprints
  · exact h.pathTokens

end Memory

section Steps

variable {seen : List (Sighting SetKey (Str × SetKey) (SetKey × SetKey))}
  {host : Host} {groups : List Obj} {task : Str} {state next : Assignment}

/-- A charge is not remembered as a record, and it leaves the counts of its task. -/
theorem charge_frame {index : Nat} {reason : Str}
    (h : state.charge host groups task index reason = .ok next) :
    next.memory = state.memory ∧
      (next.entry task).workflowAttempts = (state.entry task).workflowAttempts := by
  obtain ⟨entry, hentry, rfl⟩ := charge_ok h
  refine ⟨rfl, ?_⟩
  show ((state.setEntry task entry).entry task).workflowAttempts = _
  rw [Assignment.setEntry_entry_self, (assignApiGroup_ok hentry).2.1]

theorem settle_frame {record : Obj} {tokens : Int}
    (h : state.settle host groups task record tokens = .ok next) :
    next.memory = state.memory ∧
      (next.entry task).workflowAttempts = (state.entry task).workflowAttempts := by
  obtain ⟨⟨found, reason⟩, -, h⟩ := bind_eq_ok_iff.mp h
  cases found with
  | none =>
    cases h
    exact ⟨rfl, by rw [Assignment.setEntry_entry_self]⟩
  | some index => exact charge_frame h

/-- A counted record is remembered, and it is one more attempt. -/
theorem count_ok {record : Obj} {key : RecordKey}
    (h : state.count host groups task record key = .ok next) :
    next.memory = (state.remember task key (record.get "path")).memory ∧
      (next.entry task).workflowAttempts = (state.entry task).workflowAttempts + 1 := by
  obtain ⟨tokens, -, h⟩ := bind_eq_ok_iff.mp h
  obtain ⟨hmemory, hattempts⟩ := settle_frame h
  refine ⟨hmemory, ?_⟩
  rw [hattempts, Assignment.setEntry_entry_self]

/-- A record that is read is one more sighting. -/
theorem tracks_addRecord {record : Obj} (hseen : Tracks seen state)
    (h : addRecord host groups task state record = .ok next) :
    Tracks (seen ++ [(recordKey record).sighting task]) next := by
  rcases addRecord_cases h with ⟨hnot, rfl⟩ | ⟨htakes, hpath, h⟩
  · exact hseen.skip (hseen.takes_iff.not.mp hnot)
  · exact (hseen.remember hpath (hseen.takes_iff.mp htakes)).of_memory (count_ok h).1

/-- The records of a row are as many sightings. -/
theorem tracks_records {records : List Obj} (hseen : Tracks seen state)
    (h : records.foldlM (addRecord host groups task) state = .ok next) :
    Tracks (seen ++ records.map fun record => (recordKey record).sighting task) next := by
  let sighting := fun record => (recordKey record).sighting task
  refine history_foldlM (fun read state => Tracks (seen ++ read.map sighting) state) ?_ [] ?_ h
  · intro read record s s' hs hstep
    rw [List.map_append, ← List.append_assoc]
    exact tracks_addRecord hs hstep
  · rwa [List.map_nil, List.append_nil]

theorem tracks_withTask (hseen : Tracks seen state) : Tracks seen (state.withTask task) := by
  apply hseen.of_memory
  rw [Assignment.withTask]
  split <;> rfl

/-- The groups in the directory of a task are no sightings. -/
theorem tracks_directGroups {indices : List Nat} (hseen : Tracks seen state)
    (h : indices.foldlM (chargeDirect host groups task) state = .ok next) : Tracks seen next := by
  refine invariant_foldlM (Tracks seen) (fun index s s' hs hstep => ?_) hseen h
  obtain ⟨tokens, -, hstep⟩ := bind_eq_ok_iff.mp hstep
  exact hs.of_memory (charge_frame hstep).1

end Steps

section Runs

variable (host : Host) (groups : List Obj) (tokenCost : Obj)

/-- The records that are read for a row. -/
def rowRecords (row : Obj) : List Obj :=
  if (taskKey row).isEmpty then []
  else (taskWorkflowRecords host tokenCost row).toOption.getD []

/-- What a row shows of the generations of its task. -/
def rowSightings (row : Obj) : List (Sighting SetKey (Str × SetKey) (SetKey × SetKey)) :=
  (rowRecords host tokenCost row).map fun record => (recordKey record).sighting (taskKey row)

/-- What the rows of a report show of the generations, in the order in which they are read. -/
def sightings (rows : List Obj) : List (Sighting SetKey (Str × SetKey) (SetKey × SetKey)) :=
  rows.flatMap (rowSightings host tokenCost)

/-- A record of some rows is read for its task in a state. -/
def ReadsRecord (rows : List Obj) (task : Str) (state : Assignment) (record : Obj) : Prop :=
  ∃ before row after first earlier later,
    rows = before ++ row :: after ∧ taskKey row = task ∧ task ≠ [] ∧
      before.foldlM (addRow host groups tokenCost) .start = .ok first ∧
      taskWorkflowRecords host tokenCost row = .ok (earlier ++ record :: later) ∧
      earlier.foldlM (addRecord host groups task) (first.withTask task) = .ok state

/-- Two records are of one generation: the tokens, the steps and the duration are equal, and the log
path is equal or missing on one of the two. -/
def SameGeneration (key other : RecordKey) : Prop :=
  key.fingerprint = other.fingerprint ∧
    (key.path = other.path ∨ ¬(key.hasPath = true ∧ other.hasPath = true))

/-- Each record that repeats a counted generation of its task leaves the attempts and the tokens of
the task as they are. -/
def RepeatsAddNothing (rows : List Obj) : Prop :=
  ∀ task state record next, ReadsRecord host groups tokenCost rows task state record →
    addRecord host groups task state record = .ok next →
      (∃ key ∈ (state.memory task).records, SameGeneration key (recordKey record)) →
        (next.entry task).workflowAttempts = (state.entry task).workflowAttempts ∧
          (next.entry task).workflowTokens = (state.entry task).workflowTokens

variable {host} {groups} {tokenCost}
  {seen : List (Sighting SetKey (Str × SetKey) (SetKey × SetKey))} {rows : List Obj} {task : Str} {state next : Assignment} {record row : Obj}

theorem rowSightings_of_records {records : List Obj} (htask : taskKey row ≠ [])
    (h : taskWorkflowRecords host tokenCost row = .ok records) :
    rowSightings host tokenCost row =
      records.map fun record => (recordKey record).sighting (taskKey row) := by
  rw [rowSightings, rowRecords, h, if_neg (by simpa using htask)]
  rfl

/-- A row is read as what it shows. -/
theorem tracks_addRow (hseen : Tracks seen state)
    (h : addRow host groups tokenCost state row = .ok next) :
    Tracks (seen ++ rowSightings host tokenCost row) next := by
  rw [addRow] at h
  dsimp only at h
  split at h
  · rename_i htask
    cases h
    rw [rowSightings, rowRecords, if_pos htask, List.map_nil, List.append_nil]
    exact hseen
  · rename_i htask
    obtain ⟨records, hrecords, h⟩ := bind_eq_ok_iff.mp h
    rw [rowSightings_of_records (by simpa using htask) hrecords]
    split at h
    · rename_i hempty
      rw [List.isEmpty_iff.mp hempty, List.map_nil, List.append_nil]
      exact tracks_directGroups (tracks_withTask hseen) h
    · exact tracks_records (tracks_withTask hseen) h

/-- The rows of a report are read as what they show. -/
theorem tracks_rows (h : rows.foldlM (addRow host groups tokenCost) .start = .ok state) :
    Tracks (sightings host tokenCost rows) state := by
  refine history_foldlM (fun read state => Tracks (sightings host tokenCost read) state)
    (fun read row s s' hs hstep => ?_) [] tracks_start h
  rw [sightings, List.flatMap_append, List.flatMap_singleton]
  exact tracks_addRow hs hstep

/-- A record that is read stands among the sightings after those that its task remembers. -/
theorem ReadsRecord.exists_split (h : ReadsRecord host groups tokenCost rows task state record) :
    ∃ seen later, sightings host tokenCost rows =
      seen ++ (recordKey record).sighting task :: later ∧ Tracks seen state := by
  obtain ⟨before, row, after, first, earlier, later, rfl, rfl, htask, hfirst, hrecords, hstate⟩ := h
  refine ⟨_, later.map (fun record => (recordKey record).sighting (taskKey row)) ++
    sightings host tokenCost after, ?_,
    tracks_records (tracks_withTask (tracks_rows hfirst)) hstate⟩
  rw [sightings, List.flatMap_append, List.flatMap_cons, rowSightings_of_records htask hrecords]
  simp [sightings]

/-- A part of a list that is put together stands in one of its pieces. -/
theorem exists_piece {α β : Type} {f : α → List β} {items : List α} {before after : List β} {b : β}
    (h : items.flatMap f = before ++ b :: after) :
    ∃ first item last earlier later, items = first ++ item :: last ∧
      f item = earlier ++ b :: later ∧ before = first.flatMap f ++ earlier := by
  induction items generalizing before with
  | nil => simp at h
  | cons item rest ih =>
    rw [List.flatMap_cons, List.append_eq_append_iff] at h
    rcases h with ⟨more, rfl, hrest⟩ | ⟨more, hitem, hrest⟩
    · obtain ⟨first, item', last, earlier, later, rfl, hitem', rfl⟩ := ih hrest
      exact ⟨item :: first, item', last, earlier, later, rfl, hitem', by simp⟩
    · cases more with
      | nil =>
        rw [← List.nil_append (b :: after)] at hrest
        obtain ⟨first, item', last, earlier, later, rfl, hitem', hbefore⟩ := ih hrest.symm
        refine ⟨item :: first, item', last, earlier, later, rfl, hitem', ?_⟩
        rw [List.flatMap_cons, List.append_assoc, ← hbefore]
        simpa using hitem.symm
      | cons b' more =>
        obtain ⟨rfl, hrest⟩ := List.cons.inj hrest
        exact ⟨[], item, rest, before, more, rfl, hitem, rfl⟩

/-- What a row shows comes from the records that are read for its task. -/
theorem exists_records {s : Sighting SetKey (Str × SetKey) (SetKey × SetKey)}
    {first last : List (Sighting SetKey (Str × SetKey) (SetKey × SetKey))}
    (h : rowSightings host tokenCost row = first ++ s :: last) :
    ∃ earlier record later, taskKey row ≠ [] ∧
      taskWorkflowRecords host tokenCost row = .ok (earlier ++ record :: later) ∧
        first = earlier.map (fun record => (recordKey record).sighting (taskKey row)) ∧
          s = (recordKey record).sighting (taskKey row) := by
  rw [rowSightings] at h
  obtain ⟨earlier, rest, hrecords, rfl, hrest⟩ := List.map_eq_append_iff.mp h
  obtain ⟨record, later, rfl, rfl, -⟩ := List.map_eq_cons_iff.mp hrest
  rw [rowRecords] at hrecords
  split at hrecords
  · simp at hrecords
  · rename_i htask
    refine ⟨earlier, record, later, by simpa using htask, ?_, rfl, rfl⟩
    cases hread : taskWorkflowRecords host tokenCost row with
    | ok records =>
      rw [hread] at hrecords
      exact congrArg Except.ok hrecords
    | error =>
      rw [hread] at hrecords
      simp [Except.toOption] at hrecords

/-- When all rows are read, each sighting is a record that is read. -/
theorem exists_readsRecord {final : Assignment}
    {before after : List (Sighting SetKey (Str × SetKey) (SetKey × SetKey))}
    {s : Sighting SetKey (Str × SetKey) (SetKey × SetKey)}
    (h : rows.foldlM (addRow host groups tokenCost) .start = .ok final)
    (hsplit : sightings host tokenCost rows = before ++ s :: after) :
    ∃ task state record next, s = (recordKey record).sighting task ∧
      ReadsRecord host groups tokenCost rows task state record ∧
        addRecord host groups task state record = .ok next ∧ Tracks before state := by
  obtain ⟨firstRows, row, lastRows, shown, others, rfl, hrow, rfl⟩ := exists_piece hsplit
  obtain ⟨first, middle, hfirst, hmiddle, -⟩ := foldlM_split_eq_ok_iff.mp h
  obtain ⟨earlier, record, later, htask, hrecords, rfl, rfl⟩ := exists_records hrow
  rw [addRow, if_neg (by simpa using htask), hrecords, ok_bind, if_neg (by simp)] at hmiddle
  obtain ⟨state, next, hstate, hnext, -⟩ := foldlM_split_eq_ok_iff.mp hmiddle
  refine ⟨taskKey row, state, record, next, rfl, ?_, hnext, ?_⟩
  · exact ⟨firstRows, row, lastRows, first, earlier, later, rfl, rfl, htask, hfirst, hrecords,
      hstate⟩
  · exact tracks_records (tracks_withTask (tracks_rows hfirst)) hstate

/-- Two records of a task are of one generation when their sightings may be of one thing. -/
theorem sameGeneration_iff (task : Str) {key other : RecordKey} :
    SameGeneration key other ↔
      Sighting.SameThing SetKey.truthy (key.sighting task) (other.sighting task) := by
  simp only [SameGeneration, Sighting.SameThing, Sighting.SameNumbers, RecordKey.sighting,
    RecordKey.fingerprint, RecordKey.hasPath, Prod.mk.injEq, true_and]

/-- The state remembers a record of a generation when what it tracks has counted it. -/
theorem Tracks.repeats_iff {key : RecordKey} (h : Tracks seen state) :
    (∃ other ∈ (state.memory task).records, SameGeneration other key) ↔
      ∃ t ∈ Sighting.counted SetKey.truthy seen,
        Sighting.SameThing SetKey.truthy t (key.sighting task) := by
  have hrecords := h.exists_iff task fun t =>
    Sighting.SameThing SetKey.truthy t (key.sighting task)
  rw [exists_congr fun other => and_congr_right fun _ => sameGeneration_iff task,
    ← hrecords]
  refine exists_congr fun t => and_congr_right fun _ => and_iff_right_of_imp fun hsame => ?_
  exact congrArg Prod.fst hsame.1.1

/-- A record of a generation that was counted adds nothing exactly when no record without a log path
is followed by a record of the same generation with one, before which no record of the task with a
log path has the same tokens. -/
theorem repeatsAddNothing_iff {final : Assignment}
    (h : rows.foldlM (addRow host groups tokenCost) .start = .ok final) :
    RepeatsAddNothing host groups tokenCost rows ↔
      ¬Sighting.PlacedLater SetKey.truthy (sightings host tokenCost rows) := by
  rw [← Sighting.countsTwice_iff]
  constructor
  · rintro hnothing ⟨before, s, after, hsplit, hknown, hcounts⟩
    obtain ⟨task, state, record, next, rfl, hreads, hnext, hseen⟩ := exists_readsRecord h hsplit
    have hrepeats := hseen.repeats_iff.mpr hknown
    have hattempts := (hnothing task state record next hreads hnext hrepeats).1
    rcases addRecord_cases hnext with ⟨hnot, -⟩ | ⟨-, -, hcount⟩
    · exact hnot (hseen.takes_iff.mpr hcounts)
    · rw [(count_ok hcount).2] at hattempts
      omega
  · intro honce task state record next hreads hnext hknown
    obtain ⟨before, after, hsplit, hseen⟩ := hreads.exists_split
    rcases addRecord_cases hnext with ⟨-, rfl⟩ | ⟨htakes, -, -⟩
    · exact ⟨rfl, rfl⟩
    · exact absurd ⟨before, _, after, hsplit, hseen.repeats_iff.mp hknown,
        hseen.takes_iff.mp htakes⟩ honce

/-- Each group of API calls is charged to at most one task and at most once, and a repeated
generation adds nothing exactly when no record without a log path is followed by one of the same
generation with a log path, before which no record of the task with a log path has the same tokens.
-/
theorem spend_counted_once_iff (host : Host) (rows : List Obj) (tokenCost : Obj)
    {result : List (Str × Option PyFloat × CostEntry)}
    (h : assignCosts host rows tokenCost = .ok result) :
    ∃ groups, apiGroups tokenCost = .ok groups ∧ ChargedOnce groups result ∧
      (RepeatsAddNothing host groups tokenCost rows ↔
        ¬Sighting.PlacedLater SetKey.truthy (sightings host tokenCost rows)) := by
  obtain ⟨groups, hgroups, hcharged⟩ := chargedOnce_of_assignCosts h
  refine ⟨groups, hgroups, hcharged, ?_⟩
  rw [assignCosts, hgroups, ok_bind] at h
  obtain ⟨final, hfinal, -⟩ := bind_eq_ok_iff.mp h
  exact repeatsAddNothing_iff hfinal

end Runs

section Samples

/-- An interpreter for ASCII text that reads no logs. -/
def asciiHost : Host where
  runtime := asciiEnv.toRuntime
  decimal := asciiDecimal
  floatText _ := none
  roundEight x := x
  readLog _ := none

/-- A row with a generation of 100 tokens in 5 steps and 7 seconds. -/
def sampleRow (log : Json) : Obj :=
  Obj.of [("task", "task_1"), ("generation", .dict (Obj.of [("tokens_used", .int 100),
    ("steps", .int 5), ("duration_s", .int 7), ("log", log)]))]

/-- A group of five calls with 100 tokens. -/
def sampleCost : Obj :=
  Obj.of [("api_usage", .dict (Obj.of [("groups", .list [.dict (Obj.of
    [("api_usage_path", "runs/api_usage.jsonl"), ("total_tokens", .int 100),
      ("calls", .int 5)])])]))]

/-- The attempts and the tokens of the tasks of a report. -/
def spendOf (result : Except PyErr (List (Str × Option PyFloat × CostEntry))) :
    Option (List (Str × Nat × Int)) :=
  result.toOption.map fun entries => entries.map fun entry =>
    (entry.1, entry.2.2.workflowAttempts, entry.2.2.workflowTokens)

theorem exists_of_spendOf {result : Except PyErr (List (Str × Option PyFloat × CostEntry))}
    {spend : List (Str × Nat × Int)} (h : spendOf result = some spend) :
    ∃ entries, result = .ok entries := by
  cases result with
  | ok entries => exact ⟨entries, rfl⟩
  | error => simp [spendOf, Except.toOption] at h

/-- With the log path first, the generation is counted once and charged its group. -/
theorem spend_counted_once_sample :
    ∃ result groups, assignCosts asciiHost [sampleRow "runs/log", sampleRow .null] sampleCost =
      .ok result ∧ apiGroups sampleCost = .ok groups ∧ ChargedOnce groups result ∧
        RepeatsAddNothing asciiHost groups sampleCost [sampleRow "runs/log", sampleRow .null] := by
  have hspend : spendOf (assignCosts asciiHost [sampleRow "runs/log", sampleRow .null] sampleCost) =
      some [(lit "task_1", 1, 100)] := by decide +kernel
  obtain ⟨result, hresult⟩ := exists_of_spendOf hspend
  obtain ⟨groups, hgroups, hcharged, hrepeats⟩ := spend_counted_once_iff _ _ _ hresult
  refine ⟨result, groups, hresult, hgroups, hcharged, hrepeats.mpr ?_⟩
  have hseen : sightings asciiHost sampleCost [sampleRow "runs/log", sampleRow .null] =
      [⟨.text "runs/log", ("task_1", .number 100), (.number 5, .number 7)⟩,
        ⟨.none, ("task_1", .number 100), (.number 5, .number 7)⟩] := by decide +kernel
  rw [hseen]
  rintro ⟨before, s, between, t, after, hsplit, hs, ht, -⟩
  -- the record with the path is the first one
  cases before with
  | nil =>
    obtain ⟨rfl, -⟩ := List.cons.inj hsplit
    exact absurd hs (by decide)
  | cons first rest =>
    obtain ⟨-, hrest⟩ := List.cons.inj hsplit
    have hlength := congrArg List.length hrest
    simp at hlength
    omega

/-- With the log path second, it is counted twice, although every row has a record. -/
theorem repeated_generation_counted_twice :
    spendOf (assignCosts asciiHost [sampleRow .null, sampleRow "runs/log"] []) =
        some [(lit "task_1", 2, 200)] ∧
      spendOf (assignCosts asciiHost [sampleRow "runs/log", sampleRow .null] []) =
        some [(lit "task_1", 1, 100)] ∧
      ([sampleRow .null, sampleRow "runs/log"].all fun row =>
        !(rowRecords asciiHost [] row).isEmpty) = true ∧
      ¬RepeatsAddNothing asciiHost [] [] [sampleRow .null, sampleRow "runs/log"] := by
  have hspend : spendOf (assignCosts asciiHost [sampleRow .null, sampleRow "runs/log"] []) =
      some [(lit "task_1", 2, 200)] := by decide +kernel
  refine ⟨hspend, by decide +kernel, by decide +kernel, ?_⟩
  obtain ⟨result, hresult⟩ := exists_of_spendOf hspend
  obtain ⟨groups, hgroups, hresult⟩ := bind_eq_ok_iff.mp hresult
  obtain ⟨final, hfinal, -⟩ := bind_eq_ok_iff.mp hresult
  have hnone : apiGroups [] = .ok [] := rfl
  rw [hnone] at hgroups
  cases hgroups
  rw [repeatsAddNothing_iff hfinal, not_not]
  refine ⟨[], ⟨.none, ("task_1", .number 100), (.number 5, .number 7)⟩, [],
    ⟨.text "runs/log", ("task_1", .number 100), (.number 5, .number 7)⟩, [], ?_, rfl, rfl,
    ⟨rfl, rfl⟩, fun _ h => absurd h List.not_mem_nil⟩
  decide +kernel

end Samples

end OpenCollabEval.Spend
