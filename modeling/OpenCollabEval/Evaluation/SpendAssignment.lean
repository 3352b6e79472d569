import OpenCollabEval.Evaluation.SpendRecords

/-!
# Charging the spend of a report

`_assign_costs`: the rows of a report are read in order, the generations behind each row are counted
for its task unless they were counted before, and each counted generation is charged the group of
API calls that matches it. A row without a record is charged the groups in the directory of its
task.
-/

open Python

namespace OpenCollabEval.Spend

/-- What `hash` and `==` tell apart. JSON documents share one NaN object, which a set finds by
identity. -/
inductive SetKey where
  | none
  | number (q : ℚ)
  | infinite (negative : Bool)
  | nan
  | text (s : Str)
  deriving DecidableEq

/-- The key of a value in a set. -/
def setKey : Json → Except PyErr SetKey
  | .null => .ok .none
  | .bool b => .ok (.number (if b then 1 else 0))
  | .int n => .ok (.number n)
  | .float .nan => .ok .nan
  | .float (.inf negative) => .ok (.infinite negative)
  | .float (.finite negative significand exponent _) =>
    .ok (.number ((if negative then -1 else 1) * significand * 2 ^ exponent))
  | .str s => .ok (.text s)
  | .list _ | .dict _ => .error .typeError

/-- The key of a value that a set takes. -/
def hashed (v : Json) : SetKey := (setKey v).toOption.getD .none

/-- `not key` for a key in a set. -/
def SetKey.truthy : SetKey → Bool
  | none => false
  | number q => q ≠ 0
  | infinite _ | nan => true
  | text s => !s.isEmpty

/-- `_record_key(record, row)` as it stands in a set. -/
structure RecordKey where
  path : SetKey
  tokens : SetKey
  steps : SetKey
  duration : SetKey
  deriving DecidableEq

/-- The key of a record without its path. -/
def RecordKey.fingerprint (key : RecordKey) : SetKey × SetKey × SetKey :=
  (key.tokens, key.steps, key.duration)

/-- The record has a log path. -/
def RecordKey.hasPath (key : RecordKey) : Bool := key.path.truthy

/-- The key of a record that a set takes. -/
def recordKey (record : Obj) : RecordKey where
  path := hashed (record.get "path")
  tokens := hashed (record.get "tokens")
  steps := hashed (record.get "steps")
  duration := hashed (record.get "duration_s")

theorem hashed_of_setKey {v : Json} {key : SetKey} (h : setKey v = .ok key) : hashed v = key := by
  rw [hashed, h]
  rfl

/-- A key is true when its value is. -/
theorem truthy_of_setKey {v : Json} {key : SetKey} (h : setKey v = .ok key) :
    key.truthy = v.truthy := by
  cases v with
  | null | str =>
    cases h
    rfl
  | int n =>
    cases h
    rw [Bool.eq_iff_iff]
    simp [SetKey.truthy, Json.truthy]
  | bool b =>
    cases h
    cases b <;> simp [SetKey.truthy, Json.truthy]
  | float x =>
    cases x with
    | nan | inf =>
      cases h
      rfl
    | finite negative significand exponent =>
      cases h
      have hpower : (2 : ℚ) ^ exponent ≠ 0 := zpow_ne_zero _ two_ne_zero
      rw [Bool.eq_iff_iff]
      cases negative <;> simp [SetKey.truthy, Json.truthy, PyFloat.truthy, hpower]
  | list | dict => cases h

/-- A value that is false is no true key. -/
theorem truthy_hashed_of_falsy {v : Json} (h : v.truthy = false) : (hashed v).truthy = false := by
  cases hkey : setKey v with
  | ok key => rw [hashed_of_setKey hkey, truthy_of_setKey hkey, h]
  | error => rw [hashed, hkey]; rfl

/-- A group as a task reports it. -/
structure AssignedGroup where
  apiUsagePath : Json
  pid : Json
  totalTokens : Json
  calls : Json
  costUsd : Json
  costUsdComplete : Json
  matchReason : Str

/-- The fields of a group that are reported. -/
def assignedGroup (group : Obj) (matchReason : Str) : AssignedGroup where
  apiUsagePath := group.get "api_usage_path"
  pid := group.get "pid"
  totalTokens := group.get "total_tokens"
  calls := group.get "calls"
  costUsd := group.get "cost_usd"
  costUsdComplete := group.get "cost_usd_complete"
  matchReason := matchReason

/-- Why a record has no group. -/
structure CostNote where
  reason : Str
  recordPath : Json
  recordTokens : Int
  recordSteps : Json

/-- The spend of a task. -/
structure CostEntry where
  workflowTokens : Int
  workflowAttempts : Nat
  costUsd : PyFloat
  costUsdComplete : Bool
  apiUsageGroups : List AssignedGroup
  costAssignmentNotes : List CostNote

/-- The spend of a task before its first row. -/
def CostEntry.empty : CostEntry := ⟨0, 0, .ofRat 0, true, [], []⟩

/-- What is kept of the counted records of a task: their keys, their keys without the path, and the
tokens of those with a path. -/
structure Memory where
  records : List RecordKey
  fingerprints : List (SetKey × SetKey × SetKey)
  pathTokens : List SetKey

/-- No record is counted. -/
def Memory.empty : Memory := ⟨[], [], []⟩

/-- A record is counted. -/
def Memory.add (memory : Memory) (key : RecordKey) (path : Json) : Memory where
  records := memory.records ++ [key]
  fingerprints := memory.fingerprints ++ [key.fingerprint]
  pathTokens := if path.truthy then memory.pathTokens ++ [key.tokens] else memory.pathTokens

/-- A counted record has the same numbers, or it has a path and the same tokens. -/
def Memory.knowsNumbers (memory : Memory) (fingerprint : SetKey × SetKey × SetKey) : Bool :=
  decide (fingerprint ∈ memory.fingerprints) || decide (fingerprint.1 ∈ memory.pathTokens)

/-- A record with a key is counted. -/
def Memory.Takes (memory : Memory) (key : RecordKey) : Prop :=
  (key.hasPath = true ∨ memory.knowsNumbers key.fingerprint = false) ∧ key ∉ memory.records

/-- What `_assign_costs` keeps between two rows. -/
structure Assignment where
  used : List Nat
  tasks : List Str
  entry : Str → CostEntry
  memory : Str → Memory

namespace Assignment

/-- Nothing is charged. -/
def start : Assignment := ⟨[], [], fun _ => .empty, fun _ => .empty⟩

/-- `assigned.setdefault(task, …)` -/
def withTask (state : Assignment) (task : Str) : Assignment :=
  if state.tasks.contains task then state else { state with tasks := state.tasks ++ [task] }

/-- The spend of a task changes. -/
def setEntry (state : Assignment) (task : Str) (entry : CostEntry) : Assignment :=
  { state with entry := Function.update state.entry task entry }

/-- A record is remembered. -/
def remember (state : Assignment) (task : Str) (key : RecordKey) (path : Json) : Assignment :=
  { state with memory := Function.update state.memory task ((state.memory task).add key path) }

variable {state : Assignment} {task other : Str}

@[simp]
theorem setEntry_entry_self (entry : CostEntry) : (state.setEntry task entry).entry task = entry :=
  Function.update_self ..

theorem setEntry_entry_of_ne (h : other ≠ task) (entry : CostEntry) :
    (state.setEntry task entry).entry other = state.entry other :=
  Function.update_of_ne h ..

@[simp]
theorem remember_memory_self (key : RecordKey) (path : Json) :
    (state.remember task key path).memory task = (state.memory task).add key path :=
  Function.update_self ..

theorem remember_memory_of_ne (h : other ≠ task) (key : RecordKey) (path : Json) :
    (state.remember task key path).memory other = state.memory other :=
  Function.update_of_ne h ..

end Assignment

section Steps

variable (host : Host) (groups : List Obj)

/-- `_assign_api_group(entry, group, match_reason)` -/
def assignApiGroup (entry : CostEntry) (group : Obj) (matchReason : Str) : Except PyErr CostEntry :=
  let listed := { entry with
    apiUsageGroups := entry.apiUsageGroups ++ [assignedGroup group matchReason] }
  if (group.get "cost_usd_complete").truthy then do
    let cost ← floatOrZero host (group.get "cost_usd")
    return { listed with costUsd := listed.costUsd.add cost }
  else .ok { listed with costUsdComplete := false }

/-- A group is charged to a task. -/
def Assignment.charge (state : Assignment) (task : Str) (index : Nat) (matchReason : Str) :
    Except PyErr Assignment := do
  let entry ← assignApiGroup host (state.entry task) (groups.getD index []) matchReason
  return { state.setEntry task entry with used := state.used ++ [index] }

/-- The group of a counted record, or a note that it has none. -/
def Assignment.settle (state : Assignment) (task : Str) (record : Obj) (tokens : Int) :
    Except PyErr Assignment := do
  match ← matchGroup host record groups state.used with
  | (some index, matchReason) => state.charge host groups task index matchReason
  | (none, matchReason) =>
    let entry := state.entry task
    let note := ⟨matchReason, record.get "path", tokens, record.get "steps"⟩
    return state.setEntry task { entry with
      costUsdComplete := false
      costAssignmentNotes := entry.costAssignmentNotes ++ [note] }

/-- A record that was not counted before. -/
def Assignment.count (state : Assignment) (task : Str) (record : Obj) (key : RecordKey) :
    Except PyErr Assignment := do
  let tokens ← intOrZero host (record.get "tokens")
  let entry := state.entry task
  let counting := { entry with
    workflowAttempts := entry.workflowAttempts + 1
    workflowTokens := entry.workflowTokens + tokens }
  let counted := (state.remember task key (record.get "path")).setEntry task counting
  counted.settle host groups task record tokens

/-- One record of a row. -/
def addRecord (task : Str) (state : Assignment) (record : Obj) : Except PyErr Assignment := do
  let tokens ← setKey (record.get "tokens")
  let steps ← setKey (record.get "steps")
  let duration ← setKey (record.get "duration_s")
  if !(record.get "path").truthy && (state.memory task).knowsNumbers (tokens, steps, duration) then
    return state
  else
    let path ← setKey (record.get "path")
    let key : RecordKey := ⟨path, tokens, steps, duration⟩
    if key ∈ (state.memory task).records then return state
    else state.count host groups task record key

/-- A record changes nothing, or it is counted. -/
theorem addRecord_cases {host : Host} {groups : List Obj} {task : Str} {state next : Assignment}
    {record : Obj} (h : addRecord host groups task state record = .ok next) :
    (¬(state.memory task).Takes (recordKey record) ∧ next = state) ∨
      ((state.memory task).Takes (recordKey record) ∧
        (recordKey record).hasPath = (record.get "path").truthy ∧
          state.count host groups task record (recordKey record) = .ok next) := by
  obtain ⟨tokens, htokens, h⟩ := bind_eq_ok_iff.mp h
  obtain ⟨steps, hsteps, h⟩ := bind_eq_ok_iff.mp h
  obtain ⟨duration, hduration, h⟩ := bind_eq_ok_iff.mp h
  have hfingerprint : (recordKey record).fingerprint = (tokens, steps, duration) := by
    rw [RecordKey.fingerprint, recordKey, hashed_of_setKey htokens, hashed_of_setKey hsteps,
      hashed_of_setKey hduration]
  split at h
  · rename_i hknown
    rw [Bool.and_eq_true, Bool.not_eq_true'] at hknown
    left
    refine ⟨fun htakes => ?_, by cases h; rfl⟩
    rcases htakes.1 with hpath | hnumbers
    · rw [RecordKey.hasPath, recordKey, truthy_hashed_of_falsy hknown.1] at hpath
      cases hpath
    · rw [hfingerprint, hknown.2] at hnumbers
      cases hnumbers
  · rename_i hnumbers
    obtain ⟨path, hpath, h⟩ := bind_eq_ok_iff.mp h
    have hkey : (⟨path, tokens, steps, duration⟩ : RecordKey) = recordKey record := by
      rw [recordKey, hashed_of_setKey htokens, hashed_of_setKey hsteps, hashed_of_setKey hduration,
        hashed_of_setKey hpath]
    have htruthy : (recordKey record).hasPath = (record.get "path").truthy := by
      rw [← hkey]
      exact truthy_of_setKey hpath
    rw [hkey] at h
    dsimp only at h
    split at h
    · rename_i hmem
      cases h
      exact .inl ⟨fun htakes => htakes.2 hmem, rfl⟩
    · rename_i hmem
      refine .inr ⟨⟨?_, hmem⟩, htruthy, h⟩
      rw [hfingerprint, htruthy]
      cases hp : (record.get "path").truthy
      · rw [hp] at hnumbers
        right
        simpa using hnumbers
      · exact .inl rfl

/-- A group in the directory of a task. -/
def chargeDirect (task : Str) (state : Assignment) (index : Nat) : Except PyErr Assignment := do
  let group := groups.getD index []
  let tokens ← intOrZero host (Obj.get group "total_tokens")
  let entry := state.entry task
  let counting := { entry with
    workflowAttempts := entry.workflowAttempts + 1
    workflowTokens := entry.workflowTokens + tokens }
  (state.setEntry task counting).charge host groups task index "matched_by_task_directory"

/-- The groups in the directory of a task that are not charged yet. -/
def directGroups (task : Str) (logPath : Json) (used : List Nat) : List Nat :=
  (groups.zipIdx.filter fun (group, index) =>
    decide (index ∉ used) && (decide (0 < pathMatchScore host logPath group) ||
      (PosixPath.ofStr (groupRoot host group)).parts.contains task)).map Prod.snd

/-- One row. -/
def addRow (tokenCost : Obj) (state : Assignment) (row : Obj) : Except PyErr Assignment := do
  let task := taskKey row
  if task.isEmpty then return state
  else
    let opened := state.withTask task
    let records ← taskWorkflowRecords host tokenCost row
    if records.isEmpty then
      (directGroups host groups task ((generationOf row).get "log") opened.used).foldlM
        (chargeDirect host groups task) opened
    else records.foldlM (addRecord host groups task) opened

/-- The cost of a task when all rows are read. -/
def CostEntry.finish (host : Host) (entry : CostEntry) : Option PyFloat × CostEntry :=
  let complete := entry.costUsdComplete && !entry.apiUsageGroups.isEmpty
  (if complete then some (host.roundEight entry.costUsd) else none,
    { entry with costUsdComplete := complete })

/-- `_assign_costs(rows, token_cost)`: each task with its cost in dollars and with the rest of its
spend. -/
def assignCosts (rows : List Obj) (tokenCost : Obj) :
    Except PyErr (List (Str × Option PyFloat × CostEntry)) := do
  let groups ← apiGroups tokenCost
  let state ← rows.foldlM (addRow host groups tokenCost) .start
  return state.tasks.map fun task => (task, (state.entry task).finish host)

end Steps

end OpenCollabEval.Spend
