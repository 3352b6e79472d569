import OpenCollabEval.Queue.JobKeys
import OpenCollabEval.Queue.LaunchBudget
import OpenCollabEval.Queue.Reports
import Mathlib.Data.List.ReduceOption

/-!
# Verdicts that the queue records

The queue together with the reports of its parents, which children and other programs change between
its steps. A job is recorded as evaluated over contradictory reports only where the check for them did
not see all of them: a launch after a failed one goes ahead without the check, a report under another
job's name is not looked at, and another program may add a report behind the check.
-/

open Python

namespace OpenCollabEval

/-- The queue, the files of each parent, and the report that each worker's child is to write. -/
structure ReportedQueue (ι : Type) where
  queue : QueueState ι
  reports : Str → ReportDirectory
  outputs : ι → Option Str

/-- The steps of the queue beside its reports. -/
inductive ReportedAction (ι : Type) where
  /-- A child or another program changes the files of a parent. -/
  | write (parent : Str) (dir : ReportDirectory)
  /-- A worker looks at the reports and builds the command of its child, `none` when it cannot. -/
  | look (worker : ι) (observedAttempts : Nat) (attempt : Option Nat)
  /-- A worker reads the report of its child and records what came of it. A report with a verdict is
  moved aside when the child failed, unless that fails. -/
  | result (worker : ι) (returncode : Option Int) (moved : Bool) (observedAttempts : Nat)
      (persisted : Bool)
  /-- Any other step, exceptions included. -/
  | other (action : QueueAction ι)

/-- The steps that depend on what the reports say. -/
def QueueAction.readsReports {ι : Type} : QueueAction ι → Bool
  | .look _ seen => seen.isSome
  | .result _ child _ _ => child.isSome
  | _ => false

section Machine

variable {ι : Type} [DecidableEq ι] (env : Env) (patchBudget : Int) (queueId : Str) (jobs : ι → Job)

/-- The key of a worker's job. -/
def workerKey (i : ι) : Str := jobKey env (jobs i)

/-- The files beside the job of a worker. -/
def ReportedQueue.beside (s : ReportedQueue ι) (i : ι) : ReportDirectory :=
  s.reports (jobs i).parentOutputDir

/-- What a worker finds at its next look. -/
def lookSeen (s : ReportedQueue ι) (table : JobTable) (worker : ι) (observedAttempts : Nat)
    (attempt : Option Nat) : Option Observation :=
  observe env patchBudget (jobs worker) (s.beside jobs worker) (table (workerKey env jobs worker))
    observedAttempts attempt.isSome

/-- What came of the child of a worker. -/
def childResult (s : ReportedQueue ι) (worker : ι) (returncode : Option Int) (moved : Bool) :
    Option ChildOutcome :=
  childOutcome env patchBudget (jobs worker)
    ((s.outputs worker).bind (childRow · (s.beside jobs worker))) returncode moved

/-- The files of a parent after a child's report was moved aside, if it was. -/
def retire (output : Option Str) (child : ChildOutcome) (dir : ReportDirectory) : ReportDirectory :=
  if child.rowTerminal && child.returncode != some 0 && child.quarantined then
    dir.filter fun file => some file.name != output
  else dir

/-- One step of the queue beside its reports. -/
def reportedStep (s : ReportedQueue ι) : ReportedAction ι → Option (ReportedQueue ι)
  | .write parent dir => some { s with reports := Function.update s.reports parent dir }
  | .look worker observedAttempts attempt =>
    let output := attempt.map (childOutput env (jobs worker) queueId)
    -- the name of a child's report is new
    if (s.beside jobs worker).any fun file => some file.name == output then none
    else do
      let (table, _) ← s.queue.invocation
      let queue ← queueStep (workerKey env jobs) s.queue
        (.look worker (lookSeen env patchBudget jobs s table worker observedAttempts attempt))
      return { s with queue, outputs := Function.update s.outputs worker output }
  | .result worker returncode moved observedAttempts persisted => do
    let child ← childResult env patchBudget jobs s worker returncode moved
    let queue ← queueStep (workerKey env jobs) s.queue
      (.result worker (some child) observedAttempts persisted)
    let dir := retire (s.outputs worker) child (s.beside jobs worker)
    return { s with
      queue, reports := Function.update s.reports (jobs worker).parentOutputDir dir }
  | .other action => do
    if action.readsReports then none
    return { s with queue := ← queueStep (workerKey env jobs) s.queue action }

/-- A run of the queue beside its reports. -/
def reportedRun (s : ReportedQueue ι) (actions : List (ReportedAction ι)) :
    Option (ReportedQueue ι) :=
  actions.foldlM (reportedStep env patchBudget queueId jobs) s

/-- The status that a step records for a job. -/
def recordedStatus (s : ReportedQueue ι) : ReportedAction ι → Option (ι × JobStatus)
  | .result worker returncode moved _ _ =>
    (childResult env patchBudget jobs s worker returncode moved).map fun child =>
      (worker, resultStatus child)
  | .other (.record worker _) => do
    let (_, workers) ← s.queue.invocation
    match workers worker with
    | .recording status => some (worker, status)
    | .exhausted _ => some (worker, .launchBudgetExhausted)
    | .recovering _ => some (worker, .commandFailed)
    | _ => none
  | _ => none

end Machine

/-- The queue before its first invocation, with any reports. -/
def ReportedQueue.init (ι : Type) (reports : Str → ReportDirectory) : ReportedQueue ι :=
  ⟨.init ι, reports, fun _ => none⟩

section Verdicts

variable (env : Env) (patchBudget : Int)

/-- A report of the parent, not quarantined, has a proven verdict on a job. -/
structure ReportFile.Holds (job : Job) (file : ReportFile) (verdict : Bool) : Prop where
  report : isParentReport file.name = true
  live : file.quarantined = false
  row : ∃ rows, file.rows = some rows ∧
    ∃ row ∈ rows, rowVerdict env patchBudget job row = .ok (some verdict)

/-- Some report of the parent has a verdict, other than the one with a given name. -/
def CarriesBeside (output : Option Str) (job : Job) (dir : ReportDirectory) (verdict : Bool) :
    Prop :=
  ∃ file ∈ dir, some file.name ≠ output ∧ file.Holds env patchBudget job verdict

/-- Some report of the parent has a verdict. -/
abbrev Carries (job : Job) (dir : ReportDirectory) (verdict : Bool) : Prop :=
  CarriesBeside env patchBudget none job dir verdict

/-- Two reports of the parent have opposite verdicts. -/
def Contradicted (job : Job) (dir : ReportDirectory) : Prop :=
  Carries env patchBudget job dir true ∧ Carries env patchBudget job dir false

/-- Every report with a verdict on a job has a name that the check looks at. -/
def AllLookedAt (job : Job) (dir : ReportDirectory) : Prop :=
  ∀ file ∈ dir, ∀ verdict, file.Holds env patchBudget job verdict →
    isTerminalReport job.index file.name = true

/-- The report that a worker's child may be writing. -/
def ownOutput (output : Option Str) : WorkerState → Option Str
  | .launched _ => output
  | _ => none

/-- A worker between its look and its record. -/
def betweenLookAndRecord : WorkerState → Bool
  | .recording _ | .reserving | .reserved _ | .launched _ => true
  | _ => false

variable {ι : Type} [DecidableEq ι] (jobs : ι → Job)

/-- What a step must keep for the check to be sound:
* while a worker is between its look and its record, no one but its child adds a verdict on its job;
* at a look, the check looks at every report with a verdict on the job, and there is none when the
  last launch of the job failed;
* the report of a child does not hold both verdicts when its worker reads it. -/
def StepMeets (s : ReportedQueue ι) : ReportedAction ι → Prop
  | .write parent dir => ∀ table workers i, s.queue.invocation = some (table, workers) →
      betweenLookAndRecord (workers i) = true → (jobs i).parentOutputDir = parent → ∀ verdict,
      CarriesBeside env patchBudget (ownOutput (s.outputs i) (workers i)) (jobs i) dir verdict →
      CarriesBeside env patchBudget (ownOutput (s.outputs i) (workers i)) (jobs i)
        (s.beside jobs i) verdict
  | .look worker _ _ => AllLookedAt env patchBudget (jobs worker) (s.beside jobs worker) ∧
      ∀ table workers, s.queue.invocation = some (table, workers) →
        previousFailed (table (workerKey env jobs worker)) = true →
        ∀ verdict, ¬Carries env patchBudget (jobs worker) (s.beside jobs worker) verdict
  | .result worker _ _ _ _ => ∀ output, s.outputs worker = some output →
      ¬Contradicted env patchBudget (jobs worker)
        ((s.beside jobs worker).filter (·.name == output))
  | .other _ => True

/-- Every step of a run meets the condition. -/
def RunMeets (queueId : Str) (s : ReportedQueue ι) : List (ReportedAction ι) → Prop
  | [] => True
  | action :: rest => StepMeets env patchBudget jobs s action ∧
      ∀ s', reportedStep env patchBudget queueId jobs s action = some s' →
        RunMeets queueId s' rest

/-- What the reports say of the job of a worker. -/
def WorkerSound (output : Option Str) (job : Job) (dir : ReportDirectory) : WorkerState → Prop
  | .recording status => status = .terminal ∨ status = .skippedTerminal →
      ¬Contradicted env patchBudget job dir
  | .reserving | .reserved _ => ∀ verdict, ¬Carries env patchBudget job dir verdict
  | .launched _ => ∀ verdict, ¬CarriesBeside env patchBudget output job dir verdict
  | _ => True

/-- The reports beside every worker are as its look and its launch left them. -/
def ReportsSound (s : ReportedQueue ι) : Prop :=
  ∀ table workers, s.queue.invocation = some (table, workers) →
    ∀ i, WorkerSound env patchBudget (s.outputs i) (jobs i) (s.beside jobs i) (workers i)

end Verdicts

section Workers

variable {ι : Type} [DecidableEq ι] {key : ι → Str} {s s' : QueueState ι}

/-- A look moves its worker on as the look decides, and no other worker. -/
theorem queueStep_look {worker : ι} {seen : Option Observation}
    (h : queueStep key s (.look worker seen) = some s') :
    ∃ table workers, s.invocation = some (table, workers) ∧
      s'.invocation = some (table, Function.update workers worker
        (match seen.map (runJobDecision (table (key worker))) with
        | none => .raised
        | some (some status) => .recording status
        | some none => .reserving)) := by
  rcases hs : s.invocation with _ | ⟨table, workers⟩
  · simp [queueStep, hs] at h
  · simp only [queueStep, hs, invocationStep] at h
    refine ⟨table, workers, rfl, ?_⟩
    rcases hworker : workers worker with _ | _ | _ | _ | _ | _ | _ | _ | _ <;>
      rcases seen with _ | seen <;> simp only [hworker] at h <;> try contradiction
    · cases h
      rfl
    · rcases hdecision : runJobDecision (table (key worker)) seen with _ | status <;>
        simp only [hdecision] at h <;> cases h <;> simp [QueueState.moveTo, hdecision]

/-- How a worker between its look and its record came there, other than by a look. -/
inductive Proceeds : WorkerState → WorkerState → Prop
  | stay (state : WorkerState) : Proceeds state state
  | reserve (count : Nat) : Proceeds .reserving (.reserved count)
  | launch (count : Nat) : Proceeds (.reserved count) (.launched count)

/-- Only the worker of a step changes its state. -/
theorem proceeds_update {workers : ι → WorkerState} {worker i : ι} {next : WorkerState}
    (hbetween : betweenLookAndRecord (Function.update workers worker next i) = true)
    (hnext : betweenLookAndRecord next = true → Proceeds (workers worker) next) :
    Proceeds (workers i) (Function.update workers worker next i) := by
  by_cases hi : i = worker
  · subst hi
    rw [Function.update_self] at hbetween ⊢
    exact hnext hbetween
  · rw [Function.update_of_ne hi]
    exact .stay _

/-- Only a look brings a worker to its record, and a launch goes on from there. -/
theorem worker_of_queueStep {action : QueueAction ι} {table' : JobTable}
    {workers' : ι → WorkerState} (h : queueStep key s action = some s')
    (hlook : ∀ worker seen, action ≠ .look worker seen)
    (hs' : s'.invocation = some (table', workers')) (i : ι)
    (hbetween : betweenLookAndRecord (workers' i) = true) :
    ∃ table workers, s.invocation = some (table, workers) ∧ Proceeds (workers i) (workers' i) := by
  rcases hs : s.invocation with _ | ⟨table, workers⟩
  · cases action <;> simp only [queueStep, hs, Option.some.injEq, reduceCtorEq] at h
    subst h
    cases hs'
    simp [betweenLookAndRecord] at hbetween
  refine ⟨table, workers, rfl, ?_⟩
  simp only [queueStep, hs] at h
  cases action with
  | start => cases h
  | kill =>
    cases h
    cases hs'
  | finish =>
    cases h
    cases hs'
  | look worker seen => exact absurd rfl (hlook worker seen)
  | record worker persisted =>
    simp only [invocationStep] at h
    split at h <;> cases h <;> cases hs' <;>
      exact proceeds_update hbetween fun hnext => by cases persisted <;> simp [betweenLookAndRecord] at hnext
  | reserve worker persisted =>
    simp only [invocationStep] at h
    split at h
    next hworker =>
      split at h <;> cases h <;> cases hs'
      · exact proceeds_update hbetween fun hnext => by simp [betweenLookAndRecord] at hnext
      · refine proceeds_update hbetween fun hnext => ?_
        cases persisted
        · simp [betweenLookAndRecord] at hnext
        · exact hworker ▸ .reserve _
    · cases h
  | launch worker =>
    simp only [invocationStep] at h
    split at h
    next count hworker =>
      cases h
      cases hs'
      exact proceeds_update hbetween fun _ => hworker ▸ .launch count
    · cases h
  | result worker child observedAttempts persisted =>
    have hended : ∀ count observed, betweenLookAndRecord (if persisted = true then
        if retries count observed observedAttempts = true then .ready else .finished
        else .raised) = false := by
      intro count observed
      split <;> [split; skip] <;> rfl
    simp only [invocationStep] at h
    split at h
    · cases h
      cases hs'
      exact proceeds_update hbetween fun hnext => by simp [betweenLookAndRecord] at hnext
    · cases h
      cases hs'
      exact proceeds_update hbetween fun hnext => by simp [hended] at hnext
    · split at h
      · cases h
      · cases h
        cases hs'
        exact proceeds_update hbetween fun hnext => by simp [hended] at hnext
    · cases h
  | recover worker =>
    simp only [invocationStep] at h
    split at h
    · cases h
      cases hs'
      exact proceeds_update hbetween fun hnext => by simp [betweenLookAndRecord] at hnext
    · cases h

end Workers

section Soundness

variable {env : Env} {patchBudget : Int} {job : Job} {dir dir' : ReportDirectory}

/-- A sequence of calls that all find something finds it for each item. -/
theorem mem_of_mapM_eq_some {α β : Type} {f : α → Option β} {items : List α} {results : List β}
    (h : items.mapM f = some results) : ∀ item ∈ items, ∃ result ∈ results, f item = some result := by
  induction items generalizing results with
  | nil => simp
  | cons item rest ih =>
    rw [List.mapM_cons] at h
    obtain ⟨result, hresult, h⟩ := Option.bind_eq_some_iff.mp h
    obtain ⟨others, hothers, h⟩ := Option.bind_eq_some_iff.mp h
    cases h
    rw [List.forall_mem_cons]
    refine ⟨⟨result, by simp, hresult⟩, fun other hother => ?_⟩
    obtain ⟨found, hfound, heq⟩ := ih hothers other hother
    exact ⟨found, by simp [hfound], heq⟩

/-- A sequence of calls that all return has the result of each item. -/
theorem mem_of_mapM_eq_ok {ε α β : Type} {f : α → Except ε β} {items : List α} {results : List β}
    (h : items.mapM f = .ok results) : ∀ item ∈ items, ∃ result ∈ results, f item = .ok result := by
  have hall := forall₂_of_mapM_eq_ok h
  clear h
  induction hall with
  | nil => simp
  | cons hfirst _ ih =>
    rw [List.forall_mem_cons]
    refine ⟨⟨_, by simp, hfirst⟩, fun item hitem => ?_⟩
    obtain ⟨result, hresult, heq⟩ := ih item hitem
    exact ⟨result, by simp [hresult], heq⟩

/-- The verdicts read from a report are all that it holds. -/
theorem ReportFile.Holds.mem_verdicts {file : ReportFile} {verdict : Bool} {found : List Bool}
    (h : file.Holds env patchBudget job verdict)
    (hfound : file.verdicts env patchBudget job = some found) : verdict ∈ found := by
  obtain ⟨rows, hrows, row, hrow, hverdict⟩ := h.row
  simp only [verdicts, hrows, Option.bind_eq_bind, Option.bind_some] at hfound
  obtain ⟨verdicts, hverdicts, hfound⟩ := Option.bind_eq_some_iff.mp hfound
  cases hfound
  rcases hall : rows.mapM (rowVerdict env patchBudget job) with e | all
  · simp [hall, Except.toOption] at hverdicts
  obtain rfl : all = verdicts := by simpa [hall, Except.toOption] using hverdicts
  obtain ⟨result, hresult, heq⟩ := mem_of_mapM_eq_ok hall row hrow
  rw [hverdict] at heq
  cases heq
  exact List.reduceOption_mem_iff.mpr hresult

/-- A check that looks at every report with a verdict sees every verdict. -/
theorem terminalReport_sees {status : TerminalStatus}
    (h : terminalReport env patchBudget job dir = some status)
    (hall : AllLookedAt env patchBudget job dir) :
    ∃ verdicts : List Bool, (∀ verdict, Carries env patchBudget job dir verdict → verdict ∈ verdicts) ∧
      status = if verdicts.contains true && verdicts.contains false then .conflict
        else if verdicts.isEmpty then .missing else .verified := by
  unfold terminalReport at h
  obtain ⟨found, hfound, h⟩ := Option.bind_eq_some_iff.mp h
  cases h
  refine ⟨found.flatten, ?_, rfl⟩
  rintro verdict ⟨file, hfile, -, hholds⟩
  have hlooked : file ∈ dir.filter fun file => isTerminalReport job.index file.name :=
    List.mem_filter.mpr ⟨hfile, hall file hfile verdict hholds⟩
  obtain ⟨verdicts, hmem, hverdicts⟩ := mem_of_mapM_eq_some hfound file hlooked
  exact List.mem_flatten.mpr ⟨verdicts, hmem, hholds.mem_verdicts hverdicts⟩

/-- A worker that decides to skip has seen verdicts that agree. -/
theorem not_contradicted_of_verified (h : terminalReport env patchBudget job dir = some .verified)
    (hall : AllLookedAt env patchBudget job dir) : ¬Contradicted env patchBudget job dir := by
  obtain ⟨verdicts, hsees, hstatus⟩ := terminalReport_sees h hall
  rintro ⟨htrue, hfalse⟩
  simp [hsees true htrue, hsees false hfalse] at hstatus

/-- A worker that decides to launch has seen no verdict. -/
theorem not_carries_of_missing (h : terminalReport env patchBudget job dir = some .missing)
    (hall : AllLookedAt env patchBudget job dir) (verdict : Bool) :
    ¬Carries env patchBudget job dir verdict := by
  obtain ⟨verdicts, hsees, hstatus⟩ := terminalReport_sees h hall
  intro hcarries
  have hmem := hsees verdict hcarries
  split at hstatus
  · cases hstatus
  split at hstatus
  next hempty => simp_all
  · cases hstatus

/-- What a worker decides at a look. -/
theorem decision_of_look {previous : Option JobRecord} {observedAttempts : Nat} {argvBuilt : Bool}
    {seen : Observation}
    (h : observe env patchBudget job dir previous observedAttempts argvBuilt = some seen) :
    (∀ status, runJobDecision previous seen = some status →
        status = .terminal ∨ status = .skippedTerminal →
        terminalReport env patchBudget job dir = some .verified) ∧
      (runJobDecision previous seen = none → previousFailed previous = true ∨
        terminalReport env patchBudget job dir = some .missing) := by
  unfold observe at h
  obtain ⟨identity, -, h⟩ := Option.bind_eq_some_iff.mp h
  obtain ⟨terminal, hterminal, h⟩ := Option.bind_eq_some_iff.mp h
  cases h
  cases identity with
  | missing => simp [runJobDecision]
  | conflict => simp [runJobDecision]
  | verified =>
    rw [terminalStatus] at hterminal
    by_cases hfailed : previousFailed previous = true
    · simp only [runJobDecision, hfailed, if_true]
      refine ⟨?_, fun _ => .inl trivial⟩
      split <;> [skip; split] <;> simp
    · rw [if_neg hfailed] at hterminal
      simp only [runJobDecision, hfailed, hterminal]
      cases terminal <;> simp
      split <;> [skip; split] <;> simp

/-- Fewer reports have fewer verdicts. -/
theorem CarriesBeside.mono {output : Option Str} {verdict : Bool}
    (h : CarriesBeside env patchBudget output job dir verdict) (hdir : dir ⊆ dir') :
    CarriesBeside env patchBudget output job dir' verdict := by
  obtain ⟨file, hfile, hname, hholds⟩ := h
  exact ⟨file, hdir hfile, hname, hholds⟩

theorem retire_subset (output : Option Str) (child : ChildOutcome) (dir : ReportDirectory) :
    retire output child dir ⊆ dir := by
  unfold retire
  split
  · exact List.filter_sublist.subset
  · exact List.Subset.refl _

/-- What holds of a worker stays when no one but its child adds a verdict. -/
theorem WorkerSound.mono {output : Option Str} {state : WorkerState}
    (h : WorkerSound env patchBudget output job dir state)
    (hdir : betweenLookAndRecord state = true → ∀ verdict,
      CarriesBeside env patchBudget (ownOutput output state) job dir' verdict →
      CarriesBeside env patchBudget (ownOutput output state) job dir verdict) :
    WorkerSound env patchBudget output job dir' state := by
  cases state with
  | recording status =>
    exact fun hstatus hboth => h hstatus ⟨hdir rfl _ hboth.1, hdir rfl _ hboth.2⟩
  | reserving => exact fun verdict hcarries => h verdict (hdir rfl _ hcarries)
  | reserved => exact fun verdict hcarries => h verdict (hdir rfl _ hcarries)
  | launched => exact fun verdict hcarries => h verdict (hdir rfl _ hcarries)
  | ready | exhausted | raised | recovering | finished => trivial

/-- What holds of a worker stays as it goes on to its launch. -/
theorem WorkerSound.proceeds {output : Option Str} {state state' : WorkerState}
    (h : WorkerSound env patchBudget output job dir state) (hnext : Proceeds state state') :
    WorkerSound env patchBudget output job dir state' := by
  cases hnext with
  | stay => exact h
  | reserve => exact h
  | launch =>
    rintro verdict ⟨file, hfile, -, hholds⟩
    exact h verdict ⟨file, hfile, nofun, hholds⟩

theorem workerSound_of_not_between {output : Option Str} {state : WorkerState}
    (h : betweenLookAndRecord state = false) :
    WorkerSound env patchBudget output job dir state := by
  cases state <;> trivial

variable {ι : Type} [DecidableEq ι] {jobs : ι → Job} {queueId : Str} {s s' : ReportedQueue ι}

/-- A step of the queue that is no look keeps the reports sound, if it adds none. -/
theorem reportsSound_of_queueStep {action : QueueAction ι}
    (h : ReportsSound env patchBudget jobs s)
    (hstep : queueStep (workerKey env jobs) s.queue action = some s'.queue)
    (hlook : ∀ worker seen, action ≠ .look worker seen) (houtputs : s'.outputs = s.outputs)
    (hreports : ∀ i, s'.beside jobs i ⊆ s.beside jobs i) :
    ReportsSound env patchBudget jobs s' := by
  intro table' workers' hs' i
  cases hbetween : betweenLookAndRecord (workers' i) with
  | false => exact workerSound_of_not_between hbetween
  | true =>
    obtain ⟨table, workers, hs, hnext⟩ := worker_of_queueStep hstep hlook hs' i hbetween
    rw [houtputs]
    exact ((h table workers hs i).proceeds hnext).mono fun _ _ hcarries =>
      hcarries.mono (hreports i)

/-- A look decides by what it saw. -/
theorem workerSound_of_look {output : Option Str} {previous : Option JobRecord}
    {observedAttempts : Nat} {argvBuilt : Bool} (hall : AllLookedAt env patchBudget job dir)
    (hfailed : previousFailed previous = true → ∀ verdict, ¬Carries env patchBudget job dir verdict) :
    WorkerSound env patchBudget output job dir
      (match (observe env patchBudget job dir previous observedAttempts argvBuilt).map
          (runJobDecision previous) with
      | none => .raised
      | some (some status) => .recording status
      | some none => .reserving) := by
  rcases hseen : observe env patchBudget job dir previous observedAttempts argvBuilt with _ | seen
  · trivial
  obtain ⟨hskips, hlaunches⟩ := decision_of_look hseen
  rcases hdecision : runJobDecision previous seen with _ | status
  · simp only [Option.map_some, hdecision]
    intro verdict
    rcases hlaunches hdecision with hprevious | hmissing
    · exact hfailed hprevious verdict
    · exact not_carries_of_missing hmissing hall verdict
  · simp only [Option.map_some, hdecision]
    exact fun hstatus => not_contradicted_of_verified (hskips status hdecision hstatus) hall

theorem reportedStep_other {action : QueueAction ι}
    (h : reportedStep env patchBudget queueId jobs s (.other action) = some s') :
    action.readsReports = false ∧ ∃ queue,
      queueStep (workerKey env jobs) s.queue action = some queue ∧ s' = { s with queue } := by
  simp only [reportedStep] at h
  cases hreads : action.readsReports with
  | true => simp [hreads] at h
  | false =>
    simp only [hreads, Bool.false_eq_true, if_false] at h
    obtain ⟨queue, hqueue, h⟩ := Option.bind_eq_some_iff.mp h
    cases h
    exact ⟨rfl, queue, hqueue, rfl⟩

/-- A step that meets the condition keeps the reports sound. -/
theorem reportsSound_step {action : ReportedAction ι} (h : ReportsSound env patchBudget jobs s)
    (hmeets : StepMeets env patchBudget jobs s action)
    (hstep : reportedStep env patchBudget queueId jobs s action = some s') :
    ReportsSound env patchBudget jobs s' := by
  cases action with
  | write parent dir =>
    cases hstep
    intro table workers hs i
    refine (h table workers hs i).mono fun hbetween verdict hcarries => ?_
    by_cases hparent : (jobs i).parentOutputDir = parent
    · refine hmeets table workers i hs hbetween hparent verdict ?_
      simpa [ReportedQueue.beside, hparent] using hcarries
    · simpa [ReportedQueue.beside, Function.update_of_ne hparent] using hcarries
  | look worker observedAttempts attempt =>
    simp only [reportedStep] at hstep
    split at hstep
    · cases hstep
    obtain ⟨⟨table, workers⟩, hs, hstep⟩ := Option.bind_eq_some_iff.mp hstep
    obtain ⟨queue, hqueue, hstep⟩ := Option.bind_eq_some_iff.mp hstep
    cases hstep
    obtain ⟨table₀, workers₀, hs₀, hs'⟩ := queueStep_look hqueue
    obtain ⟨rfl, rfl⟩ : table₀ = table ∧ workers₀ = workers := by
      rw [hs] at hs₀
      cases hs₀
      exact ⟨rfl, rfl⟩
    intro table' workers' hinvocation i
    rw [hs'] at hinvocation
    cases hinvocation
    by_cases hi : i = worker
    · subst hi
      rw [Function.update_self]
      exact workerSound_of_look hmeets.1 (hmeets.2 _ _ hs)
    · simp only [Function.update_of_ne hi]
      exact h _ _ hs i
  | result worker returncode moved observedAttempts persisted =>
    obtain ⟨child, -, hstep⟩ := Option.bind_eq_some_iff.mp hstep
    obtain ⟨queue, hqueue, hstep⟩ := Option.bind_eq_some_iff.mp hstep
    cases hstep
    refine reportsSound_of_queueStep h hqueue (by simp) rfl fun i => ?_
    by_cases hparent : (jobs i).parentOutputDir = (jobs worker).parentOutputDir
    · simp only [ReportedQueue.beside, hparent, Function.update_self]
      exact retire_subset _ _ _
    · simp [ReportedQueue.beside, Function.update_of_ne hparent]
  | other action =>
    obtain ⟨hreads, queue, hqueue, rfl⟩ := reportedStep_other hstep
    cases action with
    | look worker seen =>
      obtain rfl : seen = none := by simpa [QueueAction.readsReports] using hreads
      obtain ⟨table, workers, hs, hs'⟩ := queueStep_look hqueue
      intro table' workers' hinvocation i
      rw [hs'] at hinvocation
      cases hinvocation
      by_cases hi : i = worker
      · subst hi
        rw [Function.update_self]
        trivial
      · rw [Function.update_of_ne hi]
        exact h _ _ hs i
    | start | kill | finish | record | reserve | launch | result | recover =>
      exact reportsSound_of_queueStep h hqueue (by simp) rfl fun _ => List.Subset.refl _

/-- A run whose steps meet the condition keeps the reports sound. -/
theorem reportsSound_run {actions : List (ReportedAction ι)} (h : ReportsSound env patchBudget jobs s)
    (hmeets : RunMeets env patchBudget jobs queueId s actions)
    (hrun : reportedRun env patchBudget queueId jobs s actions = some s') :
    ReportsSound env patchBudget jobs s' := by
  induction actions generalizing s with
  | nil =>
    cases hrun
    exact h
  | cons action rest ih =>
    rw [reportedRun, List.foldlM_cons] at hrun
    obtain ⟨next, hstep, hrest⟩ := Option.bind_eq_some_iff.mp hrun
    exact ih (reportsSound_step h hmeets.1 hstep) (hmeets.2 next hstep) hrest

/-- The condition on a run is one on its beginning and its last step. -/
theorem runMeets_last {actions : List (ReportedAction ι)} {action : ReportedAction ι}
    (hmeets : RunMeets env patchBudget jobs queueId s (actions ++ [action]))
    (hrun : reportedRun env patchBudget queueId jobs s actions = some s') :
    RunMeets env patchBudget jobs queueId s actions ∧ StepMeets env patchBudget jobs s' action := by
  induction actions generalizing s with
  | nil =>
    cases hrun
    exact ⟨trivial, hmeets.1⟩
  | cons first rest ih =>
    rw [reportedRun, List.foldlM_cons] at hrun
    obtain ⟨next, hstep, hrest⟩ := Option.bind_eq_some_iff.mp hrun
    obtain ⟨hrestMeets, hlast⟩ := ih (hmeets.2 next hstep) hrest
    refine ⟨⟨hmeets.1, fun other hother => ?_⟩, hlast⟩
    obtain rfl : next = other := Option.some.inj (hstep.symm.trans hother)
    exact hrestMeets

/-- A child's result is a verdict only when the child was launched and exited with zero. -/
theorem launched_of_terminal {worker : ι} {child : ChildOutcome} {observedAttempts : Nat}
    {persisted : Bool} {queue : QueueState ι} (hterminal : resultStatus child = .terminal)
    (hstep : queueStep (workerKey env jobs) s.queue
      (.result worker (some child) observedAttempts persisted) = some queue) :
    ∃ table workers count, s.queue.invocation = some (table, workers) ∧
      workers worker = .launched count := by
  have hzero : child.returncode = some 0 := by
    unfold resultStatus at hterminal
    repeat' split at hterminal
    all_goals first
      | exact (by assumption : _ ∧ _).1
      | cases hterminal
  rcases hs : s.queue.invocation with _ | ⟨table, workers⟩
  · simp [queueStep, hs] at hstep
  · refine ⟨table, workers, ?_⟩
    simp only [queueStep, hs, invocationStep] at hstep
    split at hstep
    · contradiction
    next count _ hworker _ => exact ⟨count, rfl, hworker⟩
    next hchild =>
      cases hchild
      simp [hzero] at hstep
    · contradiction

/-- A child's row alone decides the status that is not a verdict of the check. -/
theorem resultStatus_ne_skipped (child : ChildOutcome) : resultStatus child ≠ .skippedTerminal := by
  unfold resultStatus
  repeat' split
  all_goals simp

/-- A step that meets the condition records no verdict over contradictory reports. -/
theorem not_contradicted_of_recorded {action : ReportedAction ι} {worker : ι} {status : JobStatus}
    (h : ReportsSound env patchBudget jobs s) (hmeets : StepMeets env patchBudget jobs s action)
    (hstep : reportedStep env patchBudget queueId jobs s action = some s')
    (hrecorded : recordedStatus env patchBudget jobs s action = some (worker, status))
    (hstatus : status = .terminal ∨ status = .skippedTerminal) :
    ¬Contradicted env patchBudget (jobs worker) (s.beside jobs worker) := by
  cases action with
  | write => cases hrecorded
  | look => cases hrecorded
  | result actor returncode moved observedAttempts persisted =>
    obtain ⟨child, hchild, heq⟩ := Option.map_eq_some_iff.mp hrecorded
    cases heq
    obtain ⟨child₀, hchild₀, hstep⟩ := Option.bind_eq_some_iff.mp hstep
    obtain rfl : child = child₀ := Option.some.inj (hchild.symm.trans hchild₀)
    obtain ⟨queue, hqueue, -⟩ := Option.bind_eq_some_iff.mp hstep
    have hterminal := hstatus.resolve_right (resultStatus_ne_skipped child)
    obtain ⟨table, workers, count, hs, hworker⟩ := launched_of_terminal hterminal hqueue
    have hsound := h table workers hs worker
    rw [hworker] at hsound
    -- only the child's own report has a verdict
    have hown : ∀ verdict, Carries env patchBudget (jobs worker) (s.beside jobs worker) verdict →
        ∃ output, s.outputs worker = some output ∧ Carries env patchBudget (jobs worker)
          ((s.beside jobs worker).filter (·.name == output)) verdict := by
      rintro verdict ⟨file, hfile, -, hholds⟩
      have hname : some file.name = s.outputs worker := by
        by_contra hne
        exact hsound verdict ⟨file, hfile, hne, hholds⟩
      exact ⟨file.name, hname.symm, file, List.mem_filter.mpr ⟨hfile, by simp⟩, nofun, hholds⟩
    rintro ⟨htrue, hfalse⟩
    obtain ⟨output, houtput, htrue⟩ := hown true htrue
    obtain ⟨output', houtput', hfalse⟩ := hown false hfalse
    obtain rfl : output = output' := Option.some.inj (houtput.symm.trans houtput')
    exact hmeets output houtput ⟨htrue, hfalse⟩
  | other action =>
    cases action with
    | record actor persisted =>
      obtain ⟨⟨table, workers⟩, hs, hrecorded⟩ := Option.bind_eq_some_iff.mp hrecorded
      dsimp only at hrecorded
      split at hrecorded
      next status' hworker =>
        cases hrecorded
        have hsound := h table workers hs worker
        rw [hworker] at hsound
        exact hsound hstatus
      · cases hrecorded
        simp at hstatus
      · cases hrecorded
        simp at hstatus
      · cases hrecorded
    | _ => cases hrecorded


end Soundness

/-- The job of a plan by its position. -/
def planJob (plan : QueuePlan) (i : Fin plan.jobs.length) : Job := plan.jobs.get i

/-- The document of a job, by its index and its digests. -/
def jobDocument (index digit : Nat) : Json := .dict <| Obj.of
  [("index", .int index), ("parent_output_dir", "/p"), ("base_run_dir", "/b"),
    ("remote_runtime_repo", "/r"), ("run_id", "run"), ("eval_dir_name", "eval"), ("task", "task"),
    ("record_id", "record"), ("source_patch_sha256", .str (List.replicate 64 digit)),
    ("eval_patch_sha256", .str (List.replicate 64 digit))]

/-- The document of a plan with one candidate twice, its digests in lower and in upper case. -/
def twoCaseDocument : Obj := .of
  [("schema", "opencollab.eval_only_queue.v1"), ("runner_args", .list []),
    ("jobs", .list [jobDocument 1 97, jobDocument 2 65])]

/-- A job of that plan. -/
def twoCaseJob (index : Int) : Job := ⟨index, "/p", "/b", "/b", "/r", "run", "eval", "task",
  "record", List.replicate 64 97, List.replicate 64 97, none⟩

end OpenCollabEval
