import OpenCollabEval.Queue.Machine

/-!
# The launch budget of the queue

At most two child runners are launched for a job key over all invocations, as long as no record
without a launch count replaces one that has a count, and no two jobs share a key. Six branches of
`_run_job` write a record without a count, so that the budget starts again after any of them.
-/

open Python

namespace OpenCollabEval

section Invariant

variable {ι : Type} [DecidableEq ι] {key : ι → Str}

/-- What the table says of the launch that a worker is busy with. -/
def WorkerCounted (s : QueueState ι) (table : JobTable) (k : Str) : WorkerState → Prop
  | .reserved count => stateLaunchCount (table k) = count ∧ stateLaunchCount (s.file k) = count ∧
      s.launches k < count
  | .launched count | .exhausted count | .recovering count => stateLaunchCount (table k) = count
  | _ => True

/-- The table of an invocation is ahead of the file, within the budget. -/
structure TableCounted (key : ι → Str) (s : QueueState ι) (table : JobTable)
    (workers : ι → WorkerState) : Prop where
  ahead : ∀ k, stateLaunchCount (s.file k) ≤ stateLaunchCount (table k)
  bounded : ∀ k, stateLaunchCount (table k) ≤ 2
  workers : ∀ i, WorkerCounted s table (key i) (workers i)

/-- The file accounts for every launch, within the budget. -/
structure Counted (key : ι → Str) (s : QueueState ι) : Prop where
  launched : ∀ k, s.launches k ≤ stateLaunchCount (s.file k)
  bounded : ∀ k, stateLaunchCount (s.file k) ≤ 2
  invocation : ∀ table workers, s.invocation = some (table, workers) →
    TableCounted key s table workers

/-- Neither the file nor the table of a running invocation forgets a launch. -/
structure KeepsCounts (s s' : QueueState ι) : Prop where
  file : ∀ k, stateLaunchCount (s.file k) ≤ stateLaunchCount (s'.file k)
  table : ∀ table workers table' workers', s.invocation = some (table, workers) →
    s'.invocation = some (table', workers') →
    ∀ k, stateLaunchCount (table k) ≤ stateLaunchCount (table' k)

omit [DecidableEq ι] in
/-- What the table says of a worker depends on the record of its own key only. -/
theorem WorkerCounted.of_same {s t : QueueState ι} {table table' : JobTable} {k : Str}
    {state : WorkerState} (h : WorkerCounted s table k state)
    (htable : stateLaunchCount (table' k) = stateLaunchCount (table k))
    (hfile : stateLaunchCount (t.file k) = stateLaunchCount (s.file k) ∨
      stateLaunchCount (t.file k) = stateLaunchCount (table k))
    (hlaunches : t.launches k = s.launches k) : WorkerCounted t table' k state := by
  cases state with
  | reserved count =>
    obtain ⟨htableCount, hfileCount, hlaunched⟩ := h
    refine ⟨htable.trans htableCount, ?_, hlaunches ▸ hlaunched⟩
    rcases hfile with hfile | hfile
    · exact hfile.trans hfileCount
    · exact hfile.trans htableCount
  | launched | exhausted | recovering => exact htable.trans h
  | _ => trivial

omit [DecidableEq ι] in
theorem counted_init : Counted key (QueueState.init ι) := by
  refine ⟨fun k => ?_, fun k => ?_, fun table workers h => ?_⟩
  · simp [QueueState.init]
  · simp [QueueState.init, stateLaunchCount]
  · simp [QueueState.init] at h

variable {s s' : QueueState ι} {table : JobTable} {workers : ι → WorkerState} {worker : ι}

/-- A worker that only moves on keeps everything else. -/
theorem counted_moveTo {next : WorkerState} (h : Counted key s)
    (hs : s.invocation = some (table, workers))
    (hnext : WorkerCounted s table (key worker) next) :
    Counted key (s.moveTo table workers worker next) ∧
      KeepsCounts s (s.moveTo table workers worker next) := by
  obtain ⟨hahead, hbounded, hworkers⟩ := h.invocation table workers hs
  refine ⟨⟨h.launched, h.bounded, ?_⟩, ⟨fun k => le_rfl, ?_⟩⟩
  · rintro _ _ hmoved
    cases hmoved
    refine ⟨hahead, hbounded, fun i => ?_⟩
    by_cases hi : i = worker
    · subst hi
      rw [Function.update_self]
      exact hnext.of_same rfl (.inl rfl) rfl
    · rw [Function.update_of_ne hi]
      exact (hworkers i).of_same rfl (.inl rfl) rfl
  · rintro _ _ _ _ hbefore hafter k
    rw [hs] at hbefore
    cases hbefore
    cases hafter
    exact le_rfl

/-- A record whose count is not below the recorded one keeps the account. -/
theorem counted_setJobState {record : JobRecord} {next : WorkerState} {persisted : Bool}
    (hkey : Function.Injective key) (h : Counted key s)
    (hs : s.invocation = some (table, workers))
    (hlow : stateLaunchCount (table (key worker)) ≤ stateLaunchCount (some record))
    (hhigh : stateLaunchCount (some record) ≤ 2)
    (hnext : persisted = true → ∀ t : QueueState ι, t.launches = s.launches →
      stateLaunchCount (t.file (key worker)) = stateLaunchCount (some record) →
      WorkerCounted t (Function.update table (key worker) (some record)) (key worker) next) :
    Counted key (s.setJobState key table workers worker record next persisted) ∧
      KeepsCounts s (s.setJobState key table workers worker record next persisted) := by
  obtain ⟨hahead, hbounded, hworkers⟩ := h.invocation table workers hs
  set table' := Function.update table (key worker) (some record) with htable'
  have hgrows (k : Str) : stateLaunchCount (table k) ≤ stateLaunchCount (table' k) := by
    by_cases hk : k = key worker
    · subst hk
      simpa [table'] using hlow
    · simp [table', hk]
  have hbounded' (k : Str) : stateLaunchCount (table' k) ≤ 2 := by
    by_cases hk : k = key worker
    · subst hk
      simpa [table'] using hhigh
    · simpa [table', hk] using hbounded k
  have hfile (k : Str) : stateLaunchCount (s.file k) ≤
      stateLaunchCount ((if persisted then table' else s.file) k) := by
    split
    · exact (hahead k).trans (hgrows k)
    · exact le_rfl
  refine ⟨⟨fun k => (h.launched k).trans (hfile k), fun k => ?_, ?_⟩, ⟨hfile, ?_⟩⟩
  · show stateLaunchCount ((if persisted then table' else s.file) k) ≤ 2
    split
    · exact hbounded' k
    · exact h.bounded k
  · rintro _ _ hwritten
    cases hwritten
    refine ⟨fun k => ?_, hbounded', fun i => ?_⟩
    · show stateLaunchCount ((if persisted then table' else s.file) k) ≤ _
      split
      · exact le_rfl
      · exact (hahead k).trans (hgrows k)
    · by_cases hi : i = worker
      · subst hi
        rw [Function.update_self]
        cases hpersisted : persisted with
        | false => simp [WorkerCounted]
        | true =>
          rw [if_pos rfl]
          exact hnext hpersisted _ rfl (by simp [QueueState.setJobState])
      · -- another worker has another key, of which nothing changes
        have hother : key i ≠ key worker := fun heq => hi (hkey heq)
        have hsame : stateLaunchCount (table' (key i)) = stateLaunchCount (table (key i)) := by
          rw [htable', Function.update_of_ne hother]
        rw [Function.update_of_ne hi]
        refine (hworkers i).of_same hsame ?_ rfl
        cases persisted with
        | false => exact .inl rfl
        | true => exact .inr hsame
  · rintro _ _ _ _ hbefore hafter k
    rw [hs] at hbefore
    cases hbefore
    cases hafter
    exact hgrows k

/-- A record without a count replaces none that has one. -/
def CountKept (key : ι → Str) (s : QueueState ι) : QueueAction ι → Prop
  | .record worker _ => ∀ table workers status, s.invocation = some (table, workers) →
      workers worker = .recording status → stateLaunchCount (table (key worker)) = 0
  | _ => True

/-- Every step of a run keeps the counts of the records it replaces. -/
def CountsKept (key : ι → Str) : QueueState ι → List (QueueAction ι) → Prop
  | _, [] => True
  | s, action :: rest => CountKept key s action ∧
      ∀ s', queueStep key s action = some s' → CountsKept key s' rest

omit [DecidableEq ι] in
/-- A step that starts, ends or kills an invocation keeps the account. -/
theorem counted_ends {file : JobTable} (h : Counted key s)
    (hfile : ∀ k, stateLaunchCount (s.file k) ≤ stateLaunchCount (file k))
    (hbounded : ∀ k, stateLaunchCount (file k) ≤ 2) :
    Counted key { s with file := file, invocation := none } ∧
      KeepsCounts s { s with file := file, invocation := none } := by
  refine ⟨⟨fun k => (h.launched k).trans (hfile k), hbounded, ?_⟩, ⟨hfile, ?_⟩⟩
  · rintro _ _ hnone
    simp at hnone
  · rintro _ _ _ _ _ hnone
    simp at hnone

/-- A launch is accounted for by the reservation before it. -/
theorem counted_launch {count : Nat} (hkey : Function.Injective key) (h : Counted key s)
    (hs : s.invocation = some (table, workers)) (hworker : workers worker = .reserved count) :
    let launched := { s.moveTo table workers worker (.launched count) with
      launches := Function.update s.launches (key worker) (s.launches (key worker) + 1) }
    Counted key launched ∧ KeepsCounts s launched := by
  obtain ⟨hahead, hbounded, hworkers⟩ := h.invocation table workers hs
  have hreserved := hworkers worker
  rw [hworker] at hreserved
  obtain ⟨htable, hfile, hlaunches⟩ := hreserved
  refine ⟨⟨fun k => ?_, h.bounded, ?_⟩, ⟨fun k => le_rfl, ?_⟩⟩
  · show Function.update s.launches (key worker) _ k ≤ stateLaunchCount (s.file k)
    by_cases hk : k = key worker
    · subst hk
      rw [Function.update_self, hfile]
      omega
    · rw [Function.update_of_ne hk]
      exact h.launched k
  · rintro _ _ hmoved
    cases hmoved
    refine ⟨hahead, hbounded, fun i => ?_⟩
    by_cases hi : i = worker
    · subst hi
      simpa [WorkerCounted] using htable
    · have hother : key i ≠ key worker := fun heq => hi (hkey heq)
      rw [Function.update_of_ne hi]
      exact (hworkers i).of_same rfl (.inl rfl) (Function.update_of_ne hother _ _)
  · rintro _ _ _ _ hbefore hafter k
    rw [hs] at hbefore
    cases hbefore
    cases hafter
    exact le_rfl

/-- Every step keeps the account. -/
theorem counted_step {action : QueueAction ι} (hkey : Function.Injective key) (h : Counted key s)
    (hkept : CountKept key s action) (hstep : queueStep key s action = some s') :
    Counted key s' ∧ KeepsCounts s s' := by
  unfold queueStep at hstep
  rcases hs : s.invocation with _ | ⟨table, workers⟩
  · cases action <;> simp only [hs] at hstep <;> try contradiction
    cases hstep
    refine ⟨⟨h.launched, h.bounded, ?_⟩, ⟨fun k => le_rfl, ?_⟩⟩
    · rintro _ _ hstarted
      cases hstarted
      exact ⟨fun k => le_rfl, h.bounded, fun i => by simp [WorkerCounted]⟩
    · rintro _ _ _ _ hbefore
      simp [hs] at hbefore
  simp only [hs] at hstep
  have hcounted := h.invocation table workers hs
  cases action with
  | start => simp [invocationStep] at hstep
  | kill =>
    cases hstep
    exact counted_ends h (fun k => le_rfl) h.bounded
  | finish =>
    cases hstep
    exact counted_ends h hcounted.ahead hcounted.bounded
  | look worker seen =>
    simp only [invocationStep] at hstep
    split at hstep
    · cases hstep
      exact counted_moveTo h hs trivial
    · split at hstep <;> cases hstep
      · exact counted_moveTo h hs trivial
      · exact counted_moveTo h hs trivial
    · contradiction
  | record worker persisted =>
    simp only [invocationStep] at hstep
    have hworker := hcounted.workers worker
    split at hstep
    next status hstate =>
      cases hstep
      have hzero := hkept table workers status hs hstate
      exact counted_setJobState hkey h hs (by simp [hzero]) (by simp [stateLaunchCount])
        fun _ _ _ _ => trivial
    next count hstate =>
      cases hstep
      rw [hstate] at hworker
      exact counted_setJobState hkey h hs hworker.le (hworker ▸ hcounted.bounded _)
        fun _ _ _ _ => trivial
    next count hstate =>
      cases hstep
      rw [hstate] at hworker
      exact counted_setJobState hkey h hs hworker.le (hworker ▸ hcounted.bounded _)
        fun _ _ _ _ => trivial
    · contradiction
  | reserve worker persisted =>
    simp only [invocationStep] at hstep
    split at hstep
    next hstate =>
      split at hstep
      · cases hstep
        exact counted_moveTo h hs rfl
      next hbudget =>
        cases hstep
        have hcount : stateLaunchCount (table (key worker)) + 1 ≤ 2 := by omega
        refine counted_setJobState hkey h hs (Nat.le_succ _) hcount
          fun _ t hlaunches hfile => ⟨?_, hfile, ?_⟩
        · simp [stateLaunchCount]
        · have hlaunched := (h.launched (key worker)).trans (hcounted.ahead (key worker))
          rw [hlaunches]
          omega
    · contradiction
  | launch worker =>
    simp only [invocationStep] at hstep
    split at hstep
    next count hstate =>
      cases hstep
      exact counted_launch hkey h hs hstate
    · contradiction
  | result worker child observedAttempts persisted =>
    simp only [invocationStep] at hstep
    have hworker := hcounted.workers worker
    have hrecorded {count : Nat} {status : JobStatus} {next : WorkerState}
        (hcount : stateLaunchCount (table (key worker)) = count)
        (hnext : next = .ready ∨ next = .finished) :
        Counted key (s.setJobState key table workers worker ⟨status, some count⟩ next persisted) ∧
          KeepsCounts s
            (s.setJobState key table workers worker ⟨status, some count⟩ next persisted) :=
      counted_setJobState hkey h hs hcount.le (hcount ▸ hcounted.bounded _) fun _ _ _ _ => by
        rcases hnext with rfl | rfl <;> trivial
    split at hstep
    · cases hstep
      exact counted_moveTo h hs trivial
    next count child hstate =>
      cases hstep
      rw [hstate] at hworker
      exact hrecorded hworker (by split <;> simp)
    next count child hstate =>
      split at hstep
      · contradiction
      · cases hstep
        rw [hstate] at hworker
        exact hrecorded hworker.1 (by split <;> simp)
    · contradiction
  | recover worker =>
    simp only [invocationStep] at hstep
    split at hstep
    · cases hstep
      exact counted_moveTo h hs rfl
    · contradiction

/-- A run keeps the account. -/
theorem counted_run {actions : List (QueueAction ι)} (hkey : Function.Injective key)
    (h : Counted key s) (hkept : CountsKept key s actions)
    (hrun : queueRun key s actions = some s') : Counted key s' := by
  induction actions generalizing s with
  | nil =>
    cases hrun
    exact h
  | cons action rest ih =>
    rw [queueRun, List.foldlM_cons] at hrun
    obtain ⟨next, hstep, hrest⟩ := Option.bind_eq_some_iff.mp hrun
    exact ih (counted_step hkey h hkept.1 hstep).1 (hkept.2 next hstep) hrest

/-- The last step of a run keeps the counts of the records it replaces. -/
theorem countKept_last {actions : List (QueueAction ι)} {action : QueueAction ι}
    (hkept : CountsKept key s (actions ++ [action])) (hrun : queueRun key s actions = some s') :
    CountsKept key s actions ∧ CountKept key s' action := by
  induction actions generalizing s with
  | nil =>
    cases hrun
    exact ⟨trivial, hkept.1⟩
  | cons first rest ih =>
    rw [queueRun, List.foldlM_cons] at hrun
    obtain ⟨next, hstep, hrest⟩ := Option.bind_eq_some_iff.mp hrun
    obtain ⟨hrestKept, hlast⟩ := ih (hkept.2 next hstep) hrest
    refine ⟨⟨hkept.1, fun other hother => ?_⟩, hlast⟩
    obtain rfl : next = other := Option.some.inj (hstep.symm.trans hother)
    exact hrestKept

end Invariant

/-- The key of a job by its position in the plan. -/
def planKey (env : Env) (plan : QueuePlan) (i : Fin plan.jobs.length) : Str :=
  jobKey env plan.jobs[i]

/-- Over all invocations of a plan whose jobs have distinct keys, at most two children are launched
for a key and no step lowers a recorded count, as long as no record without a count replaces one that
has a count. -/
theorem queue_launch_budget {env : Env} {plan : QueuePlan} {actions : List (QueueAction _)}
    {action : QueueAction _} {s s' : QueueState (Fin plan.jobs.length)}
    (hkeys : (plan.jobs.map (jobKey env)).Nodup)
    (hrun : queueRun (planKey env plan) (.init _) actions = some s)
    (hstep : queueStep (planKey env plan) s action = some s')
    (hkept : CountsKept (planKey env plan) (.init _) (actions ++ [action])) :
    (∀ k, s.launches k ≤ 2 ∧ s'.launches k ≤ 2) ∧ KeepsCounts s s' := by
  have hkey : Function.Injective (planKey env plan) := by
    intro i j hij
    have hinjective := List.nodup_iff_injective_get.mp hkeys
    have hindex := @hinjective (i.cast (List.length_map _).symm) (j.cast (List.length_map _).symm)
      (by simpa [planKey] using hij)
    simpa [Fin.ext_iff] using hindex
  obtain ⟨hbefore, hlast⟩ := countKept_last hkept hrun
  have hs := counted_run hkey counted_init hbefore hrun
  obtain ⟨hs', hkeeps⟩ := counted_step hkey hs hlast hstep
  exact ⟨fun k => ⟨(hs.launched k).trans (hs.bounded k), (hs'.launched k).trans (hs'.bounded k)⟩,
    hkeeps⟩

/-- A host with one directory, where no text is a float. -/
def queueHost : QueueHost := ⟨(· == lit "/p"), fun _ => none⟩

/-- The document of a plan with one job. -/
def oneJobDocument : Obj := .of
  [("schema", "opencollab.eval_only_queue.v1"), ("runner_args", .list []),
    ("jobs", .list [.dict (Obj.of [("index", .int 1), ("parent_output_dir", "/p"),
      ("base_run_dir", "/b"), ("remote_runtime_repo", "/r"), ("run_id", "run"),
      ("eval_dir_name", "eval"), ("task", "task"), ("record_id", "record"),
      ("source_patch_sha256", .str (List.replicate 64 97)),
      ("eval_patch_sha256", .str (List.replicate 64 98))])])]

/-- The plan with one job. -/
def oneJobPlan : QueuePlan := ⟨[], [⟨1, "/p", "/b", "/b", "/r", "run", "eval", "task", "record",
  List.replicate 64 97, List.replicate 64 98, none⟩]⟩

/-- The job of the plan. -/
def onlyJob : Fin oneJobPlan.jobs.length := ⟨0, by decide⟩

/-- A launch whose child exits with an error. -/
def failedLaunch : List (QueueAction (Fin oneJobPlan.jobs.length)) :=
  [.look onlyJob (some ⟨.verified, .missing, 0, true⟩), .reserve onlyJob true, .launch onlyJob,
    .result onlyJob (some ⟨some 1, false, false, true⟩) 1 true]

/-- Three invocations: the reports of the parent are gone while the second one looks. -/
def forgottenLaunches : List (QueueAction (Fin oneJobPlan.jobs.length)) :=
  .start :: failedLaunch ++ failedLaunch ++
    [.finish, .start, .look onlyJob (some ⟨.missing, .missing, 0, true⟩), .record onlyJob true,
      .finish, .start] ++ failedLaunch

/-- A third child is launched after the candidate was missing once. -/
theorem queue_launch_budget_fails_after_missing_candidate :
    readPlan queueHost oneJobDocument = .ok oneJobPlan ∧
      ∃ s, queueRun (planKey asciiEnv oneJobPlan) (.init _) forgottenLaunches = some s ∧
        s.launches (planKey asciiEnv oneJobPlan onlyJob) = 3 := by
  refine ⟨by decide +kernel, ?_⟩
  have hlaunches : (queueRun (planKey asciiEnv oneJobPlan) (.init _) forgottenLaunches).map
      (·.launches (planKey asciiEnv oneJobPlan onlyJob)) = some 3 := by decide +kernel
  exact Option.map_eq_some_iff.mp hlaunches

/-- The first launch of a job. -/
theorem queue_launch_budget_first_launch :
    ∃ s s' : QueueState (Fin oneJobPlan.jobs.length), (∀ k, s.launches k ≤ 2 ∧ s'.launches k ≤ 2) ∧
      KeepsCounts s s' := by
  have hrun : (queueRun (planKey asciiEnv oneJobPlan) (.init _)
      (.start :: failedLaunch.take 2)).isSome := by decide +kernel
  have hlaunched : (queueRun (planKey asciiEnv oneJobPlan) (.init _)
      (.start :: failedLaunch.take 2 ++ [.launch onlyJob])).isSome := by decide +kernel
  obtain ⟨s, hs⟩ := Option.isSome_iff_exists.mp hrun
  obtain ⟨s', hs'⟩ := Option.isSome_iff_exists.mp hlaunched
  have hstep : queueStep (planKey asciiEnv oneJobPlan) s (.launch onlyJob) = some s' := by
    rw [queueRun] at hs hs'
    rw [List.foldlM_append, hs] at hs'
    simpa using hs'
  exact ⟨s, s', queue_launch_budget (List.nodup_singleton _) hs hstep
    ⟨trivial, fun _ _ => ⟨trivial, fun _ _ => ⟨trivial, fun _ _ => ⟨trivial, fun _ _ => trivial⟩⟩⟩⟩⟩

end OpenCollabEval
