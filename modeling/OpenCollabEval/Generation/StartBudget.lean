import OpenCollabEval.Generation.StartMachine

/-!
# The start budget of a generator

The budgets of `generation_for_task` hold in every run, and its retry loop ends. A round does not
start a generator beside a saved pair that is finished or terminal, as long as no generator of an
earlier invocation saves a pair while the round is on its way to the start.
-/

open Python

namespace OpenCollabEval

variable {Pair Probe : Type} (c : GenerationRunner Pair Probe)

/-- A finished generation of the base commit with an evaluation patch that is not empty. -/
structure GenerationRunner.Finished (p : Pair) (probe : Probe) : Prop where
  done : c.done p
  base : c.baseCommitMatches p
  patch : (c.prepareEvalPatchSelection p probe).modelPatch.strip.isEmpty = false

section Results

variable {c} {p : Pair} {image : Str} {probe : Probe} {reuse : Bool} {startCount : Nat}
  {result : GenerationResult}

theorem TerminalOutcome.isRetry_result (terminal : TerminalOutcome) :
    terminal.result.status.isRetry = false := by
  cases terminal <;> rfl

theorem ProviderFailure.isRetry_result (failure : ProviderFailure) :
    failure.result.status.isRetry = false := by
  cases failure <;> rfl

theorem isRetry_generationPatchResult (p : Pair) (image : Str) (probe : Probe) :
    (c.generationPatchResult p image probe).status.isRetry = false := by
  simp only [GenerationRunner.generationPatchResult, GenerationRunner.generationDoneResult]
  split_ifs <;> rfl

/-- A round that did not start a generator is not repeated: no result before the image check. -/
theorem isRetry_resultBeforeImage (h : c.resultBeforeImage p startCount = some result) :
    result.status.isRetry = false := by
  unfold GenerationRunner.resultBeforeImage at h
  split at h
  · cases h
  · cases hterminal : c.terminalGenerationResult p with
    | some terminal =>
      rw [hterminal] at h
      simp only at h
      split at h
      · cases h; exact terminal.isRetry_result
      · cases h; rfl
    | none =>
      rw [hterminal] at h
      simp only at h
      split at h
      · cases h; rfl
      · cases h

theorem isRetry_resultOfSpentBudget (h : c.resultOfSpentBudget startCount = some result) :
    result.status.isRetry = false := by
  unfold GenerationRunner.resultOfSpentBudget at h
  split at h
  · cases h; rfl
  · cases h

theorem isRetry_resultOfEmptyPatch (h : c.resultOfEmptyPatch p image reuse startCount = some result) :
    result.status.isRetry = false := by
  unfold GenerationRunner.resultOfEmptyPatch at h
  split at h
  · cases h; rfl
  · exact isRetry_resultOfSpentBudget h

theorem isRetry_resultOfSaved
    (h : c.resultOfSaved p image probe reuse startCount = some result) :
    result.status.isRetry = false := by
  unfold GenerationRunner.resultOfSaved at h
  split at h
  · cases h; rfl
  · split at h
    · simp only at h
      split at h
      · cases h; exact isRetry_generationPatchResult p image probe
      · exact isRetry_resultOfEmptyPatch h
    · exact isRetry_resultOfEmptyPatch h

/-- A round that did not start a generator is not repeated: no result of the image check. -/
theorem isRetry_resultWithImage
    (h : c.resultWithImage p image probe reuse startCount = some result) :
    result.status.isRetry = false := by
  unfold GenerationRunner.resultWithImage at h
  cases hfailure : c.providerFailure p image with
  | some failure =>
    rw [hfailure] at h
    simp only at h
    split at h
    · exact isRetry_resultOfSaved h
    · cases h; exact failure.isRetry_result
  | none =>
    rw [hfailure] at h
    exact isRetry_resultOfSaved h

theorem isRetry_dryRunResult (workdirOk : Bool) :
    (c.dryRunResult workdirOk).status.isRetry = false := by
  unfold GenerationRunner.dryRunResult
  split_ifs <;> rfl

/-- A pair without a result before the image check is done or not terminal. -/
theorem terminal_of_resultBeforeImage (h : c.resultBeforeImage p startCount = none) :
    c.done p ∨ c.terminalGenerationResult p = none := by
  unfold GenerationRunner.resultBeforeImage at h
  by_cases hdone : c.done p
  · exact .inl hdone
  · rw [if_neg hdone] at h
    cases hterminal : c.terminalGenerationResult p with
    | some terminal =>
      rw [hterminal] at h
      simp only at h
      split at h <;> cases h
    | none => exact .inr rfl

theorem lt_of_resultOfEmptyPatch (h : c.resultOfEmptyPatch p image reuse startCount = none) :
    startCount < c.maxTaskStarts := by
  unfold GenerationRunner.resultOfEmptyPatch GenerationRunner.resultOfSpentBudget at h
  split at h
  · cases h
  · split at h
    · cases h
    · omega

/-- The evaluation patch of a pair is empty when its result says so. -/
theorem patch_of_generationPatchResult
    (h : (c.generationPatchResult p image probe).status = .emptyPatch) :
    (c.prepareEvalPatchSelection p probe).modelPatch.strip.isEmpty = true := by
  unfold GenerationRunner.generationPatchResult at h
  split at h
  · cases h
  · split at h
    · cases h
    · simp only at h
      split at h
      · cases h
      · split at h
        · assumption
        · unfold GenerationRunner.generationDoneResult at h
          split at h <;> cases h

theorem notFinished_of_resultOfSaved (h : c.resultOfSaved p image probe reuse startCount = none) :
    startCount < c.maxTaskStarts ∧ ¬ c.Finished p probe := by
  unfold GenerationRunner.resultOfSaved at h
  split at h
  · cases h
  · split at h
    · simp only at h
      split at h
      · cases h
      · rename_i hpatch
        refine ⟨lt_of_resultOfEmptyPatch h, fun hfinished => ?_⟩
        simp only [ne_eq, Bool.or_eq_true, decide_eq_true_eq, not_or, not_not] at hpatch
        simpa [hfinished.patch] using patch_of_generationPatchResult hpatch.1
    · rename_i hbase
      refine ⟨lt_of_resultOfEmptyPatch h, fun hfinished => hbase ?_⟩
      simp [hfinished.done, hfinished.base]

/-- A round goes on to a start within the budget, and not beside a finished generation. -/
theorem notFinished_of_resultWithImage
    (h : c.resultWithImage p image probe reuse startCount = none) :
    startCount < c.maxTaskStarts ∧ ¬ c.Finished p probe := by
  unfold GenerationRunner.resultWithImage at h
  cases hfailure : c.providerFailure p image with
  | some failure =>
    rw [hfailure] at h
    simp only at h
    split at h
    · exact notFinished_of_resultOfSaved h
    · cases h
  | none =>
    rw [hfailure] at h
    exact notFinished_of_resultOfSaved h

end Results

section Invariant

/-- The pair that a round has read lets it go on. -/
def PairAdmits (p : Pair) (probe : Probe) : Prop :=
  ¬ c.Finished p probe ∧ (c.done p ∨ c.terminalGenerationResult p = none)

/-- What is known at each place of a round, for the number of results before it. -/
def PlaceHolds (s : GenerationState Pair Probe) (attempts : Nat) : RoundPlace Pair Probe → Prop
  | .looking => True
  | .checked p => c.done p ∨ c.terminalGenerationResult p = none
  | .admitted p _ probe | .cleared p _ probe => s.startCount < c.maxTaskStarts ∧ PairAdmits c p probe
  | .counted p _ probe =>
    s.started < s.startCount ∧ PairAdmits c p probe ∧ attempts ≤ s.startCount
  | .running _ _ => attempts ≤ s.startCount
  | .returned result => result.status.isRetry → attempts ≤ s.startCount

/-- What is known at a place depends on the counts of starts only. -/
theorem PlaceHolds.congr {c : GenerationRunner Pair Probe} {s t : GenerationState Pair Probe}
    {attempts : Nat} {place : RoundPlace Pair Probe} (h : PlaceHolds c s attempts place)
    (hcount : t.startCount = s.startCount) (hstarted : t.started = s.started) :
    PlaceHolds c t attempts place := by
  cases place <;> simp only [PlaceHolds, hcount, hstarted] at h ⊢ <;> exact h

/-- What is known of an invocation. Each of its rounds but one retry of an empty patch took a
recorded start. -/
structure GenerationHolds (s : GenerationState Pair Probe) (call : GenerationCall Pair Probe) : Prop where
  attempts : call.attempts.length ≤ s.startCount + call.forceNewGeneration.toNat
  place : PlaceHolds c s (call.attempts.length + 1 - call.forceNewGeneration.toNat) call.place

/-- The budgets, and what is known of the invocation that is at work. -/
structure StartsHold (s : GenerationState Pair Probe) : Prop where
  started_le : s.started ≤ s.startCount
  startCount_le : s.startCount ≤ c.maxTaskStarts
  retryEvents_le : s.retryEvents ≤ c.maxEmptyPatchRetries
  call : ∀ call, s.call = some call → GenerationHolds c s call

variable {c} {s s' : GenerationState Pair Probe} {call : GenerationCall Pair Probe}
  {place : RoundPlace Pair Probe} {action : GenerationAction Pair Probe}

theorem startsHold_init (saved : Pair) : StartsHold c (.init saved : GenerationState Pair Probe) :=
  ⟨Nat.le_refl 0, Nat.zero_le _, Nat.zero_le _, by simp [GenerationState.init]⟩

/-- A round that moves on keeps everything else. -/
theorem StartsHold.goTo (h : StartsHold c s) (hcall : s.call = some call)
    (hplace : PlaceHolds c s (call.attempts.length + 1 - call.forceNewGeneration.toNat) place) :
    StartsHold c (s.goTo call place) := by
  refine ⟨h.started_le, h.startCount_le, h.retryEvents_le, fun call' hcall' => ?_⟩
  cases hcall'
  exact ⟨(h.call call hcall).attempts, hplace.congr rfl rfl⟩

theorem StartsHold.endCall (h : StartsHold c s) (attempts : List GenerationResult)
    (result : GenerationResult) : StartsHold c (s.endCall attempts result) :=
  ⟨h.started_le, h.startCount_le, h.retryEvents_le, by simp [GenerationState.endCall]⟩

/-- A new round begins within the budgets. -/
theorem StartsHold.settle (h : StartsHold c s) (hcall : s.call = some call) {result : GenerationResult}
    (hplace : call.place = .returned result) : StartsHold c (s.settle c call result) := by
  obtain ⟨hattempts, hreturned⟩ := h.call call hcall
  rw [hplace] at hreturned
  unfold GenerationState.settle
  simp only
  split
  · exact h.endCall _ _
  · split
    · exact h.endCall _ _
    · rename_i hforce
      simp only [Bool.not_eq_true] at hforce
      rw [hforce] at hattempts hreturned
      simp only [Bool.toNat_false, Nat.add_zero, Nat.sub_zero] at hattempts hreturned
      split
      · split
        · exact h.endCall _ _
        · split
          · exact h.endCall _ _
          · split
            · exact h.endCall _ _
            · rename_i hretries _
              refine ⟨h.started_le, h.startCount_le, by simp only; omega, fun call' hcall' => ?_⟩
              cases hcall'
              exact ⟨by simpa using hattempts, trivial⟩
      · split
        · exact h.endCall _ _
        · split
          · exact h.endCall _ _
          · rename_i hretry _
            refine ⟨h.started_le, h.startCount_le, h.retryEvents_le, fun call' hcall' => ?_⟩
            cases hcall'
            exact ⟨by simpa using hreturned (by simpa using hretry), trivial⟩

/-- A generator that ended after a recorded start leaves a result that may be repeated. -/
theorem StartsHold.finish (h : StartsHold c s) (hcall : s.call = some call) {read : Pair} {image : Str}
    (hplace : call.place = .running read image) (probe : Probe) (ending : GeneratorEnd) :
    StartsHold c (s.finish c call read image probe ending) := by
  have hrunning := (h.call call hcall).place
  rw [hplace] at hrunning
  cases ending with
  | fifoFailed => exact h.goTo hcall fun _ => hrunning
  | notQuiesced =>
    have hmore : StartsHold c { s with leftover := s.leftover + 1 } :=
      ⟨h.started_le, h.startCount_le, h.retryEvents_le, fun call' hcall' =>
        ⟨(h.call call' hcall').attempts, (h.call call' hcall').place.congr rfl rfl⟩⟩
    exact hmore.goTo hcall fun _ => hrunning
  | timedOut => exact h.goTo hcall fun _ => hrunning
  | exited returncode => exact h.goTo hcall fun _ => hrunning

theorem StartsHold.stepCall (h : StartsHold c s) (hcall : s.call = some call)
    (hplace : call.place = place) (hstep : s.stepCall c call place action = some s') :
    StartsHold c s' := by
  obtain ⟨hattempts, hholds⟩ := h.call call hcall
  rw [hplace] at hholds
  unfold GenerationState.stepCall at hstep
  split at hstep
  · cases hstep
    cases hresult : c.resultBeforeImage s.saved s.startCount with
    | some result =>
      refine h.goTo hcall fun hretry => ?_
      rw [isRetry_resultBeforeImage hresult] at hretry
      cases hretry
    | none => exact h.goTo hcall (terminal_of_resultBeforeImage hresult)
  · cases hstep
    exact h.goTo hcall (by simp [PlaceHolds, GenerationStatus.isRetry])
  · rename_i read image probe workdirOk
    cases hresult : c.resultWithImage read image probe (!call.forceNewGeneration) s.startCount with
    | some result =>
      simp only [hresult, Option.some.injEq] at hstep
      subst hstep
      refine h.goTo hcall fun hretry => ?_
      rw [isRetry_resultWithImage hresult] at hretry
      cases hretry
    | none =>
      simp only [hresult] at hstep
      obtain ⟨hlt, hunfinished⟩ := notFinished_of_resultWithImage hresult
      split at hstep
      · cases hstep
        exact h.goTo hcall (by simp [PlaceHolds, isRetry_dryRunResult])
      · cases hstep
        exact h.goTo hcall ⟨hlt, hunfinished, hholds⟩
  · split at hstep
    · cases hstep
      exact h.goTo hcall hholds
    · cases hstep
      exact h.goTo hcall (by simp [PlaceHolds, GenerationStatus.isRetry])
  · cases hstep
    -- The start is recorded before the process exists.
    obtain ⟨hlt, hadmits⟩ := hholds
    refine ⟨Nat.le_succ_of_le h.started_le, hlt, h.retryEvents_le, fun call' hcall' => ?_⟩
    cases hcall'
    refine ⟨Nat.le_trans hattempts (Nat.add_le_add_right (Nat.le_succ _) _),
      Nat.lt_succ_of_le h.started_le, hadmits, ?_⟩
    show call.attempts.length + 1 - call.forceNewGeneration.toNat ≤ s.startCount + 1
    omega
  · split at hstep
    · cases hstep
      obtain ⟨hlt, -, hcount⟩ := hholds
      refine ⟨hlt, h.startCount_le, h.retryEvents_le, fun call' hcall' => ?_⟩
      cases hcall'
      exact ⟨hattempts, hcount⟩
    · cases hstep
      exact h.goTo hcall (by simp [PlaceHolds, GenerationStatus.isRetry])
  · cases hstep
    exact h.finish hcall hplace _ _
  · cases hstep
    exact h.settle hcall hplace
  · cases hstep

/-- A step of the runner or of a generator keeps the budgets. -/
theorem StartsHold.step (h : StartsHold c s) (hstep : s.step c action = some s') :
    StartsHold c s' := by
  unfold GenerationState.step at hstep
  split at hstep
  · cases hstep
    refine ⟨h.started_le, h.startCount_le, h.retryEvents_le, fun call' hcall' => ?_⟩
    cases hcall'
    exact ⟨by simp, trivial⟩
  · cases hstep
    exact ⟨h.started_le, h.startCount_le, h.retryEvents_le, by simp⟩
  · split at hstep
    · cases hstep
      exact ⟨h.started_le, h.startCount_le, h.retryEvents_le, fun call' hcall' =>
        ⟨(h.call call' hcall').attempts, (h.call call' hcall').place.congr rfl rfl⟩⟩
    · cases hstep
  · split at hstep
    · cases hstep
      exact ⟨h.started_le, h.startCount_le, h.retryEvents_le, fun call' hcall' =>
        ⟨(h.call call' hcall').attempts, (h.call call' hcall').place.congr rfl rfl⟩⟩
    · cases hstep
  · rename_i hcall
    exact h.stepCall hcall rfl hstep
  · cases hstep

/-- The budgets hold in every state of every run. -/
theorem StartsHold.run (h : StartsHold c s) {actions : List (GenerationAction Pair Probe)}
    (hrun : s.run c actions = some s') : StartsHold c s' := by
  induction actions generalizing s with
  | nil => cases hrun; exact h
  | cons action actions ih =>
    obtain ⟨next, hstep, hrest⟩ := Option.bind_eq_some_iff.mp hrun
    exact ih (h.step hstep) hrest

end Invariant

section Ends

/-- The steps that a round has left. -/
def RoundPlace.stepsLeft : RoundPlace Pair Probe → Nat
  | .looking => 7
  | .checked _ => 6
  | .admitted .. => 5
  | .cleared .. => 4
  | .counted .. => 3
  | .running .. => 2
  | .returned _ => 1

/-- The rounds that an invocation can still begin. -/
def GenerationCall.roundsLeft (call : GenerationCall Pair Probe) : Nat :=
  if call.forceNewGeneration then 0 else c.maxTaskStarts + 1 - call.attempts.length

/-- The steps that the invocation has left. -/
def GenerationState.stepsLeft (s : GenerationState Pair Probe) : Nat :=
  s.call.elim 0 fun call => 8 * call.roundsLeft c + call.place.stepsLeft

variable {c} {s s' : GenerationState Pair Probe} {call : GenerationCall Pair Probe}
  {place : RoundPlace Pair Probe} {action : GenerationAction Pair Probe}

theorem RoundPlace.stepsLeft_le (place : RoundPlace Pair Probe) : place.stepsLeft ≤ 7 := by
  cases place <;> simp [RoundPlace.stepsLeft]

theorem RoundPlace.stepsLeft_pos (place : RoundPlace Pair Probe) : 0 < place.stepsLeft := by
  cases place <;> simp [RoundPlace.stepsLeft]

theorem stepsLeft_goTo (s : GenerationState Pair Probe) (call : GenerationCall Pair Probe)
    (place : RoundPlace Pair Probe) :
    (s.goTo call place).stepsLeft c = 8 * call.roundsLeft c + place.stepsLeft := rfl

theorem stepsLeft_le (s : GenerationState Pair Probe) :
    s.stepsLeft c ≤ 8 * (c.maxTaskStarts + 2) := by
  unfold GenerationState.stepsLeft GenerationCall.roundsLeft
  cases s.call with
  | none => simp
  | some call =>
    have hplace := call.place.stepsLeft_le
    simp only [Option.elim_some]
    split <;> omega

/-- A round that is repeated leaves fewer rounds to begin. -/
theorem StartsHold.stepsLeft_settle (h : StartsHold c s) (hcall : s.call = some call)
    {result : GenerationResult} (hplace : call.place = .returned result) :
    (s.settle c call result).stepsLeft c < s.stepsLeft c := by
  obtain ⟨hattempts, -⟩ := h.call call hcall
  have hbudget := h.startCount_le
  have hend : ∀ attempts, (s.endCall attempts result).stepsLeft c < s.stepsLeft c := by
    intro attempts
    simp only [GenerationState.endCall, GenerationState.stepsLeft, hcall, Option.elim_none,
      Option.elim_some]
    have := call.place.stepsLeft_pos
    omega
  unfold GenerationState.settle
  simp only
  split
  · exact hend _
  · split
    · exact hend _
    · rename_i hforce
      simp only [Bool.not_eq_true] at hforce
      rw [hforce] at hattempts
      simp only [Bool.toNat_false, Nat.add_zero] at hattempts
      have hrounds : s.stepsLeft c = 8 * (c.maxTaskStarts + 1 - call.attempts.length) + 1 := by
        simp [GenerationState.stepsLeft, GenerationCall.roundsLeft, RoundPlace.stepsLeft, hcall,
          hforce, hplace]
      split
      · split
        · exact hend _
        · split
          · exact hend _
          · split
            · exact hend _
            · simp only [GenerationState.stepsLeft, GenerationCall.roundsLeft, Option.elim_some,
                if_true, RoundPlace.stepsLeft] at hrounds ⊢
              omega
      · split
        · exact hend _
        · split
          · exact hend _
          · simp only [GenerationState.stepsLeft, GenerationCall.roundsLeft, Option.elim_some,
              List.length_append, List.length_singleton, Bool.false_eq_true, if_false,
              RoundPlace.stepsLeft] at hrounds ⊢
            omega

/-- Each step of an invocation leaves fewer steps. -/
theorem StartsHold.stepsLeft_stepCall (h : StartsHold c s) (hcall : s.call = some call)
    (hplace : call.place = place) (hstep : s.stepCall c call place action = some s') :
    s'.stepsLeft c < s.stepsLeft c := by
  have hleft : s.stepsLeft c = 8 * call.roundsLeft c + place.stepsLeft := by
    simp [GenerationState.stepsLeft, hcall, hplace]
  rw [hleft]
  unfold GenerationState.stepCall at hstep
  split at hstep
  · cases hstep
    rw [GenerationState.returnOr, stepsLeft_goTo]
    cases c.resultBeforeImage s.saved s.startCount <;> simp [RoundPlace.stepsLeft]
  · cases hstep
    simp [stepsLeft_goTo, RoundPlace.stepsLeft]
  · split at hstep
    · cases hstep
      simp [stepsLeft_goTo, RoundPlace.stepsLeft]
    · split at hstep <;> cases hstep <;> simp [stepsLeft_goTo, RoundPlace.stepsLeft]
  · split at hstep <;> cases hstep <;> simp [stepsLeft_goTo, RoundPlace.stepsLeft]
  · cases hstep
    simp [stepsLeft_goTo, RoundPlace.stepsLeft]
  · split at hstep <;> cases hstep <;> simp [stepsLeft_goTo, RoundPlace.stepsLeft]
  · rename_i ending probe
    cases hstep
    cases ending <;> simp [GenerationState.finish, stepsLeft_goTo, RoundPlace.stepsLeft]
  · cases hstep
    rw [← hleft]
    exact h.stepsLeft_settle hcall hplace
  · cases hstep

/-- Until the next invocation, every step of the runner leaves fewer steps. -/
theorem StartsHold.stepsLeft_step (h : StartsHold c s) (hinvoke : action ≠ .invoke)
    (hstep : s.step c action = some s') :
    s'.stepsLeft c + action.isRunner.toNat ≤ s.stepsLeft c := by
  unfold GenerationState.step at hstep
  split at hstep
  · exact absurd rfl hinvoke
  · cases hstep
    simp [GenerationState.stepsLeft, GenerationAction.isRunner]
  · split at hstep
    · cases hstep; exact Nat.le_refl _
    · cases hstep
  · split at hstep
    · cases hstep; exact Nat.le_refl _
    · cases hstep
  · rename_i hcall
    exact (Nat.add_le_add_left (Bool.toNat_le _) _).trans (h.stepsLeft_stepCall hcall rfl hstep)
  · cases hstep

/-- The steps of the runner up to the next invocation are bounded. -/
theorem StartsHold.countP_isRunner_le (h : StartsHold c s)
    {actions : List (GenerationAction Pair Probe)} (hinvoke : ∀ action ∈ actions, action ≠ .invoke)
    (hrun : s.run c actions = some s') :
    s'.stepsLeft c + actions.countP (·.isRunner) ≤ s.stepsLeft c := by
  induction actions generalizing s with
  | nil => cases hrun; exact Nat.le_refl _
  | cons action actions ih =>
    obtain ⟨next, hstep, hrest⟩ := Option.bind_eq_some_iff.mp hrun
    have hhead := h.stepsLeft_step (hinvoke action List.mem_cons_self) hstep
    have htail := ih (h.step hstep) (fun a ha => hinvoke a (List.mem_cons_of_mem _ ha)) hrest
    rw [List.countP_cons]
    cases hrunner : action.isRunner <;> simp only [hrunner, Bool.toNat_false, Bool.toNat_true] at hhead <;>
      simp <;> omega

end Ends

section Reads

/-- A step lets no generator of an earlier invocation save a pair between the reading of a round and
its start, and a round goes on to a start with a finished pair only if that pair is not a terminal
outcome as well. -/
def GenerationState.StepMeets (c : GenerationRunner Pair Probe) (s : GenerationState Pair Probe) :
    GenerationAction Pair Probe → Prop
  | .save _ => ∀ call, s.call = some call → call.place.read? = none
  | .ensureImage (some image) probe _ => ∀ call p, s.call = some call → call.place = .checked p →
    c.resultWithImage p image probe (!call.forceNewGeneration) s.startCount = none →
    c.done p → c.terminalGenerationResult p = none
  | _ => True

/-- Every step of a run meets the condition. -/
def GenerationState.RunMeets (c : GenerationRunner Pair Probe) (s : GenerationState Pair Probe) :
    List (GenerationAction Pair Probe) → Prop
  | [] => True
  | action :: actions => s.StepMeets c action ∧ ∀ s', s.step c action = some s' → s'.RunMeets c actions

variable {c} in
theorem runMeets_cons {s next : GenerationState Pair Probe} {action : GenerationAction Pair Probe}
    {actions : List (GenerationAction Pair Probe)} (hmeets : s.StepMeets c action)
    (hstep : s.step c action = some next) (hrest : next.RunMeets c actions) :
    s.RunMeets c (action :: actions) := by
  refine ⟨hmeets, fun s' hs' => ?_⟩
  rw [hstep] at hs'
  cases hs'
  exact hrest

/-- The pair that a round has read is the saved one, and no terminal outcome once it is admitted. -/
def ReadsCurrent (s : GenerationState Pair Probe) : RoundPlace Pair Probe → Prop
  | .checked p => s.saved = p
  | .admitted p _ _ | .cleared p _ _ | .counted p _ _ =>
    s.saved = p ∧ c.terminalGenerationResult p = none
  | _ => True

variable {c} {s s' : GenerationState Pair Probe} {call : GenerationCall Pair Probe}
  {place : RoundPlace Pair Probe} {action : GenerationAction Pair Probe}

/-- The round of the invocation has read the saved pair. -/
def AllReadsCurrent (c : GenerationRunner Pair Probe) (s : GenerationState Pair Probe) : Prop :=
  ∀ call, s.call = some call → ReadsCurrent c s call.place

theorem allReadsCurrent_goTo (h : ReadsCurrent c s place) : AllReadsCurrent c (s.goTo call place) := by
  intro call' hcall'
  cases hcall'
  cases place <;> exact h

theorem allReadsCurrent_settle (result : GenerationResult) :
    AllReadsCurrent c (s.settle c call result) := by
  intro call' hcall'
  unfold GenerationState.settle GenerationState.endCall at hcall'
  simp only at hcall'
  split_ifs at hcall' <;> cases hcall' <;> exact trivial

theorem AllReadsCurrent.stepCall (h : ReadsCurrent c s place) (hholds : StartsHold c s)
    (hcall : s.call = some call) (hplace : call.place = place) (hmeets : s.StepMeets c action)
    (hstep : s.stepCall c call place action = some s') : AllReadsCurrent c s' := by
  have hadmits := (hholds.call call hcall).place
  rw [hplace] at hadmits
  unfold GenerationState.stepCall at hstep
  split at hstep
  · cases hstep
    cases hresult : c.resultBeforeImage s.saved s.startCount with
    | some result => exact allReadsCurrent_goTo trivial
    | none => exact allReadsCurrent_goTo rfl
  · cases hstep
    exact allReadsCurrent_goTo trivial
  · rename_i read image probe workdirOk
    cases hresult : c.resultWithImage read image probe (!call.forceNewGeneration) s.startCount with
    | some result =>
      simp only [hresult, Option.some.injEq] at hstep
      subst hstep
      exact allReadsCurrent_goTo trivial
    | none =>
      simp only [hresult] at hstep
      split at hstep
      · cases hstep
        exact allReadsCurrent_goTo trivial
      · cases hstep
        have hclear : c.terminalGenerationResult read = none := by
          rcases hadmits with hdone | hclear
          · exact hmeets call read hcall hplace hresult hdone
          · exact hclear
        exact allReadsCurrent_goTo ⟨h, hclear⟩
  · split at hstep
    · cases hstep
      exact allReadsCurrent_goTo h
    · cases hstep
      exact allReadsCurrent_goTo trivial
  · cases hstep
    exact allReadsCurrent_goTo h
  · split at hstep
    · cases hstep
      exact allReadsCurrent_goTo trivial
    · cases hstep
      exact allReadsCurrent_goTo trivial
  · rename_i ending probe
    cases hstep
    cases ending <;> exact allReadsCurrent_goTo trivial
  · cases hstep
    exact allReadsCurrent_settle _
  · cases hstep

theorem AllReadsCurrent.step (h : AllReadsCurrent c s) (hholds : StartsHold c s)
    (hmeets : s.StepMeets c action) (hstep : s.step c action = some s') : AllReadsCurrent c s' := by
  unfold GenerationState.step at hstep
  split at hstep
  · cases hstep
    intro call' hcall'
    cases hcall'
    exact trivial
  · cases hstep
    intro call' hcall'
    cases hcall'
  · split at hstep
    · cases hstep
      intro call' hcall'
      have hread := hmeets call' hcall'
      cases hplace : call'.place <;> rw [hplace] at hread <;>
        first | exact trivial | cases hread
    · cases hstep
  · split at hstep
    · cases hstep
      intro call' hcall'
      have := h call' hcall'
      cases hplace : call'.place <;> rw [hplace] at this <;> exact this
    · cases hstep
  · rename_i hcall
    exact AllReadsCurrent.stepCall (h _ hcall) hholds hcall rfl hmeets hstep
  · cases hstep

theorem AllReadsCurrent.run (h : AllReadsCurrent c s) (hholds : StartsHold c s)
    {actions : List (GenerationAction Pair Probe)} (hmeets : s.RunMeets c actions)
    (hrun : s.run c actions = some s') : AllReadsCurrent c s' := by
  induction actions generalizing s with
  | nil => cases hrun; exact h
  | cons action actions ih =>
    obtain ⟨next, hstep, hrest⟩ := Option.bind_eq_some_iff.mp hrun
    exact ih (h.step hholds hmeets.1 hstep) (hholds.step hstep) (hmeets.2 next hstep) hrest

end Reads

/-- Starts and retries are within the budgets, and the invocation ends: the runner takes a bounded
number of steps before the next one. -/
structure BudgetsKept (s : GenerationState Pair Probe) : Prop where
  started_le : s.started ≤ c.maxTaskStarts
  retryEvents_le : s.retryEvents ≤ c.maxEmptyPatchRetries
  ends : ∀ actions s', (∀ action ∈ actions, action ≠ .invoke) → s.run c actions = some s' →
    actions.countP (·.isRunner) ≤ 8 * (c.maxTaskStarts + 2)

/-- A round that is about to start a generator does not do so beside a saved pair that is a finished
generation or a terminal outcome. -/
def StartsBesideNone (s : GenerationState Pair Probe) : Prop :=
  ∀ call read image probe, s.call = some call → call.place = .counted read image probe →
    ¬ c.Finished s.saved probe ∧ c.terminalGenerationResult s.saved = none

/-- The budgets are kept in every run, and saved generations are where no generator of an earlier
invocation gets in between. -/
theorem generation_starts_within_budget (saved : Pair) (actions : List (GenerationAction Pair Probe))
    (s : GenerationState Pair Probe) (hrun : (GenerationState.init saved).run c actions = some s) :
    BudgetsKept c s ∧
      ((GenerationState.init saved).RunMeets c actions → StartsBesideNone c s) := by
  have hholds := (startsHold_init (c := c) saved).run hrun
  refine ⟨⟨hholds.started_le.trans hholds.startCount_le, hholds.retryEvents_le, ?_⟩, ?_⟩
  · intro rest s' hinvoke hrest
    have hsteps := hholds.countP_isRunner_le hinvoke hrest
    have hbound := stepsLeft_le (c := c) s
    omega
  · intro hmeets call read image probe hcall hplace
    have hinit : AllReadsCurrent c (.init saved) := by
      intro call hcall
      simp [GenerationState.init] at hcall
    have hread := hinit.run (startsHold_init saved) hmeets hrun call hcall
    have hadmits := (hholds.call call hcall).place
    rw [hplace] at hread hadmits
    exact ⟨hread.1 ▸ hadmits.2.1.1, hread.1 ▸ hread.2⟩

/-- A task whose saved pair is finished or missing. -/
def twoPairs : GenerationRunner Bool Unit where
  evalOnly := false
  dryRun := false
  missingOpenhandsCommand := false
  maxTaskStarts := 2
  maxEmptyPatchRetries := 1
  generationDone _ p := p
  identityStatus p := if p then .verified else .invalid
  hasMetric p := p
  terminalGenerationResult _ := none
  baseCommitMatches _ := true
  generationImageId p := if p then some (lit "sha256:0") else none
  providerFailure _ _ := none
  prepareEvalPatchSelection p _ := ⟨true, if p then lit "diff" else []⟩
  isRecoveredCapture _ := false
  emptyAfterDone _ := false
  recordId p := if p then lit "record" else []
  identityMatches p := p
  ocFailure _ := false
  readinessFailure _ := .noPatch

/-- The steps of an invocation up to the start of its generator. -/
def upToStart : List (GenerationAction Bool Unit) :=
  [.invoke, .look, .ensureImage (some (lit "sha256:0")) () true, .clearRecord true, .writeStart]

/-- The runner crashes after its start, and the generator saves a finished pair once the next
invocation has read that there is none. -/
def overtakenStart : List (GenerationAction Bool Unit) :=
  upToStart ++ [.spawn true, .crash] ++ upToStart ++ [.save true]

/-- A generator is started beside a finished generation. -/
theorem generation_starts_beside_finished :
    ¬ ∀ (c : GenerationRunner Bool Unit) (saved : Bool) (actions : List (GenerationAction Bool Unit))
      (s : GenerationState Bool Unit), (GenerationState.init saved).run c actions = some s →
        BudgetsKept c s ∧ StartsBesideNone c s := by
  intro h
  obtain ⟨-, hbeside⟩ := h twoPairs false overtakenStart
    ⟨true, 2, 0, 1, 1, some ⟨[], false, .counted false (lit "sha256:0") ()⟩, none⟩ rfl
  refine (hbeside _ _ _ _ rfl rfl).1 ⟨rfl, rfl, ?_⟩
  decide +kernel

/-- The run of an invocation that starts a generator and finds its pair finished. -/
theorem generation_starts_within_budget_first :
    ∃ s, (GenerationState.init false).run twoPairs (upToStart ++ [.spawn true, .save true]) = some s ∧
      BudgetsKept twoPairs s ∧ StartsBesideNone twoPairs s := by
  have hrun : (GenerationState.init false).run twoPairs (upToStart ++ [.spawn true, .save true]) =
      some ⟨true, 1, 0, 1, 0, some ⟨[], false, .running false (lit "sha256:0")⟩, none⟩ := rfl
  obtain ⟨hbudgets, hbeside⟩ := generation_starts_within_budget twoPairs false _ _ hrun
  refine ⟨_, hrun, hbudgets, hbeside ?_⟩
  refine runMeets_cons trivial rfl (runMeets_cons trivial rfl (runMeets_cons ?_ rfl
    (runMeets_cons trivial rfl (runMeets_cons trivial rfl (runMeets_cons trivial rfl
      (runMeets_cons ?_ rfl trivial))))))
  · intro call p _ _ _ _
    rfl
  · intro call hcall
    cases hcall
    rfl

end OpenCollabEval
