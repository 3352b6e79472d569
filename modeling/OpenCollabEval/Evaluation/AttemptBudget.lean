import OpenCollabEval.Evaluation.AttemptMachine

/-!
# The budget of evaluation attempts

For every identity of a candidate, no more containers are started than the budget allows, each after
an event of its own, and an invocation starts none after an attempt that left something behind. A later
invocation may: it asks for the stale container only.
-/

open Python

namespace OpenCollabEval

/-- The recorded attempts of an identity. -/
def recordedAttempts (log : List AttemptEvent) (identity : AttemptIdentity) : Nat :=
  log.countP fun event => decide (event.identity = identity)

theorem recordedAttempts_append_singleton (log : List AttemptEvent) (event : AttemptEvent)
    (identity : AttemptIdentity) :
    recordedAttempts (log ++ [event]) identity =
      recordedAttempts log identity + if event.identity = identity then 1 else 0 := by
  simp [recordedAttempts, List.countP_append, List.countP_cons]

variable (env : Env)

/-- The digests of the host are lower case hexadecimal digests. -/
def DigestsShaped : Prop := ∀ bytes, isLowerSha256 (env.sha256 bytes) = true

variable {env}

/-- The digest of a patch that is not blank matches itself. -/
theorem patchShaMatches_patchSha (hdigests : DigestsShaped env) {patch : Str}
    (hpatch : patch.strip.isEmpty = false) :
    (patchSha env patch).isEmpty = false ∧
      patchShaMatches (patchSha env patch) (patchSha env patch) = true := by
  have hne : patch.isEmpty = false := by
    cases patch with
    | nil => rw [show Str.strip [] = [] from rfl] at hpatch; cases hpatch
    | cons => rfl
  have hsha : isSha256 (patchSha env patch) = true := by
    rw [patchSha, hne]
    exact isSha256_of_isLowerSha256 (hdigests _)
  have hnonempty : (patchSha env patch).isEmpty = false := by
    cases hempty : patchSha env patch with
    | nil => rw [hempty] at hsha; cases hsha
    | cons => rfl
  simp [patchShaMatches, hnonempty, hsha]

/-- Every recorded attempt of an identity is counted for its selection. -/
theorem recordedAttempts_le_evalAttemptCount (hdigests : DigestsShaped env) (log : List AttemptEvent)
    {candidate : EvalCandidate} {selection : EvalSelection}
    (himage : isImageId selection.imageId = true)
    (hspec : selection.evalSpecSha256 = candidate.evalSpecSha256)
    (hpatch : selection.modelPatch.strip.isEmpty = false) :
    recordedAttempts log (selection.identity env candidate) ≤
      evalAttemptCount env log candidate (selection.key env) := by
  obtain ⟨hnonempty, hmatches⟩ := patchShaMatches_patchSha hdigests hpatch
  unfold evalAttemptCount recordedAttempts
  simp only [EvalSelection.key, himage, hnonempty, Bool.not_true, Bool.false_eq_true, if_false]
  refine List.countP_mono_left fun event _ hevent => ?_
  obtain ⟨recordId, patchSha256, evalPatchSha256, evalSpecSha256, evalImageId⟩ := event
  simp only [AttemptEvent.identity, EvalSelection.identity, decide_eq_true_eq,
    AttemptIdentity.mk.injEq] at hevent
  obtain ⟨rfl, rfl, rfl, rfl⟩ := hevent
  simp only [hnonempty, hspec]
  cases isLowerSha256 candidate.evalSpecSha256 <;> simp [hmatches]

section Invariant

variable (env) (maxEvalAttempts : Nat)

/-- The selection of an invocation is bound to an image, and its attempts are counted. Without one the
test plans do not cover the tests. -/
structure CallReady (call : EvalCall) : Prop where
  unplanned : call.selection = none →
    (call.candidate.missingSpec || !call.candidate.planVerified) = true
  image : ∀ selection, call.selection = some selection → selection.ok = true →
    isImageId selection.imageId = true
  expected : ∀ selection, call.selection = some selection → call.expected = selection.key env

/-- The selection of an invocation can be evaluated again. -/
structure CallUsable (call : EvalCall) : Prop extends CallReady env call where
  usable : ∀ selection, call.selection = some selection → selection.ok = true

/-- A selection passed its checks: another attempt of it is within the budget. -/
structure Evaluable (s : EvalState) (call : EvalCall) (selection : EvalSelection) : Prop where
  usable : CallUsable env call
  image : isImageId selection.imageId = true
  spec : selection.evalSpecSha256 = call.candidate.evalSpecSha256
  patch : selection.modelPatch.strip.isEmpty = false
  budget : evalAttemptCount env s.log call.candidate (selection.key env) < maxEvalAttempts

/-- The recorded attempts account for one more container than were started. -/
structure StartDue (log₀ : List AttemptEvent) (s : EvalState) (identity : AttemptIdentity) : Prop where
  recorded : s.started.count identity + recordedAttempts log₀ identity <
    recordedAttempts s.log identity
  budget : s.started.count identity < maxEvalAttempts

/-- What is known at each place of an invocation. -/
def AttemptHolds (log₀ : List AttemptEvent) (s : EvalState) (call : EvalCall) : AttemptPlace → Prop
  | .selecting => True
  | .counting => CallReady env call
  | .beginning first =>
    CallReady env call ∧ evalAttemptCount env s.log call.candidate call.expected < maxEvalAttempts ∧
      (first = false → CallUsable env call)
  | .validating =>
    CallReady env call ∧ evalAttemptCount env s.log call.candidate call.expected < maxEvalAttempts
  | .preparing selection | .sweeping selection | .recording selection =>
    Evaluable env maxEvalAttempts s call selection
  | .spawning selection =>
    CallUsable env call ∧ StartDue maxEvalAttempts log₀ s (selection.identity env call.candidate)
  | .waiting => CallUsable env call
  | .returned result => result.status.isRetry = true → result.executed ≠ some false →
    CallUsable env call

/-- The recorded attempts account for the containers that were started, within the budget. -/
structure AttemptsHold (log₀ : List AttemptEvent) (s : EvalState) : Prop where
  recorded : ∀ identity, s.started.count identity + recordedAttempts log₀ identity ≤
    recordedAttempts s.log identity
  budget : ∀ identity, s.started.count identity ≤ maxEvalAttempts
  call : ∀ call, s.call = some call → AttemptHolds env maxEvalAttempts log₀ s call call.place

variable {env} {maxEvalAttempts} {dryRun : Bool} {log₀ : List AttemptEvent} {s s' : EvalState}
  {call : EvalCall} {place : AttemptPlace} {action : EvalAction}

theorem attemptsHold_init (log : List AttemptEvent) (marker : Bool) :
    AttemptsHold env maxEvalAttempts log (.init log marker) :=
  ⟨by simp [EvalState.init], by simp [EvalState.init], by simp [EvalState.init]⟩

/-- What is known of an invocation depends on the recorded attempts and the starts only. -/
theorem AttemptHolds.congr {t : EvalState} (h : AttemptHolds env maxEvalAttempts log₀ s call place)
    (hlog : t.log = s.log) (hstarted : t.started = s.started) :
    AttemptHolds env maxEvalAttempts log₀ t call place := by
  cases place with
  | preparing selection | sweeping selection | recording selection =>
    exact ⟨h.usable, h.image, h.spec, h.patch, hlog ▸ h.budget⟩
  | spawning selection =>
    exact ⟨h.1, by rw [hlog, hstarted]; exact h.2.recorded, by rw [hstarted]; exact h.2.budget⟩
  | beginning first => exact ⟨h.1, hlog ▸ h.2.1, h.2.2⟩
  | validating => exact ⟨h.1, hlog ▸ h.2⟩
  | selecting | counting | waiting | returned result => exact h

/-- What is known at a place does not depend on the place that the invocation names. -/
theorem AttemptHolds.moved (next : AttemptPlace)
    (h : AttemptHolds env maxEvalAttempts log₀ s call place) :
    AttemptHolds env maxEvalAttempts log₀ s { call with place := next } place := by
  have hready : ∀ {call : EvalCall}, CallReady env call →
      CallReady env { call with place := next } := fun h => ⟨h.unplanned, h.image, h.expected⟩
  have husable : ∀ {call : EvalCall}, CallUsable env call →
      CallUsable env { call with place := next } := fun h => ⟨hready h.toCallReady, h.usable⟩
  cases place with
  | selecting => trivial
  | counting => exact hready h
  | beginning first => exact ⟨hready h.1, h.2.1, fun hfirst => husable (h.2.2 hfirst)⟩
  | validating => exact ⟨hready h.1, h.2⟩
  | preparing selection | sweeping selection | recording selection =>
    exact ⟨husable h.usable, h.image, h.spec, h.patch, h.budget⟩
  | spawning selection => exact ⟨husable h.1, h.2⟩
  | waiting => exact husable h
  | returned result => exact fun hretry hexecuted => husable (h hretry hexecuted)

/-- An invocation that moves on keeps everything else. -/
theorem AttemptsHold.goTo {t : EvalState} (h : AttemptsHold env maxEvalAttempts log₀ s)
    (hplace : AttemptHolds env maxEvalAttempts log₀ s call place) (hlog : t.log = s.log)
    (hstarted : t.started = s.started) :
    AttemptsHold env maxEvalAttempts log₀ (t.goTo call place) := by
  refine ⟨fun identity => ?_, fun identity => ?_, fun call' hcall' => ?_⟩
  · simpa only [EvalState.goTo, hlog, hstarted] using h.recorded identity
  · simpa only [EvalState.goTo, hstarted] using h.budget identity
  · cases hcall'
    exact (hplace.moved place).congr hlog hstarted

theorem AttemptsHold.refuse (h : AttemptsHold env maxEvalAttempts log₀ s) (status : EvalStatus) :
    AttemptsHold env maxEvalAttempts log₀ (s.refuse call status) :=
  h.goTo (fun _ hexecuted => absurd rfl hexecuted) rfl rfl

theorem AttemptsHold.endCall (h : AttemptsHold env maxEvalAttempts log₀ s) (final : FinalEval) :
    AttemptsHold env maxEvalAttempts log₀ (s.endCall final) :=
  ⟨h.recorded, h.budget, by simp [EvalState.endCall]⟩

/-- A selection that is bound, or not in order, is left as it is. -/
theorem bindEvalImage_of_ready {selection : EvalSelection} (answer : ImageAnswer)
    (himage : selection.ok = true → isImageId selection.imageId = true) :
    bindEvalImage selection answer = selection := by
  unfold bindEvalImage
  cases hok : selection.ok with
  | false => simp
  | true => simp [himage hok]

/-- Binding gives a selection in order an image. -/
theorem isImageId_bindEvalImage {selection : EvalSelection} {answer : ImageAnswer}
    (hok : (bindEvalImage selection answer).ok = true) :
    isImageId (bindEvalImage selection answer).imageId = true := by
  unfold bindEvalImage at hok ⊢
  split at hok
  · rename_i hbound
    rw [if_pos hbound]
    simpa [hok] using hbound
  · rename_i hbound
    rw [if_neg hbound]
    cases answer with
    | missing => cases hok
    | inspected imageId =>
      simp only at hok ⊢
      split at hok
      · rename_i imageId' himageId
        simp only
        exact (Option.filter_eq_some_iff.mp himageId).2
      · cases hok

/-- The selection that an invocation makes is ready. -/
theorem callReady_verified (prepared : EvalSelection) (answer : ImageAnswer) (call : EvalCall)
    (hselection : call.selection = verifiedPlanPatchSelection call.candidate prepared answer)
    (hexpected : ∀ selection, call.selection = some selection → call.expected = selection.key env) :
    CallReady env call := by
  unfold verifiedPlanPatchSelection at hselection
  split at hselection
  · rename_i hplan
    exact ⟨fun _ => hplan, by simp [hselection], hexpected⟩
  · refine ⟨by simp [hselection], fun selection hsome hok => ?_, hexpected⟩
    rw [hselection] at hsome
    cases hsome
    exact isImageId_bindEvalImage hok

theorem CallReady.validateSelection (hready : CallReady env call)
    (hbudget : evalAttemptCount env s.log call.candidate call.expected < maxEvalAttempts)
    (h : AttemptsHold env maxEvalAttempts log₀ s) {selection : EvalSelection}
    (hselection : call.selection = some selection) (answer : ImageAnswer) (expectationValid : Bool) :
    AttemptsHold env maxEvalAttempts log₀
      (s.validateSelection call selection answer expectationValid false) := by
  unfold EvalState.validateSelection
  rw [bindEvalImage_of_ready answer (hready.image selection hselection)]
  split
  · exact h.refuse _
  · rename_i hspec
    simp only [Bool.or_eq_true, Bool.not_eq_true', bne_iff_ne, not_or, not_not, Bool.not_eq_false,
      ne_eq] at hspec
    cases hinvalid : selection.ok && !expectationValid with
    | true =>
      simp only [hinvalid, if_true, Bool.not_false]
      exact h.refuse _
    | false =>
      simp only [hinvalid, Bool.false_eq_true, if_false]
      split
      · exact h.refuse _
      · rename_i hok
        split
        · exact h.refuse _
        · rename_i hpatch
          have hok : selection.ok = true := by simpa using hok
          have husable : CallUsable env { call with selection := some selection } := by
            refine ⟨⟨fun hnone => (by cases hnone), fun other hother => ?_, fun other hother => ?_⟩,
              fun other hother => ?_⟩
            · cases hother; exact hready.image selection hselection
            · cases hother; exact hready.expected selection hselection
            · cases hother; exact hok
          have hevaluable : Evaluable env maxEvalAttempts s { call with selection := some selection }
              selection :=
            ⟨husable, hready.image selection hselection hok, hspec.2, by simpa using hpatch,
              hready.expected selection hselection ▸ hbudget⟩
          have hplace : AttemptHolds env maxEvalAttempts log₀ s
              { call with selection := some selection } (.preparing selection) := hevaluable
          exact h.goTo hplace rfl rfl

theorem AttemptsHold.conclude (h : AttemptsHold env maxEvalAttempts log₀ s) {result : EvalResult}
    (husable : result.status.isRetry = true → result.executed ≠ some false → CallUsable env call) :
    AttemptsHold env maxEvalAttempts log₀ (s.conclude env maxEvalAttempts call result) := by
  unfold EvalState.conclude
  simp only
  split
  · exact h.endCall _
  · rename_i hrepeat
    simp only [Bool.or_eq_true, Bool.not_eq_true', decide_eq_true_eq, not_or, Bool.not_eq_false,
      beq_iff_eq] at hrepeat
    obtain ⟨⟨⟨⟨hretry, hexecuted⟩, -⟩, hcount⟩, -⟩ := hrepeat
    have hcall := husable hretry hexecuted
    refine ⟨h.recorded, h.budget, fun call' hcall' => ?_⟩
    cases hcall'
    have hready : CallReady env { call with
        attempts := call.attempts ++ [result]
        iterations := call.iterations - 1
        place := .beginning false } := ⟨hcall.unplanned, hcall.image, hcall.expected⟩
    exact ⟨hready, Nat.lt_of_not_le hcount, fun _ => ⟨hready, hcall.usable⟩⟩

/-- The selection of an iteration is that of the invocation: a selection that is not in order was not
evaluated, so that the loop has ended. -/
theorem AttemptHolds.begin {first : Bool}
    (h : AttemptHolds env maxEvalAttempts log₀ s call (.beginning first)) (prepared : EvalSelection)
    (answer : ImageAnswer) :
    (if call.selection.all fun selection => !first && !selection.ok then
      verifiedPlanPatchSelection call.candidate prepared answer else call.selection) =
      call.selection := by
  split
  · rename_i hagain
    cases hselection : call.selection with
    | none =>
      rw [verifiedPlanPatchSelection, if_pos (h.1.unplanned hselection)]
    | some selection =>
      rw [hselection] at hagain
      simp only [Option.all_some, Bool.and_eq_true, Bool.not_eq_true'] at hagain
      have husable := (h.2.2 hagain.1).usable selection hselection
      rw [hagain.2] at husable
      cases husable
  · rfl

theorem AttemptsHold.stepCall (hdigests : DigestsShaped env)
    (h : AttemptsHold env maxEvalAttempts log₀ s) (hcall : s.call = some call)
    (hplace : call.place = place)
    (hstep : s.stepCall env maxEvalAttempts dryRun call place action = some s') :
    AttemptsHold env maxEvalAttempts log₀ s' := by
  have hholds := h.call call hcall
  rw [hplace] at hholds
  unfold EvalState.stepCall at hstep
  split at hstep
  · cases hstep
    refine h.goTo (callReady_verified _ _ _ rfl fun selection hselection => ?_) rfl rfl
    simp only at hselection ⊢
    rw [hselection]
    rfl
  · simp only at hstep
    split at hstep
    · cases hstep
      exact h.endCall _
    · rename_i hcount
      cases hstep
      have hready : CallReady env call := hholds
      exact h.goTo ⟨⟨hready.unplanned, hready.image, hready.expected⟩, Nat.lt_of_not_le hcount,
        fun hfirst => by cases hfirst⟩ rfl rfl
  · rename_i first prepared answer
    cases hstep
    rw [hholds.begin prepared answer]
    obtain ⟨hready, hbudget, -⟩ := hholds
    have hexpected : (call.selection.filter (·.ok)).elim call.expected (·.key env) = call.expected := by
      cases hselection : call.selection with
      | none => rfl
      | some selection =>
        cases hok : selection.ok with
        | true => simp [Option.filter, hok, hready.expected selection hselection]
        | false => simp [Option.filter, hok]
    rw [hexpected]
    exact h.goTo ⟨⟨hready.unplanned, hready.image, hready.expected⟩, hbudget⟩ rfl rfl
  · rename_i prepared answer expectationValid
    obtain ⟨hready, hbudget⟩ := hholds
    split at hstep
    · cases hstep
      exact h.goTo (fun hretry => by cases hretry) rfl rfl
    · rename_i hspec
      split at hstep
      · cases hstep
        exact h.refuse _
      · rename_i hplan
        cases hselection : call.selection with
        | none =>
          have := hready.unplanned hselection
          simp_all
        | some selection =>
          rw [hselection] at hstep
          cases hstep
          exact hready.validateSelection hbudget h hselection _ _
  · split at hstep
    · cases hstep
      exact h.goTo (fun hretry => by cases hretry) rfl rfl
    · split at hstep
      · cases hstep
        exact h.refuse _
      · split at hstep
        · cases hstep
          exact h.refuse _
        · cases hstep
          exact h.goTo hholds rfl rfl
  · split at hstep
    · cases hstep
      exact h.goTo (fun _ _ => hholds.usable) rfl rfl
    · cases hstep
      exact h.goTo hholds rfl rfl
  · rename_i selection
    cases hstep
    -- The attempt is recorded within the budget, and then the container is due.
    have hcounted := recordedAttempts_le_evalAttemptCount hdigests s.log hholds.image hholds.spec
      hholds.patch
    have hrecorded := h.recorded (selection.identity env call.candidate)
    have hbudget := hholds.budget
    refine ⟨fun identity => ?_, h.budget, fun call' hcall' => ?_⟩
    · have := h.recorded identity
      simp only [EvalState.goTo, recordedAttempts_append_singleton]
      omega
    · cases hcall'
      refine ⟨⟨⟨hholds.usable.unplanned, hholds.usable.image, hholds.usable.expected⟩,
        hholds.usable.usable⟩, ⟨?_, ?_⟩⟩
      · simp only [EvalState.goTo, recordedAttempts_append_singleton, AttemptEvent.identity,
          EvalSelection.identity, if_true] at hrecorded ⊢
        omega
      · show s.started.count (selection.identity env call.candidate) < maxEvalAttempts
        omega
  · rename_i selection ok cleared
    obtain ⟨husable, hdue⟩ := hholds
    split at hstep
    · cases hstep
      refine ⟨fun identity => ?_, fun identity => ?_, fun call' hcall' => ?_⟩
      · have := h.recorded identity
        have := hdue.recorded
        simp only [EvalState.goTo, List.count_append, List.count_singleton]
        split
        · rename_i heq
          cases eq_of_beq heq
          omega
        · omega
      · have := h.budget identity
        have := hdue.budget
        simp only [EvalState.goTo, List.count_append, List.count_singleton]
        split
        · rename_i heq
          cases eq_of_beq heq
          omega
        · omega
      · cases hcall'
        exact ⟨⟨husable.unplanned, husable.image, husable.expected⟩, husable.usable⟩
    · cases hstep
      exact h.goTo (fun _ _ => husable) rfl rfl
  · cases hstep
    exact h.goTo (fun _ _ => hholds) rfl rfl
  · cases hstep
    exact h.goTo (fun _ _ => hholds) rfl rfl
  · cases hstep
    exact h.conclude hholds
  · cases hstep

theorem AttemptsHold.step (hdigests : DigestsShaped env)
    (h : AttemptsHold env maxEvalAttempts log₀ s)
    (hstep : s.step env maxEvalAttempts dryRun action = some s') :
    AttemptsHold env maxEvalAttempts log₀ s' := by
  unfold EvalState.step at hstep
  split at hstep
  · cases hstep
    exact h.endCall _
  · cases hstep
    refine ⟨h.recorded, h.budget, fun call' hcall' => ?_⟩
    cases hcall'
    trivial
  · cases hstep
    exact ⟨h.recorded, h.budget, by simp⟩
  · rename_i hcall
    exact h.stepCall hdigests hcall rfl hstep
  · cases hstep

/-- The recorded attempts account for the containers in every state of every run. -/
theorem AttemptsHold.run (hdigests : DigestsShaped env)
    (h : AttemptsHold env maxEvalAttempts log₀ s) {actions : List EvalAction}
    (hrun : s.run env maxEvalAttempts dryRun actions = some s') :
    AttemptsHold env maxEvalAttempts log₀ s' := by
  induction actions generalizing s with
  | nil => cases hrun; exact h
  | cons action actions ih =>
    obtain ⟨next, hstep, hrest⟩ := Option.bind_eq_some_iff.mp hrun
    exact ih (h.step hdigests hstep) hrest

end Invariant

section Claim

variable (env) (maxEvalAttempts : Nat) (dryRun : Bool)

/-- The last attempt of the invocation reports a container or a process group that it left behind. -/
def LeavesBehind (s : EvalState) : Bool :=
  match s.call with
  | some ⟨_, _, _, _, _, .returned result⟩ => !result.cleanupSafe
  | _ => false

/-- The action begins an invocation. -/
def EvalAction.isInvoke : EvalAction → Bool
  | .invoke _ => true
  | _ => false

variable {env maxEvalAttempts dryRun} {s s' : EvalState}

theorem EvalState.run_cons (s : EvalState) (action : EvalAction) (actions : List EvalAction) :
    s.run env maxEvalAttempts dryRun (action :: actions) =
      (s.step env maxEvalAttempts dryRun action).bind
        (·.run env maxEvalAttempts dryRun actions) := rfl

/-- Without an invocation nothing happens until the next one begins. -/
theorem step_of_call_eq_none (hcall : s.call = none) {action : EvalAction}
    (hinvoke : action.isInvoke = false) : s.step env maxEvalAttempts dryRun action = none := by
  unfold EvalState.step
  rw [hcall]
  cases action with
  | invoke candidate => cases hinvoke
  | _ => rfl

theorem run_eq_of_call_eq_none (hcall : s.call = none) {actions : List EvalAction}
    (hinvoke : ∀ action ∈ actions, action.isInvoke = false)
    (hrun : s.run env maxEvalAttempts dryRun actions = some s') : s' = s := by
  cases actions with
  | nil => cases hrun; rfl
  | cons action actions =>
    rw [EvalState.run_cons, step_of_call_eq_none hcall (hinvoke action List.mem_cons_self)] at hrun
    cases hrun

/-- An invocation whose last attempt left something behind ends. -/
theorem step_of_leavesBehind (hleft : LeavesBehind s = true) {action : EvalAction}
    (hstep : s.step env maxEvalAttempts dryRun action = some s') :
    s'.call = none ∧ s'.started = s.started := by
  unfold LeavesBehind at hleft
  split at hleft
  · rename_i candidate selection expected attempts iterations result hcall
    simp only [Bool.not_eq_true'] at hleft
    unfold EvalState.step at hstep
    rw [hcall] at hstep
    cases action with
    | conclude =>
      cases hstep
      simp [EvalState.conclude, hleft, EvalState.endCall]
    | invoke candidate => cases candidate <;> cases hstep
    | crash => cases hstep; exact ⟨rfl, rfl⟩
    | _ => cases hstep
  · cases hleft

theorem started_of_leavesBehind (hleft : LeavesBehind s = true) {actions : List EvalAction}
    (hinvoke : ∀ action ∈ actions, action.isInvoke = false)
    (hrun : s.run env maxEvalAttempts dryRun actions = some s') : s'.started = s.started := by
  cases actions with
  | nil => cases hrun; rfl
  | cons action actions =>
    rw [EvalState.run_cons] at hrun
    obtain ⟨next, hstep, hrest⟩ := Option.bind_eq_some_iff.mp hrun
    obtain ⟨hcall, hstarted⟩ := step_of_leavesBehind hleft hstep
    rw [run_eq_of_call_eq_none hcall (fun a ha => hinvoke a (List.mem_cons_of_mem _ ha)) hrest]
    exact hstarted

/-- In every run over the invocations on a task directory, the containers of an identity stay within
the budget, each was recorded before, and no container follows in an invocation whose last attempt left
something behind. -/
theorem evaluation_attempts_within_budget (hdigests : DigestsShaped env) (log : List AttemptEvent)
    (marker : Bool) (actions : List EvalAction)
    (hrun : (EvalState.init log marker).run env maxEvalAttempts dryRun actions = some s) :
    (∀ identity, s.started.count identity ≤ maxEvalAttempts) ∧
      (∀ identity, s.started.count identity + recordedAttempts log identity ≤
        recordedAttempts s.log identity) ∧
      (LeavesBehind s = true → ∀ rest s', (∀ action ∈ rest, action.isInvoke = false) →
        s.run env maxEvalAttempts dryRun rest = some s' → s'.started = s.started) := by
  have hholds := AttemptsHold.run hdigests
    (attemptsHold_init log marker : AttemptsHold env maxEvalAttempts log _) hrun
  exact ⟨hholds.budget, hholds.recorded, fun hleft rest s' => started_of_leavesBehind hleft⟩

end Claim

theorem asciiEnv_digestsShaped : DigestsShaped asciiEnv := isLowerSha256_hexdigest

/-- A candidate with a verified test plan. -/
def plannedCandidate : EvalCandidate :=
  ⟨lit "record", Sha256.hexdigest (lit "diff"), lit "diff", false, true,
    Sha256.hexdigest (lit "spec"), Sha256.hexdigest (lit "spec")⟩

/-- Its selection, before the image is known. -/
def plannedSelection : EvalSelection := ⟨true, false, lit "diff", [], []⟩

/-- The answer for a local image. -/
def localImage : ImageAnswer := .inspected (some (lit "sha256:" ++ Sha256.hexdigest (lit "image")))

/-- The steps of an invocation up to the start of its first container. -/
def upToContainer : List EvalAction :=
  [.invoke (some plannedCandidate), .select plannedSelection localImage, .count false,
    .begin plannedSelection localImage, .validate plannedSelection localImage true,
    .prepare false none, .sweep true, .record, .spawn true false]

/-- The first attempt reports that its process group is not quiet, and a second invocation starts
another container. -/
theorem container_follows_in_later_invocation :
    ¬ ∀ (env : Env) (maxEvalAttempts : Nat) (dryRun : Bool) (log : List AttemptEvent) (marker : Bool)
      (actions : List EvalAction) (s : EvalState), DigestsShaped env →
      (EvalState.init log marker).run env maxEvalAttempts dryRun actions = some s →
      LeavesBehind s = true → ∀ rest s', s.run env maxEvalAttempts dryRun rest = some s' →
        s'.started = s.started := by
  intro h
  have hruns : ((EvalState.init [] false).run asciiEnv 2 false
      (upToContainer ++ [.ended true false true])).any (fun s => LeavesBehind s &&
        s.started.length == 1 && (s.run asciiEnv 2 false (.conclude :: upToContainer)).any
          fun s' => s'.started.length == 2) = true := by decide +kernel
  obtain ⟨s, hrun, hs⟩ := (Option.any_eq_true _ _).mp hruns
  simp only [Bool.and_eq_true, beq_iff_eq] at hs
  obtain ⟨⟨hleft, hone⟩, hagain⟩ := hs
  obtain ⟨s', hrest, htwo⟩ := (Option.any_eq_true _ _).mp hagain
  have hsame := h asciiEnv 2 false [] false _ s asciiEnv_digestsShaped hrun hleft _ s' hrest
  rw [hsame, hone] at htwo
  cases htwo

/-- An attempt of a candidate that was not evaluated before. -/
theorem evaluation_attempts_within_budget_first :
    ∃ s, (EvalState.init [] false).run asciiEnv 2 false upToContainer = some s ∧
      s.started.length = 1 ∧ ∀ identity, s.started.count identity ≤ 2 := by
  have hruns : ((EvalState.init [] false).run asciiEnv 2 false upToContainer).any
      (fun s => s.started.length == 1) = true := by decide +kernel
  obtain ⟨s, hrun, hone⟩ := (Option.any_eq_true _ _).mp hruns
  exact ⟨s, hrun, eq_of_beq hone,
    (evaluation_attempts_within_budget asciiEnv_digestsShaped [] false _ hrun).1⟩

end OpenCollabEval
