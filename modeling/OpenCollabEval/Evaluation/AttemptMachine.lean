import OpenCollabEval.Evaluation.GenerationProof
import OpenCollabEval.Evaluation.Pairing

/-!
# Evaluation attempts

`eval_for_task_with_retries` for one task directory, as a machine that takes one step at a time. An
invocation selects the evaluation patch, counts the recorded attempts of its candidate, and then
evaluates up to as often as the budget allows. `eval_for_task_once` records the attempt before it
starts the container. The selection, the image and the evaluation may turn out in any way, and the
runner can crash between any two steps. The saved pair stays as it is while an invocation is at work.
-/

open Python

namespace OpenCollabEval

/-- What a runner knows of the candidate of a task: its prediction, whether its test plans cover the
tests, and the digests of the evaluation spec that the retries and `eval_for_task_once` compute. -/
structure EvalCandidate where
  recordId : Str
  patchSha256 : Str
  /-- `eval_model_patch` of the prediction. -/
  evalModelPatch : Str
  missingSpec : Bool
  planVerified : Bool
  planSpecSha256 : Str
  evalSpecSha256 : Str

/-- The selection of the patch that is evaluated. -/
structure EvalSelection where
  ok : Bool
  /-- The `status` is `blocked_missing_eval_image`. -/
  missingImage : Bool
  modelPatch : Str
  evalSpecSha256 : Str
  imageId : Str

/-- What `ensure_image` and `docker image inspect` answer. -/
inductive ImageAnswer where
  | missing
  | inspected (imageId : Option Str)

/-- `bind_eval_image` -/
def bindEvalImage (selection : EvalSelection) (answer : ImageAnswer) : EvalSelection :=
  if !selection.ok || isImageId selection.imageId then selection
  else
    match answer with
    | .missing => { selection with ok := false, missingImage := true }
    | .inspected imageId =>
      match imageId.filter isImageId with
      | some imageId => { selection with imageId := imageId }
      | none => { selection with ok := false, missingImage := false }

/-- `verified_plan_patch_selection`, from what `prepare_eval_patch_selection` returns. -/
def verifiedPlanPatchSelection (candidate : EvalCandidate) (prepared : EvalSelection)
    (answer : ImageAnswer) : Option EvalSelection :=
  if candidate.missingSpec || !candidate.planVerified then none
  else some { bindEvalImage prepared answer with evalSpecSha256 := candidate.planSpecSha256 }

/-- What attempts are counted by: an evaluation patch, an image and a spec. -/
structure AttemptKey where
  evalPatchSha256 : Str
  evalImageId : Str
  evalSpecSha256 : Str

/-- An `eval_attempt_started` event of the task. -/
structure AttemptEvent where
  recordId : Str
  patchSha256 : Str
  evalPatchSha256 : Str
  evalSpecSha256 : Str
  evalImageId : Str

/-- The identity of a candidate in an evaluation. -/
structure AttemptIdentity where
  recordId : Str
  evalPatchSha256 : Str
  evalSpecSha256 : Str
  evalImageId : Str
  deriving DecidableEq

/-- The identity that an event records. -/
def AttemptEvent.identity (event : AttemptEvent) : AttemptIdentity :=
  ⟨event.recordId, event.evalPatchSha256, event.evalSpecSha256, event.evalImageId⟩

/-- The statuses of the results of `eval_for_task_once`. -/
inductive EvalStatus where
  | evalDone | technicalEvalFailed | blockedMissingEvalImage | blockedMissingEvalSpec
  | emptyEvalPatchInvalid | wouldEval | generationNotReady
  deriving DecidableEq

/-- The statuses after which an attempt is repeated. -/
def EvalStatus.isRetry : EvalStatus → Bool
  | .technicalEvalFailed | .blockedMissingEvalImage => true
  | _ => false

/-- What a summary says of the container and of the process group. -/
structure CleanupReport where
  /-- The `ok` of `container_cleanup`. -/
  containerCleanup : Option Bool := none
  cleanupQuiesced : Option Bool := none

/-- A result of `eval_for_task_once`. -/
structure EvalResult where
  status : EvalStatus
  executed : Option Bool := none
  summary : Option CleanupReport := none

/-- `eval_retry_cleanup_safe` -/
def EvalResult.cleanupSafe (result : EvalResult) : Bool :=
  match result.summary with
  | none => true
  | some report => report.cleanupQuiesced != some false && report.containerCleanup != some false

section Model

variable (env : Env)

/-- What the attempts of a selection are counted by. -/
def EvalSelection.key (selection : EvalSelection) : AttemptKey :=
  ⟨patchSha env selection.modelPatch, selection.imageId, selection.evalSpecSha256⟩

/-- The identity of a candidate with a selection, in `eval_for_task_once`. -/
def EvalSelection.identity (selection : EvalSelection) (candidate : EvalCandidate) :
    AttemptIdentity :=
  ⟨candidate.recordId, patchSha env selection.modelPatch, candidate.evalSpecSha256,
    selection.imageId⟩

/-- `eval_attempt_count` -/
def evalAttemptCount (log : List AttemptEvent) (candidate : EvalCandidate) (expected : AttemptKey) :
    Nat :=
  if !isImageId expected.evalImageId then 0
  else
    let evalSpecSha256 :=
      if isLowerSha256 expected.evalSpecSha256 then expected.evalSpecSha256 else []
    let evalPatchSha256 :=
      if expected.evalPatchSha256.isEmpty then patchSha env candidate.evalModelPatch
      else expected.evalPatchSha256
    log.countP fun event =>
      event.evalImageId == expected.evalImageId &&
      (evalSpecSha256.isEmpty || event.evalSpecSha256 == evalSpecSha256) &&
      patchShaMatches
        (if event.evalPatchSha256.isEmpty then event.patchSha256 else event.evalPatchSha256)
        evalPatchSha256 &&
      (!event.evalPatchSha256.isEmpty || patchShaMatches event.patchSha256 candidate.patchSha256) &&
      (candidate.recordId.isEmpty || event.recordId == candidate.recordId)

/-- Where an invocation is. -/
inductive AttemptPlace where
  | selecting
  | counting
  /-- The loop begins an iteration, the first one or a later one. -/
  | beginning (first : Bool)
  /-- `eval_for_task_once` validates the patch. -/
  | validating
  | preparing (selection : EvalSelection)
  /-- A stale container is to be cleaned up. -/
  | sweeping (selection : EvalSelection)
  /-- The attempt is to be recorded. -/
  | recording (selection : EvalSelection)
  /-- The container is to be started. -/
  | spawning (selection : EvalSelection)
  | waiting
  | returned (result : EvalResult)

/-- An invocation: the selection and what attempts are counted by, the results so far and the
iterations that the loop has left. -/
structure EvalCall where
  candidate : EvalCandidate
  selection : Option EvalSelection
  expected : AttemptKey
  attempts : List EvalResult
  iterations : Nat
  place : AttemptPlace

/-- What `eval_for_task_with_retries` returns. -/
structure FinalEval where
  result : EvalResult
  attempts : List EvalResult
  attemptCount : Nat
  retryBudgetExhausted : Bool := false

/-- A task directory and the runner that is at work there: the recorded attempts, the identities of
the containers that were started, whether a container marker is left, the invocation and what the last
one returned. -/
structure EvalState where
  log : List AttemptEvent
  started : List AttemptIdentity
  marker : Bool
  call : Option EvalCall
  final : Option FinalEval

/-- A task directory before the first of some invocations. -/
def EvalState.init (log : List AttemptEvent) (marker : Bool) : EvalState :=
  ⟨log, [], marker, none, none⟩

/-- The steps of an invocation, and a crash. -/
inductive EvalAction where
  /-- An invocation finds a candidate, or generation is not done. -/
  | invoke (candidate : Option EvalCandidate)
  /-- `prepare_eval_patch_selection` and the image answer. -/
  | select (prepared : EvalSelection) (answer : ImageAnswer)
  /-- The attempts are counted; the saved summary may be an evaluation of the candidate. -/
  | count (summaryMatches : Bool)
  | begin (prepared : EvalSelection) (answer : ImageAnswer)
  | validate (prepared : EvalSelection) (answer : ImageAnswer) (expectationValid : Bool)
  /-- The saved summary is looked at and the runtime is prepared. -/
  | prepare (summaryMatches : Bool) (unprepared : Option EvalStatus)
  | sweep (cleaned : Bool)
  | record
  /-- The container is started, or it is not and its marker is cleared or kept. -/
  | spawn (ok cleared : Bool)
  /-- The container could not be bound. -/
  | bindingFailed (quiesced cleaned : Bool)
  | ended (technical quiesced cleaned : Bool)
  | conclude
  | crash

namespace EvalState

/-- An invocation moves on. -/
def goTo (s : EvalState) (call : EvalCall) (place : AttemptPlace) : EvalState :=
  { s with call := some { call with place := place } }

/-- An invocation returns. -/
def endCall (s : EvalState) (final : FinalEval) : EvalState :=
  { s with call := none, final := some final }

/-- A result that no container was started for. -/
def refuse (s : EvalState) (call : EvalCall) (status : EvalStatus) : EvalState :=
  s.goTo call (.returned { status := status, executed := some false })

variable (maxEvalAttempts : Nat) (dryRun : Bool)

/-- `validated_eval_patch` for a selection. It changes the selection of the caller in place. -/
def validateSelection (s : EvalState) (call : EvalCall) (selection : EvalSelection)
    (answer : ImageAnswer) (expectationValid : Bool) (own : Bool) : EvalState :=
  if !isLowerSha256 selection.evalSpecSha256 ||
      selection.evalSpecSha256 != call.candidate.evalSpecSha256 then
    s.refuse call .technicalEvalFailed
  else
    let bound := bindEvalImage selection answer
    let valid :=
      if bound.ok && !expectationValid then { bound with ok := false, missingImage := false } else bound
    let call := if own then call else { call with selection := some valid }
    if !valid.ok then
      s.refuse call (if valid.missingImage then .blockedMissingEvalImage else .technicalEvalFailed)
    else if valid.modelPatch.strip.isEmpty then s.refuse call .emptyEvalPatchInvalid
    else s.goTo call (.preparing valid)

/-- What the loop does with the result of an iteration. -/
def conclude (s : EvalState) (call : EvalCall) (result : EvalResult) : EvalState :=
  let attempts := call.attempts ++ [result]
  let current := evalAttemptCount env s.log call.candidate call.expected
  let final : FinalEval := { result := result, attempts := attempts, attemptCount := current }
  if !result.status.isRetry || result.executed == some false || !result.cleanupSafe ||
      decide (maxEvalAttempts ≤ current) || decide (call.iterations ≤ 1) then
    s.endCall final
  else
    { s with
      call := some { call with
        attempts := attempts
        iterations := call.iterations - 1
        place := .beginning false } }

/-- One step of an invocation from the place where it is. -/
def stepCall (s : EvalState) (call : EvalCall) : AttemptPlace → EvalAction → Option EvalState
  | .selecting, .select prepared answer =>
    let selection := verifiedPlanPatchSelection call.candidate prepared answer
    let expected := selection.elim ⟨[], [], []⟩ (·.key env)
    some (s.goTo { call with selection := selection, expected := expected } .counting)
  | .counting, .count summaryMatches =>
    let persisted := evalAttemptCount env s.log call.candidate call.expected
    if maxEvalAttempts ≤ persisted then
      some (s.endCall {
        result := { status := if summaryMatches then .evalDone else .technicalEvalFailed
                    executed := some false }
        attempts := []
        attemptCount := persisted
        retryBudgetExhausted := !summaryMatches })
    else some (s.goTo { call with iterations := maxEvalAttempts - persisted } (.beginning true))
  | .beginning first, .begin prepared answer =>
    let selection :=
      if call.selection.all fun selection => !first && !selection.ok then
        verifiedPlanPatchSelection call.candidate prepared answer
      else call.selection
    let expected := (selection.filter (·.ok)).elim call.expected (·.key env)
    some (s.goTo { call with selection := selection, expected := expected } .validating)
  | .validating, .validate prepared answer expectationValid =>
    if call.candidate.missingSpec then
      some (s.goTo call (.returned { status := .blockedMissingEvalSpec }))
    else if !call.candidate.planVerified then some (s.refuse call .technicalEvalFailed)
    else
      match call.selection with
      | some selection => some (s.validateSelection call selection answer expectationValid false)
      | none =>
        let selection := { prepared with evalSpecSha256 := call.candidate.evalSpecSha256 }
        some (s.validateSelection call selection answer expectationValid true)
  | .preparing selection, .prepare summaryMatches unprepared =>
    if summaryMatches then some (s.goTo call (.returned { status := .evalDone }))
    else if dryRun then some (s.refuse call .wouldEval)
    else
      match unprepared with
      | some status => some (s.refuse call status)
      | none => some (s.goTo call (.sweeping selection))
  | .sweeping selection, .sweep cleaned =>
    if s.marker && !cleaned then
      some (s.goTo call (.returned {
        status := .technicalEvalFailed, summary := some { containerCleanup := some false } }))
    else some ({ s with marker := true }.goTo call (.recording selection))
  | .recording selection, .record =>
    let event : AttemptEvent :=
      ⟨call.candidate.recordId, call.candidate.patchSha256, patchSha env selection.modelPatch,
        call.candidate.evalSpecSha256, selection.imageId⟩
    some ({ s with log := s.log ++ [event] }.goTo call (.spawning selection))
  | .spawning selection, .spawn ok cleared =>
    if ok then
      let identity := selection.identity env call.candidate
      some ({ s with started := s.started ++ [identity] }.goTo call .waiting)
    else
      some ({ s with marker := !cleared }.goTo call (.returned {
        status := .technicalEvalFailed
        executed := some true
        summary := some { containerCleanup := some cleared, cleanupQuiesced := some true } }))
  | .waiting, .bindingFailed quiesced cleaned =>
    some ({ s with marker := !cleaned }.goTo call (.returned {
      status := .technicalEvalFailed
      summary := some { containerCleanup := some cleaned, cleanupQuiesced := some quiesced } }))
  | .waiting, .ended technical quiesced cleaned =>
    some ({ s with marker := !cleaned }.goTo call (.returned {
      status := if technical then .technicalEvalFailed else .evalDone
      executed := some true
      summary := some { containerCleanup := some cleaned, cleanupQuiesced := some quiesced } }))
  | .returned result, .conclude => some (s.conclude env maxEvalAttempts call result)
  | _, _ => none

/-- One step of the runner. -/
def step (s : EvalState) (action : EvalAction) : Option EvalState :=
  match action, s.call with
  | .invoke none, none =>
    some (s.endCall { result := { status := .generationNotReady }, attempts := [], attemptCount := 0 })
  | .invoke (some candidate), none =>
    some { s with call := some ⟨candidate, none, ⟨[], [], []⟩, [], 0, .selecting⟩ }
  | .crash, some _ => some { s with call := none }
  | action, some call => s.stepCall env maxEvalAttempts dryRun call call.place action
  | _, none => none

/-- The steps of a list, one after the other. -/
def run (s : EvalState) (actions : List EvalAction) : Option EvalState :=
  actions.foldlM (fun s action => s.step env maxEvalAttempts dryRun action) s

end EvalState

end Model

end OpenCollabEval
