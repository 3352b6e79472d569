import OpenCollabEval.Python.Text

/-!
# Paid starts of a generator

`generation_for_task` for one task, as a machine that takes one step at a time. A round reads the saved
pair, checks it, the start budget and the image, records the start, starts the generator process and
reads the pair again when the process has ended. The runner can crash between any two steps. A
generator is started in a session of its own, so that it outlives a runner that crashes, and a
generator that is alive can save a pair at any time.

What the records say of a saved prediction and metric is a table of readers under the names of the
source, which the machine takes as it is.
-/

open Python

namespace OpenCollabEval

/-- The `status` of a result of `generation_for_task_once`. -/
inductive GenerationStatus where
  | generationDone | generationCandidateCaptured | emptyPatch | intrinsicUnresolved
  | technicalGenerationAdapterOrApiFailure
  | technicalGenerationImageIdentityFailed | technicalGenerationBaseIdentityFailed
  | technicalGenerationPatchFilterFailed
  | technicalGenerationProviderFailed | technicalGenerationProviderEvidenceInvalid
  | skippedNoGenerationPatch | technicalGenerationIdentityFailed | technicalGenerationEvidenceInvalid
  | generationStartLimitReached | blockedMissingGenerationImage
  | blockedBadGenerationWorkdir | blockedMissingOpenhandsCommand | wouldGenerate
  | technicalGenerationFailureRecordUnsafe | generationStartFailed | technicalGenerationCleanupFailed
  | fifoWriteFailed | generationTimeout | generationFailed
  deriving DecidableEq

/-- The statuses in `GENERATION_RETRY_STATUSES`. -/
def GenerationStatus.isRetry : GenerationStatus → Bool
  | .fifoWriteFailed | .generationFailed | .generationTimeout => true
  | _ => false

/-- What `generation_for_task` reads of a result: its status and whether `oc_failure` is `True`. -/
structure GenerationResult where
  status : GenerationStatus
  ocFailure : Bool := false

/-- The values of `historical_generation_identity_status`. -/
inductive ArtifactIdentity where
  | invalid | legacyUnknown | verified | legacyVerified | interruptedVerified
  deriving DecidableEq

/-- The results of `terminal_generation_result`. -/
inductive TerminalOutcome where
  | adapterOrApiFailure
  | intrinsicUnresolved (ocFailure : Bool)

/-- The result that `terminal_generation_result` gives for an outcome. -/
def TerminalOutcome.result : TerminalOutcome → GenerationResult
  | .adapterOrApiFailure => ⟨.technicalGenerationAdapterOrApiFailure, false⟩
  | .intrinsicUnresolved ocFailure => ⟨.intrinsicUnresolved, ocFailure⟩

/-- The results of `_generation_provider_failure_result`. -/
inductive ProviderFailure where
  | failed | evidenceInvalid

/-- The result that `terminal_provider_failure_result` builds. -/
def ProviderFailure.result : ProviderFailure → GenerationResult
  | .failed => { status := .technicalGenerationProviderFailed }
  | .evidenceInvalid => { status := .technicalGenerationProviderEvidenceInvalid }

/-- The results of `generation_readiness_failure`. -/
inductive ReadinessFailure where
  | noPatch | identity | evidence

/-- The result that `generation_readiness_failure` builds. -/
def ReadinessFailure.result : ReadinessFailure → GenerationResult
  | .noPatch => { status := .skippedNoGenerationPatch }
  | .identity => { status := .technicalGenerationIdentityFailed }
  | .evidence => { status := .technicalGenerationEvidenceInvalid }

/-- What `prepare_eval_patch_selection` returns. -/
structure PatchSelection where
  ok : Bool
  modelPatch : Str

/-- The configuration of a runner for one task, and what the records say of a saved pair. A gitlink
probe of the image takes part in the selection of the evaluation patch. -/
structure GenerationRunner (Pair Probe : Type) where
  evalOnly : Bool
  dryRun : Bool
  /-- The workflow is `openhands-external` and there is no command for it. -/
  missingOpenhandsCommand : Bool
  maxTaskStarts : Nat
  maxEmptyPatchRetries : Nat
  /-- `generation_done`, with and without `require_identity`. -/
  generationDone : Bool → Pair → Bool
  identityStatus : Pair → ArtifactIdentity
  /-- The metric is a dictionary. -/
  hasMetric : Pair → Bool
  terminalGenerationResult : Pair → Option TerminalOutcome
  baseCommitMatches : Pair → Bool
  generationImageId : Pair → Option Str
  providerFailure : Pair → Str → Option ProviderFailure
  prepareEvalPatchSelection : Pair → Probe → PatchSelection
  /-- The `recovery_kind` of the metric is `failed_quiesced_capture`. -/
  isRecoveredCapture : Pair → Bool
  /-- The workflow status of the metric is `empty_patch_after_done`. -/
  emptyAfterDone : Pair → Bool
  recordId : Pair → Str
  identityMatches : Pair → Bool
  /-- The `oc_failure` of `generation_outcome_evidence` is `True`. -/
  ocFailure : Pair → Bool
  readinessFailure : Pair → ReadinessFailure

variable {Pair Probe : Type}

namespace GenerationRunner

variable (c : GenerationRunner Pair Probe)

/-- Whether `generation_for_task_once` takes a saved pair for a finished generation. -/
def done (p : Pair) : Bool := c.generationDone (!c.evalOnly) p

def generationDoneResult (p : Pair) : GenerationResult :=
  ⟨if c.isRecoveredCapture p then .generationCandidateCaptured else .generationDone, c.ocFailure p⟩

def emptyPatchResult (p : Pair) : GenerationResult := ⟨.emptyPatch, c.ocFailure p⟩

def generationPatchResult (p : Pair) (image : Str) (probe : Probe) : GenerationResult :=
  if !image.isEmpty && c.generationImageId p != some image then
    { status := .technicalGenerationImageIdentityFailed }
  else if !c.baseCommitMatches p then { status := .technicalGenerationBaseIdentityFailed }
  else
    let selection := c.prepareEvalPatchSelection p probe
    if !selection.ok then { status := .technicalGenerationPatchFilterFailed }
    else if selection.modelPatch.strip.isEmpty then { status := .emptyPatch }
    else c.generationDoneResult p

/-- The saved pair is an empty patch of this run from the expected image. -/
def isSavedEmptyPatch (p : Pair) (image : Str) : Bool :=
  c.emptyAfterDone p && !(c.recordId p).isEmpty && c.identityMatches p && c.baseCommitMatches p &&
    c.generationImageId p == some image

/-- What a round returns before it looks at the image. -/
def resultBeforeImage (p : Pair) (startCount : Nat) : Option GenerationResult :=
  if c.done p then none
  else
    match c.terminalGenerationResult p with
    | some terminal =>
      if c.baseCommitMatches p then some terminal.result
      else some { terminal.result with status := .technicalGenerationBaseIdentityFailed }
    | none =>
      if !c.hasMetric p && decide (c.maxTaskStarts ≤ startCount) then
        some { status := .generationStartLimitReached }
      else none

/-- What a round returns for a saved pair that it does not use, once the image is there. -/
def resultOfSpentBudget (startCount : Nat) : Option GenerationResult :=
  if c.maxTaskStarts ≤ startCount then some { status := .generationStartLimitReached } else none

/-- What a round returns for an empty patch that was saved earlier. -/
def resultOfEmptyPatch (p : Pair) (image : Str) (reuse : Bool) (startCount : Nat) :
    Option GenerationResult :=
  if reuse && c.isSavedEmptyPatch p image then some (c.emptyPatchResult p)
  else c.resultOfSpentBudget startCount

/-- What a round returns for the saved pair once the image is there. -/
def resultOfSaved (p : Pair) (image : Str) (probe : Probe) (reuse : Bool) (startCount : Nat) :
    Option GenerationResult :=
  if !c.done p && decide (c.maxTaskStarts ≤ startCount) then
    some { status := .generationStartLimitReached }
  else if c.done p && c.baseCommitMatches p then
    let result := c.generationPatchResult p image probe
    if result.status ≠ .emptyPatch || reuse then some result
    else c.resultOfEmptyPatch p image reuse startCount
  else c.resultOfEmptyPatch p image reuse startCount

/-- What a round returns once the image is there: `none` when it goes on to start a generator. -/
def resultWithImage (p : Pair) (image : Str) (probe : Probe) (reuse : Bool) (startCount : Nat) :
    Option GenerationResult :=
  match c.providerFailure p image with
  | some failure =>
    if c.evalOnly && c.identityStatus p == .interruptedVerified then
      c.resultOfSaved p image probe reuse startCount
    else some failure.result
  | none => c.resultOfSaved p image probe reuse startCount

/-- What a dry run returns in place of a start. -/
def dryRunResult (workdirOk : Bool) : GenerationResult :=
  if !workdirOk then { status := .blockedBadGenerationWorkdir }
  else if c.missingOpenhandsCommand then { status := .blockedMissingOpenhandsCommand }
  else { status := .wouldGenerate }

/-- `_fresh_historical_generation_completed` -/
def freshHistoricalGenerationCompleted (p : Pair) (previous : Str) (returncode : Int) : Bool :=
  returncode == 0 && !(c.recordId p).isEmpty && c.recordId p != previous &&
    c.identityStatus p == .verified

/-- What a round returns when its generator has exited. -/
def resultOfExit (p : Pair) (image : Str) (probe : Probe) (previous : Str) (returncode : Int) :
    GenerationResult :=
  match c.providerFailure p image with
  | some failure => failure.result
  | none =>
    if !c.done p && c.freshHistoricalGenerationCompleted p previous returncode then
      (c.readinessFailure p).result
    else if c.done p then c.generationPatchResult p image probe
    else if c.isSavedEmptyPatch p image && c.recordId p != previous then c.emptyPatchResult p
    else
      match c.terminalGenerationResult p with
      | some terminal => terminal.result
      | none => { status := .generationFailed }

/-- What a round returns when its generator ran too long. -/
def resultOfTimeout (p : Pair) (image : Str) (probe : Probe) : GenerationResult :=
  if c.generationDone true p then c.generationPatchResult p image probe
  else { status := .generationTimeout }

end GenerationRunner

/-- How the wait for a generator ends. -/
inductive GeneratorEnd where
  /-- The token could not be written, and the process group was terminated. -/
  | fifoFailed
  /-- Processes of the group are left. -/
  | notQuiesced
  | timedOut
  | exited (returncode : Int)

/-- Where a round of `generation_for_task_once` is. -/
inductive RoundPlace (Pair Probe : Type) where
  | looking
  | checked (read : Pair)
  /-- Nothing keeps the round from a start: `clear_generation_failure_record` is next. -/
  | admitted (read : Pair) (image : Str) (probe : Probe)
  /-- `write_start_state` is next. -/
  | cleared (read : Pair) (image : Str) (probe : Probe)
  /-- `Popen` is next. -/
  | counted (read : Pair) (image : Str) (probe : Probe)
  | running (read : Pair) (image : Str)
  | returned (result : GenerationResult)

/-- The pair that a round has read and not yet acted on, with its gitlink probe once there is one. -/
def RoundPlace.read? : RoundPlace Pair Probe → Option Pair
  | .checked p | .admitted p _ _ | .cleared p _ _ | .counted p _ _ => some p
  | _ => none

/-- An invocation of `generation_for_task`: the results of its rounds so far, and its round, which
may be a retry of an empty patch. -/
structure GenerationCall (Pair Probe : Type) where
  attempts : List GenerationResult
  forceNewGeneration : Bool
  place : RoundPlace Pair Probe

/-- What `generation_for_task` returns. -/
structure FinalGeneration where
  result : GenerationResult
  attempts : List GenerationResult
  emptyPatchRetryCount : Nat

/-- The run directory of a task and the runner that is at work there: the saved pair, the recorded
starts, the retry events, the processes that were started, those of them that outlived their
invocation, the invocation and what the last one returned. -/
structure GenerationState (Pair Probe : Type) where
  saved : Pair
  startCount : Nat
  retryEvents : Nat
  started : Nat
  leftover : Nat
  call : Option (GenerationCall Pair Probe)
  final : Option FinalGeneration

/-- A run directory in which nothing was started. -/
def GenerationState.init (saved : Pair) : GenerationState Pair Probe :=
  ⟨saved, 0, 0, 0, 0, none, none⟩

/-- The steps of the runner, its crash, and what generators do that are alive. -/
inductive GenerationAction (Pair Probe : Type) where
  | invoke
  | look
  /-- `ensure_image` answers; a dry run also looks at the work directory of the image. -/
  | ensureImage (imageId : Option Str) (probe : Probe) (workdirOk : Bool)
  | clearRecord (regular : Bool)
  | writeStart
  | spawn (ok : Bool)
  | finish (ending : GeneratorEnd) (probe : Probe)
  | settle
  | crash
  /-- A generator saves a pair. -/
  | save (p : Pair)
  /-- A generator ends that outlived its invocation. -/
  | expire

/-- The steps that an invocation takes. -/
def GenerationAction.isRunner : GenerationAction Pair Probe → Bool
  | .invoke | .crash | .save _ | .expire => false
  | _ => true

namespace GenerationState

variable (c : GenerationRunner Pair Probe)

/-- The round of an invocation moves on. -/
def goTo (s : GenerationState Pair Probe) (call : GenerationCall Pair Probe)
    (place : RoundPlace Pair Probe) : GenerationState Pair Probe :=
  { s with call := some { call with place := place } }

/-- A round returns, or moves on. -/
def returnOr (s : GenerationState Pair Probe) (call : GenerationCall Pair Probe)
    (result : Option GenerationResult) (place : RoundPlace Pair Probe) : GenerationState Pair Probe :=
  s.goTo call (result.elim place .returned)

/-- The generator of the invocation is alive. -/
def isRunning (s : GenerationState Pair Probe) : Bool :=
  match s.call with
  | some ⟨_, _, .running _ _⟩ => true
  | _ => false

/-- Whether a generator is alive that can save a pair. -/
def anyAlive (s : GenerationState Pair Probe) : Bool := s.isRunning || decide (0 < s.leftover)

/-- `generation_for_task` returns the last of its results. -/
def endCall (s : GenerationState Pair Probe) (attempts : List GenerationResult)
    (result : GenerationResult) : GenerationState Pair Probe :=
  { s with call := none, final := some ⟨result, attempts, s.retryEvents⟩ }

/-- What `generation_for_task` does with the result of a round. -/
def settle (s : GenerationState Pair Probe) (call : GenerationCall Pair Probe)
    (result : GenerationResult) : GenerationState Pair Probe :=
  let attempts := call.attempts ++ [result]
  if result.status = .generationDone ∨ result.status = .generationCandidateCaptured then
    s.endCall attempts result
  else if call.forceNewGeneration then s.endCall attempts result
  else if result.status = .emptyPatch then
    if result.ocFailure then s.endCall attempts result
    else if c.maxEmptyPatchRetries ≤ s.retryEvents then s.endCall attempts result
    else if c.maxTaskStarts ≤ s.startCount then s.endCall attempts result
    else { s with retryEvents := s.retryEvents + 1, call := some ⟨attempts, true, .looking⟩ }
  else if !result.status.isRetry then s.endCall attempts result
  else if c.maxTaskStarts ≤ s.startCount then s.endCall attempts result
  else { s with call := some ⟨attempts, false, .looking⟩ }

/-- A round learns how its generator ended. A group that is not quiet outlives the invocation. -/
def finish (s : GenerationState Pair Probe) (call : GenerationCall Pair Probe) (read : Pair)
    (image : Str) (probe : Probe) : GeneratorEnd → GenerationState Pair Probe
  | .fifoFailed => s.goTo call (.returned { status := .fifoWriteFailed })
  | .notQuiesced =>
    { s with leftover := s.leftover + 1 }.goTo call
      (.returned { status := .technicalGenerationCleanupFailed })
  | .timedOut => s.goTo call (.returned (c.resultOfTimeout s.saved image probe))
  | .exited returncode =>
    s.goTo call (.returned (c.resultOfExit s.saved image probe (c.recordId read) returncode))

/-- One step of the invocation from the place of its round. -/
def stepCall (s : GenerationState Pair Probe) (call : GenerationCall Pair Probe) :
    RoundPlace Pair Probe → GenerationAction Pair Probe → Option (GenerationState Pair Probe)
  | .looking, .look =>
    some (s.returnOr call (c.resultBeforeImage s.saved s.startCount) (.checked s.saved))
  | .checked _, .ensureImage none _ _ =>
    some (s.goTo call (.returned { status := .blockedMissingGenerationImage }))
  | .checked read, .ensureImage (some image) probe workdirOk =>
    match c.resultWithImage read image probe (!call.forceNewGeneration) s.startCount with
    | some result => some (s.goTo call (.returned result))
    | none =>
      if c.dryRun then some (s.goTo call (.returned (c.dryRunResult workdirOk)))
      else some (s.goTo call (.admitted read image probe))
  | .admitted read image probe, .clearRecord regular =>
    if regular then some (s.goTo call (.cleared read image probe))
    else some (s.goTo call (.returned { status := .technicalGenerationFailureRecordUnsafe }))
  | .cleared read image probe, .writeStart =>
    some ({ s with startCount := s.startCount + 1 }.goTo call (.counted read image probe))
  | .counted read image _, .spawn ok =>
    if ok then some ({ s with started := s.started + 1 }.goTo call (.running read image))
    else some (s.goTo call (.returned { status := .generationStartFailed }))
  | .running read image, .finish ending probe => some (s.finish c call read image probe ending)
  | .returned result, .settle => some (s.settle c call result)
  | _, _ => none

/-- One step of the runner, or of a generator. -/
def step (s : GenerationState Pair Probe) (action : GenerationAction Pair Probe) :
    Option (GenerationState Pair Probe) :=
  match action, s.call with
  | .invoke, none => some { s with call := some ⟨[], false, .looking⟩ }
  | .crash, some _ =>
    some { s with call := none, leftover := if s.isRunning then s.leftover + 1 else s.leftover }
  | .save p, _ => if s.anyAlive then some { s with saved := p } else none
  | .expire, _ => if 0 < s.leftover then some { s with leftover := s.leftover - 1 } else none
  | action, some call => s.stepCall c call call.place action
  | _, none => none

/-- The steps of a list, one after the other. -/
def run (s : GenerationState Pair Probe) (actions : List (GenerationAction Pair Probe)) :
    Option (GenerationState Pair Probe) :=
  actions.foldlM (fun s action => s.step c action) s

end GenerationState

end OpenCollabEval
