import Mathlib.Logic.Relation
import OpenCollabEval.Records.DurableOnce

/-!
# Publication of staged candidates

A finished candidate is staged as a pending file and published from there: its prediction and its
metric are appended to their logs, then the file is removed. Any number of processes publish at the
same time, and each of them may be stopped between any two operations and within any append.

A call of `_append_jsonl_durable_once` holds the lock of its log, so that it is one step here; `cut`
says after how many bytes it was stopped. A publisher holds the lock of the pending file that it
opened, which other publishers may have removed meanwhile.
-/

open Python

namespace OpenCollabEval

/-- A pending output, as far as a publisher reads it. -/
structure PendingCandidate where
  containerId : Str
  containerName : Str
  ownerToken : Str
  predictionsPath : Str
  metricsPath : Str
  prediction : Obj
  metric : Obj

/-- What is at the path of a container's owner record. -/
inductive OwnerFile where
  | absent
  /-- `_read_owner` returns `None`. -/
  | invalid
  | owner (token state : Str)

/-- What `_pending_owner_state` tells. -/
inductive PendingOwnerState where
  | absent
  | kept
  | deferred

/-- `_pending_owner_state`; its `RuntimeError` counts as a `ValueError` here. -/
def pendingOwnerState (file : OwnerFile) (candidate : PendingCandidate) :
    Except PyErr PendingOwnerState :=
  match file with
  | .absent => .ok .absent
  | .invalid => .error .valueError
  | .owner token state =>
    if token != candidate.ownerToken then .error .valueError
    else if state == "kept" then .ok .kept
    else .ok .deferred

/-- `PENDING_OUTPUT_SCHEMA_VERSION` -/
def pendingOutputSchemaVersion : Int := 1

/-- A field that must be text and not empty. -/
def pendingText (candidate : Obj) (key : String) : Except PyErr Str :=
  match candidate.get key with
  | .str value => if value.isEmpty then .error .valueError else .ok value
  | _ => .error .valueError

section Read

variable (host : LogHost)

/-- `_validate_pending_candidate` without the look at the two targets. -/
def validatePendingCandidate (candidate : Obj) : Except PyErr PendingCandidate := do
  ensure ((candidate.get "schema_version").pyEq (.int pendingOutputSchemaVersion))
  match candidate.get "prediction", candidate.get "metric" with
  | .dict prediction, .dict metric =>
    let identity := rowOutputIdentity host prediction
    ensure (!identity.1.isEmpty && !identity.2.1.isEmpty)
    ensure (identity == rowOutputIdentity host metric)
    let patch := host.strOrEmpty (Obj.get prediction "model_patch")
    ensure (identity.2.2 == host.sha256 patch.encodeSurrogatePass)
    match Obj.get prediction "workflow_metric" with
    | .dict embedded => ensure ((Json.dict embedded).pyEq (.dict metric))
    | _ => throw .valueError
    match Obj.get metric "runner_returncode" with
    | .int _ => pure ()
    | _ => throw .valueError
    let predictionsPath ← pendingText candidate "predictions_path"
    let metricsPath ← pendingText candidate "metrics_path"
    let containerId ← pendingText candidate "container_id"
    let containerName ← pendingText candidate "container_name"
    let ownerToken ← pendingText candidate "owner_token"
    ensure (Str.startsWith predictionsPath "/" && Str.startsWith metricsPath "/")
    return { containerId, containerName, ownerToken, predictionsPath, metricsPath, prediction,
             metric }
  | _, _ => throw .valueError

/-- `_read_pending_fd` -/
def readPending (content : List Nat) : Except PyErr PendingCandidate :=
  if content.isEmpty || maxFileBytes < content.length then .error .valueError
  else
    match loadsUtf8 host content with
    | .error .jsonDecodeError => .error .valueError
    | .error e => .error e
    | .ok (.dict candidate) => validatePendingCandidate host candidate
    | .ok _ => .error .valueError

end Read

/-- Where a publisher stands; `serial` is that of the file that it opened. -/
inductive PublisherPhase where
  | idle
  | opened (path : Str) (serial : Nat)
  | locked (path : Str) (serial : Nat)
  | predicting (path : Str) (serial : Nat) (candidate : PendingCandidate)
  | measuring (path : Str) (serial : Nat) (candidate : PendingCandidate)
  | removing (path : Str) (serial : Nat) (candidate : PendingCandidate)
  /-- The file was removed, but its removal may be lost. -/
  | restoring (path : Str) (serial : Nat)

/-- What becomes of the removal of a pending file. -/
inductive PendingRemoval where
  | failed
  | durable
  | undurable

/-- The pending files with their contents, the logs, and the publishers with their locks. -/
structure PublicationState where
  pending : Str → Option Nat
  /-- What was written to each file that there has been; no file is written to again. -/
  contents : Nat → List Nat
  serials : Nat
  logs : Str → List Nat
  publishers : Nat → PublisherPhase
  /-- Which publisher locks a pending file. -/
  locks : Nat → Option Nat

/-- What happens next. -/
inductive PublicationAction where
  /-- A pending file is created. -/
  | stage (path : Str) (content : List Nat)
  /-- A process begins to publish a pending file. -/
  | publish (publisher : Nat) (path : Str)
  | lock (publisher : Nat)
  | check (publisher : Nat) (owner : OwnerFile)
  | append (publisher : Nat) (cut : Option Nat)
  | remove (publisher : Nat) (removal : PendingRemoval)
  | restore (publisher : Nat) (created : Bool)
  /-- A publisher is stopped, or an operation of it raises. -/
  | stop (publisher : Nat)

namespace PublicationState

variable (s : PublicationState)

/-- A publisher goes on. -/
def enter (publisher : Nat) (phase : PublisherPhase) : PublicationState :=
  { s with publishers := Function.update s.publishers publisher phase }

/-- A publisher is done, and its lock is gone. -/
def finish (publisher : Nat) : PublicationState :=
  { s.enter publisher .idle with
    locks := fun serial => if s.locks serial = some publisher then none else s.locks serial }

/-- A new file gets the name of a pending output. -/
def create (path : Str) (content : List Nat) : PublicationState :=
  { s with
    pending := Function.update s.pending path (some s.serials)
    contents := Function.update s.contents s.serials content
    serials := s.serials + 1 }

/-- A publisher goes on when its append completes. -/
def appendRow (host : LogHost) (publisher : Nat) (path : Str) (row : Obj) (cut : Option Nat)
    (next : PublisherPhase) : PublicationState :=
  let appended := appendedOnce host (s.logs path) row cut
  let s' := { s with logs := Function.update s.logs path appended.1 }
  if appended.2 then s'.enter publisher next else s'.finish publisher

/-- The look at the path of a locked file, and the check of the candidate and its owner. -/
def checkCandidate (host : LogHost) (publisher : Nat) (path : Str) (serial : Nat)
    (owner : OwnerFile) : PublicationState :=
  if s.pending path != some serial then s.finish publisher
  else
    match readPending host (s.contents serial) with
    | .error _ => s.finish publisher
    | .ok candidate =>
      match pendingOwnerState owner candidate with
      | .ok .absent | .ok .kept => s.enter publisher (.predicting path serial candidate)
      | .ok .deferred | .error _ => s.finish publisher

/-- `_unlink_pending_locked` up to the removal. -/
def removePending (publisher : Nat) (path : Str) (serial : Nat) (removal : PendingRemoval) :
    PublicationState :=
  if s.pending path != some serial then s.finish publisher
  else
    let removed := { s with pending := Function.update s.pending path none }
    match removal with
    | .failed => s.finish publisher
    | .durable => removed.finish publisher
    | .undurable => removed.enter publisher (.restoring path serial)

/-- One step: `none` when the action is not possible. -/
def step (host : LogHost) : PublicationAction → Option PublicationState
  | .stage path content => if (s.pending path).isNone then some (s.create path content) else none
  | .publish publisher path =>
    match s.publishers publisher with
    | .idle =>
      match s.pending path with
      | none => some s
      | some serial => some (s.enter publisher (.opened path serial))
    | _ => none
  | .lock publisher =>
    match s.publishers publisher with
    | .opened path serial =>
      if (s.locks serial).isNone then
        some { s.enter publisher (.locked path serial) with
          locks := Function.update s.locks serial (some publisher) }
      else none
    | _ => none
  | .check publisher owner =>
    match s.publishers publisher with
    | .locked path serial => some (s.checkCandidate host publisher path serial owner)
    | _ => none
  | .append publisher cut =>
    match s.publishers publisher with
    | .predicting path serial candidate =>
      some (s.appendRow host publisher candidate.predictionsPath candidate.prediction cut
        (.measuring path serial candidate))
    | .measuring path serial candidate =>
      some (s.appendRow host publisher candidate.metricsPath candidate.metric cut
        (.removing path serial candidate))
    | _ => none
  | .remove publisher removal =>
    match s.publishers publisher with
    | .removing path serial _ => some (s.removePending publisher path serial removal)
    | _ => none
  | .restore publisher created =>
    match s.publishers publisher with
    | .restoring path serial =>
      if created && (s.pending path).isNone then
        some ((s.create path (s.contents serial)).finish publisher)
      else some (s.finish publisher)
    | _ => none
  | .stop publisher => some (s.finish publisher)

end PublicationState

/-- Some action leads from one state to the next. -/
def PublicationStep (host : LogHost) (s s' : PublicationState) : Prop :=
  ∃ action, s.step host action = some s'

end OpenCollabEval
