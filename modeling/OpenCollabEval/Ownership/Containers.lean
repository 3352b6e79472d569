import OpenCollabEval.Ownership.World
import OpenCollabEval.Python.Regex

/-!
# The life of a container

Starting, removing and keeping containers together with their owner records, as programs over the
operations that all processes share. The compatibility markers beside a run and the evidence of a
removal are operations that may raise and that nothing else reads.
-/

open Python Concurrency

namespace OpenCollabEval

/-- A program that may raise. -/
abbrev Call (α : Type) := ExceptT CallError (Program OwnerOp OwnerOp.Answer) α

/-- `try`: what a call returns or raises. -/
def outcomeOf {α : Type} (call : Call α) : Call (Except CallError α) := ExceptT.lift call.run

/-- `except Exception`: nothing when the call raises, unless it is interrupted. -/
def unlessRaised {α : Type} (call : Call α) : Call (Option α) := do
  match ← outcomeOf call with
  | .ok value => return some value
  | .error .interrupt => throw .interrupt
  | .error _ => return none

namespace Ask

/-- `_owner_directory(run_dir).glob("*.json")` -/
def ownerPaths : Call (List Str) := .mk (.perform OwnerOp.ownerPaths)

/-- `_read_owner` -/
def readOwner (path : Str) : Call (Option OwnerRecord) := .mk (.perform (OwnerOp.readOwner path))

/-- `_read_owner` before a look at the owner of some records. -/
def examineOwner (path : Str) (looks : OwnerRecord → Bool) : Call (Option OwnerRecord) :=
  .mk (.perform (OwnerOp.examineOwner path looks))

/-- Whether there is a record. -/
def lookUp (path : Str) : Call Bool := .mk (.perform (OwnerOp.lookUp path))

/-- `_create_pending_owner` -/
def createPendingOwner (name : Str) : Call OwnerRecord := .mk (.perform (OwnerOp.createPendingOwner name))

/-- `_atomic_create_bytes` of a record. -/
def createOwner (path : Str) (record : OwnerRecord) : Call Unit :=
  .mk (.perform (OwnerOp.createOwner path record))

/-- `_atomic_write_bytes` of a record. -/
def writeOwner (path : Str) (record : OwnerRecord) : Call Unit :=
  .mk (.perform (OwnerOp.writeOwner path record))

/-- The number and the record of an open file. -/
def openOwner (path : Str) : Call (Nat × OwnerRecord) := .mk (.perform (OwnerOp.openOwner path))

/-- `_path_matches_open_file` -/
def sameFile (path : Str) (inode : Nat) : Call Bool := .mk (.perform (OwnerOp.sameFile path inode))

/-- `path.unlink()` -/
def unlink (path : Str) : Call Unit := .mk (.perform (OwnerOp.unlink path))

/-- What the process table says about a number. -/
def process (pid : Int) : Call ProcessAnswer := .mk (.perform (OwnerOp.process pid))

/-- `_docker` -/
def docker (command : DockerCommand) : Call DockerResult := .mk (.perform (OwnerOp.docker command))

/-- Anything else that answers a flag. -/
def host : Call Bool := .mk (.perform OwnerOp.host)

end Ask

/-- Anything else that may raise. -/
def hostCall : Call Unit := do
  let _ ← Ask.host

/-- What Docker says about the owner label of a container. -/
inductive OwnerLabelState where
  | unknown
  | absent
  | foreign
  | matching
  deriving DecidableEq

/-- `_container_owner_label_state` after the command. -/
def DockerResult.labelState (result : DockerResult) (ownerToken : Str) : OwnerLabelState :=
  if result.returncode != 0 then if result.saysMissing then .absent else .unknown
  else
    let label := Str.strip result.stdout
    if label.isEmpty || List.contains label 10 || List.contains label 13 then .foreign
    else if label == ownerToken then .matching
    else .foreign

/-- `_container_owner_label_state` -/
def containerOwnerLabelState (reference ownerToken : Str) : Call OwnerLabelState := do
  match ← outcomeOf (Ask.docker (.inspectLabel reference)) with
  | .error _ => return .unknown
  | .ok result => return result.labelState ownerToken

/-- `_container_is_absent` -/
def containerIsAbsent (reference : Str) : Call Bool := do
  match ← unlessRaised (Ask.docker (.inspect reference)) with
  | none => return false
  | some result => return result.saysMissing

/-- `remove_container` -/
def removeContainer (reference : Str) : Call Bool := do
  -- the evidence of the removal
  let _ ← unlessRaised hostCall
  match ← unlessRaised (Ask.docker (.remove reference)) with
  | none => return false
  | some result =>
    if result.returncode != 0 && !result.saysMissing then return false
    else containerIsAbsent reference

/-- `_remove_labeled_container` -/
def removeLabeledContainer (reference ownerToken : Str) (foreignProvesAbsence : Bool) :
    Call Bool := do
  match ← containerOwnerLabelState reference ownerToken with
  | .absent => return true
  | .foreign => return foreignProvesAbsence
  | .unknown => return false
  | .matching => removeContainer reference

/-- `_require_creation_cleanup` -/
def requireCreationCleanup (reference ownerToken : Str) (foreignProvesAbsence : Bool) :
    Call Unit := do
  if ← removeLabeledContainer reference ownerToken foreignProvesAbsence then return ()
  else throw .exception

/-- `[0-9A-Fa-f]{12,64}` -/
def isContainerId (text : Str) : Bool :=
  12 ≤ text.length && text.length ≤ 64 && text.all fun c =>
    (48 ≤ c && c ≤ 57) || (65 ≤ c && c ≤ 70) || (97 ≤ c && c ≤ 102)

/-- The setup of the work directory in `start_container`. -/
def prepareWorkdir (id : Str) : Call Unit := do
  let result ← Ask.docker (.exec id)
  if result.returncode != 0 then throw .exception else return ()

/-- `start_container` -/
def startContainer (name ownerToken : Str) : Call Str := do
  -- the token, the size and the mount of the temporary directory
  hostCall
  match ← outcomeOf (Ask.docker (.run name ownerToken)) with
  | .error e =>
    requireCreationCleanup name ownerToken true
    throw e
  | .ok result =>
    let id := Str.strip result.stdout
    if result.returncode != 0 || !isContainerId id then
      requireCreationCleanup name ownerToken true
      throw .exception
    else
      match ← outcomeOf (prepareWorkdir id) with
      | .ok () => return id
      | .error e =>
        requireCreationCleanup id ownerToken false
        throw e

section Records

variable (ownerPath : Str → Str)

/-- `_replace_owner` -/
def replaceOwner (path : Str) (previous updated : OwnerRecord) : Call Unit := do
  match ← Ask.readOwner path with
  | none => throw .exception
  | some current =>
    if current.ownerToken != previous.ownerToken then throw .exception
    else if current != previous then
      if current == updated then return () else throw .exception
    else Ask.writeOwner path updated

/-- The part of `_unlink_owner` that takes the record away, which it returns. -/
def takeOwner (path : Str) : Call (Option OwnerRecord) := do
  let opened ← Ask.openOwner path
  if ← Ask.sameFile path opened.1 then
    Ask.unlink path
    return some opened.2
  else return none

/-- `_unlink_owner` -/
def unlinkOwner (path : Str) : Call Unit := do
  if ← Ask.lookUp path then
    match ← outcomeOf (takeOwner path) with
    | .error .osError => if ← Ask.lookUp path then throw .osError else return ()
    | .error e => throw e
    | .ok none => return ()
    | .ok (some record) =>
      -- the directory is synchronized
      match ← outcomeOf hostCall with
      | .ok () => return ()
      | .error e =>
        if ← Ask.lookUp path then throw e
        else
          let _ ← outcomeOf (Ask.createOwner path record)
          throw e
  else return ()

/-- `write_container_marker` -/
def writeContainerMarker (id name : Str) : Call Unit := do
  hostCall
  let previous ←
    match ← Ask.readOwner (ownerPath name) with
    | some record => pure record
    | none => Ask.createPendingOwner name
  if previous.containerName != name then throw .exception
  else
    replaceOwner (ownerPath name) previous { previous with state := .active, containerId := id }
    hostCall

/-- `_remove_owned_container` -/
def removeOwnedContainer (record : OwnerRecord) : Call Bool :=
  removeLabeledContainer
    (if record.containerId.isEmpty then record.containerName else record.containerId)
    record.ownerToken record.containerId.isEmpty

/-- `_owner_is_live` -/
def ownerIsLive (record : OwnerRecord) : Call Bool := do
  let answer ← Ask.process record.ownerPid
  if !record.ownerStartIdentity.isEmpty && !answer.identity.isEmpty then
    return answer.identity == record.ownerStartIdentity
  else return !answer.lookupFails

/-- A record whose container a recovery does not keep. -/
def OwnerRecord.isRetired (record : OwnerRecord) : Bool :=
  record.state != .preservationRequired && record.state != .kept

/-- One record of `recover_stale_container_owners`. -/
def recoverStaleOwner (path : Str) : Call Bool := do
  match ← Ask.examineOwner path (·.isRetired) with
  | none => return !(← Ask.lookUp path)
  | some record =>
    if record.state == .preservationRequired then return false
    else if record.state == .kept then return true
    else if ← ownerIsLive record then return true
    else if ← removeOwnedContainer record then
      hostCall
      unlinkOwner path
      return true
    else return false

/-- The loop of `recover_stale_container_owners`. -/
def recoverStaleOwners : List Str → Call Bool
  | [] => return true
  | path :: paths => do
    let recovered ← recoverStaleOwner path
    let others ← recoverStaleOwners paths
    return recovered && others

/-- `recover_stale_container_owners` -/
def recoverStaleContainerOwners : Call Bool := do
  recoverStaleOwners (← Ask.ownerPaths)

/-- The loop of `clear_container_marker`. -/
def clearOwners (id name : Str) : List Str → Call Unit
  | [] => return ()
  | path :: paths => do
    match ← Ask.readOwner path with
    | none => clearOwners id name paths
    | some record =>
      if (!id.isEmpty && record.containerId == id) || (!name.isEmpty && record.containerName == name)
      then
        unlinkOwner path
        clearOwners id name paths
      else clearOwners id name paths

/-- `clear_container_marker` -/
def clearContainerMarker (id name : Str) : Call Unit := do
  hostCall
  clearOwners id name (← Ask.ownerPaths)

/-- The loop of the two functions that mark a container. -/
def markOwners (state : OwnerState) (id : Str) : List Str → Call Unit
  | [] => throw .exception
  | path :: paths => do
    match ← Ask.readOwner path with
    | none => markOwners state id paths
    | some record =>
      if record.containerId != id then markOwners state id paths
      else replaceOwner path record { record with state := state }

/-- `mark_container_kept` -/
def markContainerKept (id : Str) : Call Unit := do markOwners .kept id (← Ask.ownerPaths)

/-- `mark_container_preservation_required` -/
def markContainerPreservationRequired (id : Str) : Call Unit := do
  markOwners .preservationRequired id (← Ask.ownerPaths)

/-- The record of a container, in `remove_container_and_clear_marker`. -/
def findOwner (id : Str) : List Str → Call (Option OwnerRecord)
  | [] => return none
  | path :: paths => do
    match ← Ask.readOwner path with
    | none => findOwner id paths
    | some record => if record.containerId == id then return some record else findOwner id paths

/-- `remove_container_and_clear_marker` -/
def removeContainerAndClearMarker (id : Str) : Call Bool := do
  match ← findOwner id (← Ask.ownerPaths) with
  | none => return false
  | some record =>
    if ← removeOwnedContainer record then
      clearContainerMarker id record.containerName
      return true
    else return false

/-- `finalize_container_ownership` -/
def finalizeContainerOwnership (id : Str) (keepContainer completed : Bool) : Call Unit := do
  if keepContainer && completed then
    match ← outcomeOf (markContainerKept id) with
    | .ok () => return ()
    | .error e => if ← removeContainerAndClearMarker id then throw e else throw .exception
  else if ← removeContainerAndClearMarker id then return ()
  else throw .exception

end Records

end OpenCollabEval
