import OpenCollabEval.Ownership.Containers

/-!
# Attempts and recoveries

A single-agent attempt from the start of its container to its end, with the retention of a candidate
that could not be staged; the recovery that every start begins with; and what a batch supervisor does
with the containers of a generator that has exited.
-/

open Python Concurrency

namespace OpenCollabEval

namespace Ask

/-- The pending outputs of a run. -/
def pendingPaths : Call (List Str) := .mk (.perform OwnerOp.pendingPaths)

/-- A pending output that can be read. -/
def readPending (path : Str) : Call PendingOwner := .mk (.perform (OwnerOp.readPending path))

/-- `_atomic_create_bytes` of a pending output. -/
def createPending (candidate : PendingOwner) : Call Unit :=
  .mk (.perform (OwnerOp.createPending candidate))

/-- The agent works in the container. -/
def runAgent (name : Str) : Call Unit := .mk (.perform (OwnerOp.runAgent name))

/-- The patch is extracted and its integrity judged. -/
def extract (name : Str) : Call PatchExtraction := ExceptT.lift (.perform (OwnerOp.extract name))

end Ask

section Recovery

/-- `_candidate_matches_owner` -/
def PendingOwner.matchesOwner (candidate : PendingOwner) (owner : OwnerRecord) : Bool :=
  candidate.containerId == owner.containerId && candidate.containerName == owner.containerName &&
    candidate.ownerToken == owner.ownerToken

/-- `_preservation_was_superseded` -/
def preservationWasSuperseded (path : Str) (owner : OwnerRecord) : Call Bool := do
  match ← Ask.readOwner path with
  | none => return !(← Ask.lookUp path)
  | some current =>
    return current.ownerToken == owner.ownerToken &&
      (current.state == .candidateStaged || current.state == .kept)

/-- The pending outputs of an owner, in `_promote_durable_preservation_candidates`. -/
def matchingPending (owner : OwnerRecord) : List Str → Call (List Str)
  | [] => return []
  | path :: paths => do
    match ← outcomeOf (Ask.readPending path) with
    | .error _ => matchingPending owner paths
    | .ok candidate =>
      let others ← matchingPending owner paths
      return if candidate.matchesOwner owner then path :: others else others

/-- A record says that its candidate is staged, after another look at the pending output. -/
def stageOwner (path found : Str) (owner : OwnerRecord) : Call Unit := do
  let candidate ← Ask.readPending found
  if candidate.matchesOwner owner then
    hostCall
    replaceOwner path owner { owner with state := .candidateStaged }
  else throw .exception

/-- One record of `_promote_durable_preservation_candidates`. -/
def promoteOwner (path : Str) : Call Bool := do
  match ← Ask.readOwner path with
  | none => return true
  | some owner =>
    if owner.state != .preservationRequired then return true
    else
      match ← matchingPending owner (← Ask.pendingPaths) with
      | [found] =>
        match ← outcomeOf (stageOwner path found owner) with
        | .ok () => return true
        | .error _ => preservationWasSuperseded path owner
      | _ => preservationWasSuperseded path owner

/-- The loop of `_promote_durable_preservation_candidates`. -/
def promoteOwners : List Str → Call Bool
  | [] => return true
  | path :: paths => do
    let promoted ← promoteOwner path
    let others ← promoteOwners paths
    return promoted && others

/-- `recover_generation_state`. The outputs that it publishes change nothing here. -/
def recoverGenerationState : Call Bool := do
  let promoted ← promoteOwners (← Ask.ownerPaths)
  let recovered ← recoverStaleContainerOwners
  let published ← Ask.host
  return promoted && recovered && published

end Recovery

section Attempts

variable (ownerPath : Str → Str)

/-- The part of `start_container_with_marker` that is cleaned up after. -/
def launchContainer (name ownerToken : Str) : Call Str := do
  let id ← startContainer name ownerToken
  writeContainerMarker ownerPath id name
  return id

/-- `start_container_with_marker` -/
def startContainerWithMarker (name : Str) : Call Str := do
  if ← recoverGenerationState then
    let pending ← Ask.createPendingOwner name
    match ← outcomeOf (launchContainer ownerPath name pending.ownerToken) with
    | .ok id => return id
    | .error e =>
      let current := (← Ask.readOwner (ownerPath name)).getD pending
      if ← removeOwnedContainer current then
        hostCall
        unlinkOwner (ownerPath name)
        throw e
      else throw e
  else throw .exception

/-- `persist_pending_output` after the owner was checked. -/
def stageCandidate (id name : Str) (owner : OwnerRecord) : Call Unit := do
  let path := ownerPath name
  -- the candidate is validated
  hostCall
  match ← outcomeOf hostCall with
  | .error .byteLimit =>
    match ← Ask.readOwner path with
    | none => throw .exception
    | some current =>
      if current.ownerToken != owner.ownerToken then throw .exception
      else
        replaceOwner path current { current with state := .kept }
        throw .byteLimit
  | .error e => throw e
  | .ok () =>
    Ask.createPending ⟨id, name, owner.ownerToken⟩
    replaceOwner path owner { owner with state := .preservationRequired }
    replaceOwner path { owner with state := .preservationRequired }
      { owner with state := .candidateStaged }

/-- `persist_pending_output` -/
def persistPendingOutput (id name : Str) : Call Unit := do
  -- the targets
  hostCall
  match ← Ask.readOwner (ownerPath name) with
  | none => throw .exception
  | some owner =>
    if owner.containerId != id || owner.state != .active then throw .exception
    else stageCandidate ownerPath id name owner

/-- `output_staging_requires_container_preservation` -/
def outputStagingRequiresContainerPreservation (id name : Str) : Call Bool := do
  match ← Ask.readOwner (ownerPath name) with
  | none => return false
  | some owner =>
    return owner.containerId == id && owner.containerName == name &&
      (owner.state == .preservationRequired || owner.state == .candidateStaged ||
        owner.state == .kept)

/-- `_owned` of `candidate_retention` -/
def ownedRecord (id name : Str) : Call OwnerRecord := do
  match ← Ask.readOwner (ownerPath name) with
  | none => throw .exception
  | some record =>
    if record.containerId != id || record.containerName != name then throw .exception
    else
      match ← containerOwnerLabelState id record.ownerToken with
      | .matching => return record
      | _ => throw .exception

/-- `arm_candidate_retention` -/
def armCandidateRetention (id name : Str) : Call Unit := do
  let _ ← ownedRecord ownerPath id name
  markContainerKept id

/-- `complete_candidate_retention` -/
def completeCandidateRetention (id name : Str) : Call Unit := do
  let record ← ownedRecord ownerPath id name
  if record.state != .kept then throw .exception
  else replaceOwner (ownerPath name) record { record with state := .active }

/-- `retain_failed_candidate`; the baseline and the receipt are operations that may raise. -/
def retainFailedCandidate (id name : Str) : Call Unit := do
  let owned ← outcomeOf (do
    let record ← ownedRecord ownerPath id name
    if record.state != .kept then markContainerKept id else return ())
  let receipt ← outcomeOf hostCall
  match owned, receipt with
  | .ok (), .ok () => return ()
  | _, _ => throw .exception

/-- What the end of an attempt goes by. -/
structure AttemptProgress where
  /-- `candidate_started` -/
  started : Bool
  /-- `metrics["patch_extraction_succeeded"] is True` -/
  proven : Bool
  pendingRequired : Bool
  /-- Whether there is a `pending_path`. -/
  staged : Bool
  /-- Whether there is a `generation_error`. -/
  failed : Bool

/-- The body of the attempt, from the prepared container to the staged candidate. -/
def generateCandidate (id name : Str) : Call AttemptProgress := do
  -- the environment, the snapshot and the trusted baseline
  match ← outcomeOf (do hostCall; armCandidateRetention ownerPath id name) with
  | .error _ => return ⟨false, false, false, false, true⟩
  | .ok () =>
    match ← outcomeOf (Ask.runAgent name) with
    | .error _ => return ⟨true, false, false, false, true⟩
    | .ok () =>
      let extraction ← Ask.extract name
      let proven := extraction.proven
      if extraction.raised then return ⟨true, proven, false, false, true⟩
      else
        match ← outcomeOf (if proven then completeCandidateRetention ownerPath id name
            else return ()) with
        | .error _ => return ⟨true, proven, false, false, true⟩
        | .ok () =>
          -- the records of the output
          match ← outcomeOf hostCall with
          | .error _ => return ⟨true, proven, false, false, true⟩
          | .ok () =>
            if extraction.patch then
              match ← outcomeOf (persistPendingOutput ownerPath id name) with
              | .error _ => return ⟨true, proven, true, false, true⟩
              | .ok () => return ⟨true, proven, true, true, false⟩
            else return ⟨true, proven, false, false, false⟩

/-- `_cleanup_generation_attempt` -/
def cleanupGenerationAttempt (id name : Str) (keepContainer : Bool) (progress : AttemptProgress) :
    Call Unit := do
  -- the trusted baseline
  let cleaned ← outcomeOf hostCall
  let preserve ← outcomeOf (
    if progress.pendingRequired && !progress.staged then
      outputStagingRequiresContainerPreservation ownerPath id name
    else return false)
  match preserve with
  | .ok true => return ()
  | _ =>
    let completed ← outcomeOf Ask.host
    let clean := cleaned.isOk && preserve.isOk && completed.isOk && !progress.failed
    let _ ← outcomeOf (finalizeContainerOwnership id (keepContainer && clean)
      (clean && completed.toOption.getD false))

/-- Whether a record protects a candidate that is being staged. -/
def OwnerRecord.isProtected (record : OwnerRecord) : Bool :=
  record.state == .candidateStaged || record.state == .preservationRequired

/-- What `main` does at the end of an attempt. -/
def finalizeAttempt (id name : Str) (keepContainer : Bool) (progress : AttemptProgress) :
    Call Unit := do
  let owner ← if progress.pendingRequired then Ask.readOwner (ownerPath name) else pure none
  if progress.started && (!progress.proven ||
      (progress.failed && !progress.staged && !owner.any (·.isProtected))) then
    let _ ← outcomeOf (retainFailedCandidate ownerPath id name)
    -- the processes of the container are stopped
    let _ ← outcomeOf hostCall
  else cleanupGenerationAttempt ownerPath id name keepContainer progress

/-- An attempt of `main`. -/
def generateAttempt (name : Str) (keepContainer : Bool) : Call Unit := do
  let id ← startContainerWithMarker ownerPath name
  let progress ← generateCandidate ownerPath id name
  finalizeAttempt ownerPath id name keepContainer progress

end Attempts

section Supervisors

/-- A container of a generator that has exited is kept, or it is removed. -/
def recoverExitedContainer (path : Str) (record : OwnerRecord) (exited : Bool) : Call Unit := do
  let preserveActive := exited && record.state == .active
  if record.state == .kept || record.state == .preservationRequired || preserveActive then
    let reference :=
      if record.containerId.isEmpty then record.containerName else record.containerId
    match ← containerOwnerLabelState reference record.ownerToken with
    | .matching =>
      if preserveActive then markContainerPreservationRequired record.containerId else pure ()
      -- the container is isolated, and the failure is recorded
      hostCall
    | _ => throw .exception
  else if ← removeOwnedContainer record then
    hostCall
    unlinkOwner path
  else throw .exception

/-- One record of `_recover_generator_containers`. -/
def recoverGeneratorContainer (pid : Int) (identity : Str) (exited : Bool) (path : Str) :
    Call Unit := do
  let isOwn := fun record : OwnerRecord =>
    record.ownerPid == pid && !identity.isEmpty && record.ownerStartIdentity == identity
  match ← Ask.examineOwner path isOwn with
  | none => return ()
  | some record =>
    if isOwn record then
      if ← ownerIsLive record then return ()
      else
        match ← unlessRaised (recoverExitedContainer path record exited) with
        | some () => return ()
        | none => hostCall
    else return ()

/-- `_recover_generator_containers`, for the records of all runs below the output. -/
def recoverGeneratorContainers (pid : Int) (identity : Str) (exited : Bool) : List Str → Call Unit
  | [] => return ()
  | path :: paths => do
    recoverGeneratorContainer pid identity exited path
    recoverGeneratorContainers pid identity exited paths

end Supervisors

/-- All that a process does in a call. -/
def Call.session {α : Type} (call : Call α) : Program OwnerOp OwnerOp.Answer Unit :=
  call.run >>= fun _ => .done ()

/-- What a process may do: an attempt, a recovery, or the supervision of a generator. -/
inductive OwnershipEntry (ownerPath : Str → Str) :
    Program OwnerOp OwnerOp.Answer Unit → Prop where
  | generate (name : Str) (keepContainer : Bool) :
      OwnershipEntry ownerPath (generateAttempt ownerPath name keepContainer).session
  | recover : OwnershipEntry ownerPath recoverGenerationState.session
  | supervise (pid : Int) (identity : Str) (exited : Bool) (paths : List Str) :
      OwnershipEntry ownerPath (recoverGeneratorContainers pid identity exited paths).session

/-- The rules by which processes share owner records and containers. -/
def ownershipRules (calm : Prop) (ownerPath : Str → Str) :
    Rules OwnershipState ProcessId OwnerOp OwnerOp.Answer where
  effect p s op answer s' := s.process p = .running ∧ op.Effect ownerPath p s answer s'
  entry p s program := s.process p = .running ∧ OwnershipEntry ownerPath program
  environment := OwnershipEnvironment calm

end OpenCollabEval
