import OpenCollabEval.Env

/-!
# Worktree checkpoints

A checkpoint is a patch file and a metadata file with the patch's digest, replaced one after the
other. `capture` stores the diff of the worktree, and compensates in several ways when one of its
file operations raises; `restorablePatch` is what `restore_latest` accepts before it looks at the
worktree.

The metadata file is kept as the document that it holds.
-/

open Python

namespace OpenCollabEval

/-- The status of a checkpoint. -/
inductive CheckpointStatus where
  | written
  | empty
  | failed
  deriving DecidableEq

/-- What the integrity check reads of a metadata document. -/
structure CheckpointMeta where
  status : CheckpointStatus
  patchBytes : Nat
  patchSha256 : Str
  preservedPreviousPatch : Bool
  submissionEligible : Bool
  deriving DecidableEq

/-- The two files of a run directory, as far as they exist. -/
structure RunDirectory where
  patch : Option Str
  metadata : Option CheckpointMeta
  deriving DecidableEq

/-- How an operation that raises leaves its target. -/
inductive WriteFault where
  | unchanged
  | done

/-- The content of a target after an operation that may raise, and whether it did. -/
def attempt {α : Type} (fault : Option WriteFault) (old new : α) : α × Bool :=
  match fault with
  | none => (new, false)
  | some .unchanged => (old, true)
  | some .done => (new, true)

/-- What the worktree diff command came to. -/
inductive DiffResult where
  | exception
  | truncated
  | failed
  | output (patch : Str)

/-- The operations of `_write_failure` that raise. -/
structure FailureFaults where
  readExisting : Bool
  readPatch : Bool
  readMeta : Bool
  writeMeta : Option WriteFault

/-- The operations of a capture that raise. -/
structure CaptureFaults where
  bindDirectory : Bool
  readExisting : Bool
  readPrevious : Bool
  writePatch : Option WriteFault
  rollbackPatch : Option WriteFault
  readStale : Bool
  removeStale : Option WriteFault
  writeMeta : Option WriteFault
  failure : FailureFaults

/-- A capture none of whose operations raises. -/
def CaptureFaults.none : CaptureFaults :=
  ⟨false, false, false, Option.none, Option.none, false, Option.none, Option.none,
    ⟨false, false, false, Option.none⟩⟩

/-- The result of a capture. -/
structure CheckpointResult where
  status : CheckpointStatus
  rollbackFailed : Bool
  submissionEligible : Bool
  deriving DecidableEq

/-- A capture: the directory after each of its file operations, and its result. -/
abbrev CaptureTrail := List RunDirectory × CheckpointResult

/-- `not patch.strip()`. -/
def isBlank (patch : Str) : Bool := patch.strip.isEmpty

/-- `len(patch.encode("utf-8", errors="surrogatepass"))`. -/
def patchBytes (patch : Str) : Nat := patch.encodeSurrogatePass.length

namespace RunDirectory

/-- `_unlink_durable(self.patch_path)`. -/
def removePatch (dir : RunDirectory) (fault : Option WriteFault) : RunDirectory × Bool :=
  let (patch, raised) := attempt fault dir.patch none
  ({ dir with patch }, raised)

/-- `_atomic_write(self.patch_path, text)`; a lone surrogate cannot be encoded. -/
def writePatch (dir : RunDirectory) (text : Str) (fault : Option WriteFault) :
    RunDirectory × Bool :=
  if text.any Str.isSurrogate then (dir, true)
  else
    let (patch, raised) := attempt fault dir.patch (some text)
    ({ dir with patch }, raised)

/-- `_write_meta`. -/
def writeMeta (dir : RunDirectory) (document : CheckpointMeta) (fault : Option WriteFault) :
    RunDirectory × Bool :=
  let (metadata, raised) := attempt fault dir.metadata (some document)
  ({ dir with metadata }, raised)

/-- `_restore_previous_patch`. -/
def restorePrevious (dir : RunDirectory) (previous : Option Str) (fault : Option WriteFault) :
    RunDirectory × Bool :=
  match previous with
  | none => dir.removePatch fault
  | some text => dir.writePatch text fault

/-- `_has_existing_patch`, the read of which may raise. -/
def hasExistingPatch (dir : RunDirectory) (raises : Bool) : Bool :=
  !raises && dir.patch.any (!isBlank ·)

end RunDirectory

section Capture

variable (env : Env) (maxPatchBytes : Nat)

/-- `_patch_sha` of a checkpoint. -/
def checkpointSha (patch : Str) : Str :=
  if patch.isEmpty then [] else env.sha256 patch.encodeSurrogatePass

/-- `_checkpoint_meta_integrity_error` finds nothing. -/
def metaMatches (document : CheckpointMeta) (patch : Str) : Bool :=
  document.status ≠ .empty && document.patchSha256 == checkpointSha env patch &&
    document.patchBytes == patchBytes patch

/-- The patch that `restore_latest` goes on with to its worktree precheck. -/
def restorablePatch (dir : RunDirectory) : Option Str := do
  let patch ← dir.patch
  let document ← dir.metadata
  if !isBlank patch && metaMatches env document patch && document.submissionEligible then some patch
  else none

/-- What `_write_failure` preserves: the stored patch and whether it stays eligible. -/
def preservedPatch (dir : RunDirectory) (faults : FailureFaults) : Option (Str × Bool) :=
  if !dir.hasExistingPatch faults.readExisting || faults.readPatch then none
  else dir.patch.map fun patch =>
    (patch, !faults.readMeta && dir.metadata.any fun document =>
      metaMatches env document patch && document.submissionEligible)

/-- The metadata of a failed capture. -/
def failureMeta (preserved : Option (Str × Bool)) : CheckpointMeta :=
  let patch := (preserved.map (·.1)).getD []
  ⟨.failed, patchBytes patch, checkpointSha env patch, preserved.isSome,
    (preserved.map (·.2)).getD false⟩

/-- `_write_failure`. -/
def writeFailure (dir : RunDirectory) (faults : FailureFaults) : CaptureTrail :=
  let preserved := preservedPatch env dir faults
  ([(dir.writeMeta (failureMeta env preserved) faults.writeMeta).1],
    ⟨.failed, false, (preserved.map (·.2)).getD false⟩)

/-- The metadata of a capture that succeeds. -/
def captureMeta (patch : Str) : CheckpointMeta :=
  ⟨if isBlank patch then .empty else .written, patchBytes patch, checkpointSha env patch, false,
    !isBlank patch⟩

/-- Go on after some file operations. -/
def CaptureTrail.after (dirs : List RunDirectory) (trail : CaptureTrail) : CaptureTrail :=
  (dirs ++ trail.1, trail.2)

/-- The result of a capture that failed on its own metadata or on its rollback. -/
def failedResult (rollbackFailed : Bool) : CheckpointResult := ⟨.failed, rollbackFailed, false⟩

/-- The compensation after the patch could not be replaced. -/
def compensatePatch (dir : RunDirectory) (previous : Option Str) (faults : CaptureFaults) :
    CaptureTrail :=
  let (restored, raised) := dir.restorePrevious previous faults.rollbackPatch
  if raised then ([restored], failedResult true)
  else (writeFailure env restored faults.failure).after [restored]

/-- Store a patch that is not blank. -/
def capturePatch (dir : RunDirectory) (patch : Str) (faults : CaptureFaults) : CaptureTrail :=
  -- a failed read of the previous patch is compensated as if there were none
  if faults.readPrevious then compensatePatch env dir none faults
  else
    let (replaced, raised) := dir.writePatch patch faults.writePatch
    if raised then (compensatePatch env replaced dir.patch faults).after [replaced]
    else
      let (described, raised) := replaced.writeMeta (captureMeta env patch) faults.writeMeta
      if raised then
        let (restored, raised) := described.restorePrevious dir.patch faults.rollbackPatch
        ([replaced, described, restored], failedResult raised)
      else ([replaced, described], ⟨.written, false, true⟩)

/-- Write the metadata of a blank patch, after `previous` was removed. -/
def describeEmpty (dir : RunDirectory) (previous : Option Str) (patch : Str)
    (faults : CaptureFaults) : CaptureTrail :=
  let (described, raised) := dir.writeMeta (captureMeta env patch) faults.writeMeta
  if raised then
    match previous with
    | none => ([described], failedResult false)
    | some text =>
      let (restored, raised) := described.writePatch text faults.rollbackPatch
      ([described, restored], failedResult raised)
  else ([described], ⟨.empty, false, false⟩)

/-- Store a blank patch: remove the stored one. -/
def captureBlank (dir : RunDirectory) (patch : Str) (faults : CaptureFaults) : CaptureTrail :=
  if !dir.hasExistingPatch faults.readExisting then describeEmpty env dir none patch faults
  else if faults.readStale then writeFailure env dir faults.failure
  else
    let (removed, raised) := dir.removePatch faults.removeStale
    if raised then (writeFailure env removed faults.failure).after [removed]
    else (describeEmpty env removed dir.patch patch faults).after [removed]

/-- `WorktreeCheckpoint.capture`. -/
def capture (dir : RunDirectory) (diff : DiffResult) (faults : CaptureFaults) : CaptureTrail :=
  if faults.bindDirectory then ([], failedResult false)
  else
    match diff with
    | .output patch =>
      if maxPatchBytes < patchBytes patch then writeFailure env dir faults.failure
      else if isBlank patch then captureBlank env dir patch faults
      else capturePatch env dir patch faults
    | _ => writeFailure env dir faults.failure

/-- The directory that a capture leaves. -/
def capturedDirectory (dir : RunDirectory) (diff : DiffResult) (faults : CaptureFaults) :
    RunDirectory :=
  (capture env maxPatchBytes dir diff faults).1.getLastD dir

/-- The directories that a crash of a capture may leave, by the file operations before it. -/
def crashDirectories (dir : RunDirectory) (diff : DiffResult) : List RunDirectory :=
  dir :: (capture env maxPatchBytes dir diff .none).1

end Capture

end OpenCollabEval
