import OpenCollabEval.Evaluation.Projection
import OpenCollabEval.Python.Path

/-!
# Generation proof

What a report row must carry of the generation that made its candidate: the Git snapshot that the
solver started from, and the extraction of the patch from its workspace.
-/

open Python

namespace OpenCollabEval

/-- The keys of a solver snapshot. -/
def snapshotKeys : List Str := lits
  ["enabled", "anonymous_head", "base_tree", "workspace_sha256", "commit_count", "remote_count",
    "extra_git_metadata", "removed_git_metadata", "removed_gitlinks", "materialized_gitlinks",
    "expected_base_commit", "workspace_integrity"]

/-- The keys of a patch extraction. -/
def extractionKeys : List Str := lits
  ["schema", "host_trusted", "fixed_anonymous_base", "base_tree", "archive_bounded",
    "baseline_archive_sha256", "baseline_archive_bytes", "baseline_archive_entries",
    "baseline_extracted_bytes", "workspace_archive_sha256", "workspace_archive_bytes",
    "workspace_archive_entries", "workspace_extracted_bytes", "archive_byte_limit",
    "extracted_byte_limit", "file_byte_limit", "entry_limit", "patch_byte_limit",
    "container_quiesced_before", "container_quiesced_after", "workspace_frozen_during_copy",
    "patch_sha256", "patch_bytes", "candidate_tree", "changed_paths", "path_modes",
    "workspace_integrity"]

/-- The keys that a sanitized extraction has beyond these. -/
def extractionSanitizationKeys : List Str := lits
  ["pre_sanitization_patch_sha256", "pre_sanitization_candidate_tree"]

def maxWorkspaceArchiveBytes : Int := 4 * 1024 * 1024 * 1024

def maxExtractedBytes : Int := 8 * 1024 * 1024 * 1024

def maxArchivedFileBytes : Int := 2 * 1024 * 1024 * 1024

def maxWorkspaceArchiveEntries : Int := 1000000

/-- `MAX_CANDIDATE_FILE_BYTES`. -/
def maxCandidateFileBytes : Int := 256 * 1024 * 1024

/-- A field that holds a Git object id. -/
def oidField (o : Obj) (key : Str) : Option Str := (o.get key).asStr.filter isOid

/-- A field that holds a lower-case digest. -/
def digestField (o : Obj) (key : Str) : Option Str := (o.get key).asStr.filter isLowerSha256

/-- `_nonnegative_int`, with the integer. -/
def naturalField (o : Obj) (key : Str) : Option Int := (o.get key).asInt.filter (0 ≤ ·)

/-- A field that equals an integer and is no boolean. -/
def countIs (o : Obj) (key : Str) (n : Int) : Bool :=
  (o.get key).eqInt n && !(o.get key matches .bool _)

/-- `_candidate_path`. -/
def candidatePath (value : Json) : Option Str :=
  value.asStr.filter fun path =>
    !path.isEmpty && !path.any (· == 0) && !(PosixPath.ofStr path).isAbsolute &&
      !(PosixPath.ofStr path).parts.contains (lit "..")

/-- `_workspace_integrity_valid`. -/
def workspaceIntegrityValid (value : Json) : Except PyErr Bool := do
  let some integrity := value.asDict | return false
  if !(integrity.get "schema").eqStr "opencollab.workspace_integrity.v1" ||
      !(integrity.get "failure_scope").eqStr "none" then return false
  if !(← (integrity.get "outcome").inStrSet (lits ["allow", "sanitize_then_continue"])) then
    return false
  return match integrity.get "findings" with
    | .list findings => findings.length ≤ 2048
    | _ => false

/-- The path of an entry, a nonempty text without a zero. -/
def entryPath (item : Obj) : Option Str :=
  (item.get "path").asStr.filter fun path => !path.isEmpty && !path.any (· == 0)

/-- The path of a removed Git link. -/
def removedGitlink (item : Json) : Option Str := do
  let item ← item.asDict
  if !item.keysAre (lits ["path", "old_oid"]) then failure
  let path ← entryPath item
  let _ ← oidField item "old_oid"
  return path

/-- The path of a materialized Git link, for the length of an object id. -/
def materializedGitlink (oidLength : Nat) (item : Json) : Option Str := do
  let item ← item.asDict
  if !item.keysAre (lits ["path", "oid", "content_sha256"]) then failure
  let path ← entryPath item
  let oid ← oidField item "oid"
  if oid.length != oidLength then failure
  let _ ← digestField item "content_sha256"
  return path

/-- At most 1024 entries, with distinct paths. -/
def gitlinkPaths (value : Json) (entry : Json → Option Str) : Option (List Str) := do
  let items ← value.asList
  if 1024 < items.length then failure
  let paths ← items.mapM entry
  if !decide paths.Nodup then failure
  return paths

/-- `solver_git_snapshot_valid`. -/
def solverGitSnapshotValid (value : Json) : Except PyErr Bool := do
  let some snapshot := value.asDict | return false
  if !snapshot.keysAre snapshotKeys then return false
  let some head := oidField snapshot "anonymous_head" | return false
  let some baseTree := oidField snapshot "base_tree" | return false
  if head.length != baseTree.length then return false
  if (digestField snapshot "workspace_sha256").isNone then return false
  let some expectedBase := oidField snapshot "expected_base_commit" | return false
  if expectedBase.length != head.length then return false
  if !(← workspaceIntegrityValid (snapshot.get "workspace_integrity")) then return false
  let some removed := gitlinkPaths (snapshot.get "removed_gitlinks") removedGitlink | return false
  let encoded ← removed.mapM Str.encode
  if 128 * 1024 < encoded.flatten.length then return false
  if (gitlinkPaths (snapshot.get "materialized_gitlinks") (materializedGitlink head.length)).isNone
    then return false
  return (snapshot.get "enabled").isTrue && countIs snapshot "commit_count" 1 &&
    countIs snapshot "remote_count" 0 && countIs snapshot "extra_git_metadata" 0 &&
    (naturalField snapshot "removed_git_metadata").isSome

/-- The modes that Git gives to a path. -/
def gitModes : List Str := lits ["000000", "100644", "100755", "120000", "160000"]

/-- One entry of the path modes of an extraction: its path was changed, and its modes are known. -/
def pathModeValid (changedPaths : List Str) (item : Json) : Except PyErr Bool := do
  let some item := item.asDict | return false
  if !item.keysAre (lits ["path", "old_mode", "new_mode"]) ||
      !Json.elem (item.get "path") (changedPaths.map .str) then return false
  if !(← (item.get "old_mode").inStrSet gitModes) then return false
  if !(← (item.get "new_mode").inStrSet gitModes) then return false
  return !((item.get "old_mode").eqStr "000000" && (item.get "new_mode").eqStr "000000")

/-- What a sanitized extraction says of the patch before it. -/
def sanitizationValid (extraction integrity : Obj) (oidLength : Nat) : Bool :=
  (integrity.get "outcome").eqStr "sanitize_then_continue" &&
    (digestField extraction "pre_sanitization_patch_sha256").any (fun digest =>
      !(extraction.get "patch_sha256").eqStr digest) &&
    (oidField extraction "pre_sanitization_candidate_tree").any fun tree =>
      tree.length == oidLength && !(extraction.get "candidate_tree").eqStr tree

/-- The paths that an extraction changed, and a mode for each. -/
def changedPathsValid (extraction : Obj) : Except PyErr Bool := do
  let some changed := (extraction.get "changed_paths").asList | return false
  if maxWorkspaceArchiveEntries < changed.length then return false
  let some paths := changed.mapM candidatePath | return false
  if !decide paths.Nodup then return false
  let some modes := (extraction.get "path_modes").asList | return false
  if modes.length != paths.length then return false
  if !(← modes.allM (pathModeValid paths)) then return false
  return paths.all fun path =>
    modes.any fun item => (item.asDict.map (Obj.get · "path")).any (Json.eqStr path)

/-- The byte and entry counts of an extraction, within the limits that it states. -/
def extractionCountsValid (patchBudget : Int) (extraction : Obj) : Bool :=
  let within (key : String) (least most : Int) : Bool :=
    (naturalField extraction key).any fun n => least ≤ n && n ≤ most
  within "baseline_archive_bytes" 1 maxWorkspaceArchiveBytes &&
    within "baseline_archive_entries" 1 maxWorkspaceArchiveEntries &&
    within "baseline_extracted_bytes" 0 maxExtractedBytes &&
    within "workspace_archive_bytes" 1 maxWorkspaceArchiveBytes &&
    within "workspace_archive_entries" 1 maxWorkspaceArchiveEntries &&
    within "workspace_extracted_bytes" 0 maxExtractedBytes &&
    (extraction.get "archive_byte_limit").eqInt maxWorkspaceArchiveBytes &&
    (extraction.get "extracted_byte_limit").eqInt maxExtractedBytes &&
    (extraction.get "file_byte_limit").eqInt maxArchivedFileBytes &&
    (extraction.get "entry_limit").eqInt maxWorkspaceArchiveEntries &&
    (naturalField extraction "patch_byte_limit").any fun limit =>
      0 < limit && limit ≤ maxCandidateFileBytes &&
        within "patch_bytes" 0 (min limit patchBudget)

/-- `_trusted_patch_extraction_shape_valid`; `patchBudget` is `MAX_TRUSTED_PATCH_BYTES`. -/
def trustedPatchExtractionShapeValid (patchBudget : Int) (value snapshot : Json) :
    Except PyErr Bool := do
  if !(← solverGitSnapshotValid snapshot) then return false
  let some snapshot := snapshot.asDict | return false
  let some extraction := value.asDict | return false
  let sanitized := extraction.keysAre (extractionKeys ++ extractionSanitizationKeys)
  if !extraction.keysAre extractionKeys && !sanitized then return false
  if !(extraction.get "schema").eqStr "opencollab.trusted_patch_extraction.v1" ||
      !(lits ["host_trusted", "archive_bounded", "container_quiesced_before",
        "container_quiesced_after", "workspace_frozen_during_copy"]).all
          (fun key => (extraction.get key).isTrue) ||
      !(extraction.get "fixed_anonymous_base").pyEq (snapshot.get "anonymous_head") ||
      !(extraction.get "base_tree").pyEq (snapshot.get "base_tree") then return false
  if !(← workspaceIntegrityValid (extraction.get "workspace_integrity")) then return false
  let some integrity := (extraction.get "workspace_integrity").asDict | return false
  let some head := oidField snapshot "anonymous_head" | return false
  if sanitized && !sanitizationValid extraction integrity head.length then return false
  let some tree := oidField extraction "candidate_tree" | return false
  if tree.length != head.length then return false
  if !(← changedPathsValid extraction) then return false
  return (digestField extraction "baseline_archive_sha256").isSome &&
    (digestField extraction "workspace_archive_sha256").isSome &&
    extractionCountsValid patchBudget extraction &&
    (digestField extraction "patch_sha256").isSome

/-- `sha256:[0-9a-f]{64}`, matched in full. -/
def isImageId (s : Str) : Bool := s.startsWith "sha256:" && isLowerSha256 (s.drop 7)

/-- `current_generation_summary_proof_valid`. -/
def currentGenerationSummaryProofValid (patchBudget : Int) (metric : Obj) : Except PyErr Bool := do
  if !((metric.get "generation_image_id").asStr.any isImageId) then return false
  let extraction := metric.get "trusted_patch_extraction"
  if !(← trustedPatchExtractionShapeValid patchBudget extraction (metric.get "solver_git_snapshot"))
    then return false
  return (digestField metric "patch_sha256").any fun digest =>
    (extraction.asDict.map (Obj.get · "patch_sha256")).any (Json.eqStr digest)

end OpenCollabEval
