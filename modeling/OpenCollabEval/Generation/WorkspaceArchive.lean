import OpenCollabEval.Posix.FileTree

/-!
# Workspace archives

The extraction of the archive of a solver's workspace into an empty root: members one by one, hard
links afterwards, directory modes last. The operations on the file system fail only where its state
makes them fail.
-/

open Python Posix

namespace OpenCollabEval

/-- `MAX_WORKSPACE_FILE_BYTES`. -/
def maxWorkspaceFileBytes : Nat := 2 * 1024 * 1024 * 1024

/-- `MAX_WORKSPACE_EXTRACTED_BYTES`. -/
def maxWorkspaceExtractedBytes : Nat := 8 * 1024 * 1024 * 1024

/-- What a member is, and what the archive says of it. -/
inductive MemberKind where
  | directory
  | symlink (linkname : Str)
  | hardlink (linkname : Str)
  | file (size : Int) (payload : Option (List Nat))
  | special

/-- A member of an archive. -/
structure Member where
  name : Str
  mode : Int
  kind : MemberKind

/-- What an extraction raises. -/
inductive ArchiveError where
  | runtimeError (message : Str)
  | truncated (message : Str)
  | osError
  | exhausted

/-- A `RuntimeError` about the container workspace archive. -/
def archiveError (message : String) : ArchiveError :=
  .runtimeError (lit "container workspace archive " ++ lit message)

/-- What was done to the file system. -/
inductive FileEvent where
  | created (place : List Str)
  | linked (source place : List Str)
  | changedMode (place : List Str) (mode : Nat)

/-- The physical paths of an event. -/
def FileEvent.places : FileEvent → List (List Str)
  | .created place => [place]
  | .linked source place => [source, place]
  | .changedMode place _ => [place]

/-- The physical path at which an event makes an object. -/
def FileEvent.made : FileEvent → Option (List Str)
  | .created place => some place
  | .linked _ place => some place
  | .changedMode _ _ => none

/-- A file system and what was done to it. -/
structure Workspace where
  tree : FileTree
  events : List FileEvent

namespace Workspace

/-- Put a node where there is nothing, as `mkdir`, `symlink`, `mkfifo` and an exclusive open do. -/
def create (w : Workspace) (path : List Str) (node : Node) : Except ArchiveError Workspace :=
  match w.tree.locate path with
  | none => .error .osError
  | some place =>
    if (w.tree place).isSome then .error .osError
    else .ok ⟨w.tree.insert place node, w.events ++ [.created place]⟩

/-- `os.link(target, destination, follow_symlinks=False)` for a regular file. -/
def link (w : Workspace) (target destination : List Str) : Except ArchiveError Workspace :=
  match w.tree.locate target, w.tree.locate destination with
  | some source, some place =>
    match w.tree source with
    | some (.file content) =>
      if (w.tree place).isSome then .error .osError
      else .ok ⟨w.tree.insert place (.file content), w.events ++ [.linked source place]⟩
    | _ => .error .osError
  | _, _ => .error .osError

/-- `os.chmod` of a directory. -/
def chmod (w : Workspace) (path : List Str) (mode : Nat) : Except ArchiveError Workspace :=
  match w.tree.resolve path with
  | none => .error .osError
  | some place => .ok { w with events := w.events ++ [.changedMode place mode] }

end Workspace

/-- `_member_parts`. -/
def memberParts (name : Str) : Except ArchiveError (List Str) :=
  if name.any (· == 0) then .error (archiveError "contains a NUL path")
  else
    let path := PosixPath.ofStr name
    if path.isAbsolute then .error (archiveError "contains an absolute path")
    else if path.components.contains FileTree.dotdot then
      .error (archiveError "escapes the extraction root")
    else .ok path.components

/-- `_safe_parent`: from `current` on, the directories before the last name are made or checked. -/
def safeParent (w : Workspace) (current : List Str) :
    List Str → Except ArchiveError Workspace
  | [] | [_] => .ok w
  | part :: next :: rest =>
    match w.tree.lstat (current ++ [part]) with
    | none => do
      let w ← w.create (current ++ [part]) .directory
      safeParent w (current ++ [part]) (next :: rest)
    | some .directory => safeParent w (current ++ [part]) (next :: rest)
    | some _ => .error (archiveError "traverses a non-directory parent")

/-- An extraction that goes on. -/
structure Extraction where
  workspace : Workspace
  extracted : Nat
  directoryModes : List (List Str × Nat)
  pending : List (List Str × List Str)

/-- `directory_modes[parts] = mode`. -/
def setMode (modes : List (List Str × Nat)) (parts : List Str) (mode : Nat) :
    List (List Str × Nat) :=
  if modes.any (·.1 == parts) then
    modes.map fun entry => if entry.1 == parts then (parts, mode) else entry
  else modes ++ [(parts, mode)]

/-- `member.mode & 0o777`. -/
def Member.permissions (m : Member) : Nat := (m.mode % 512).toNat

section Extract

variable (root : List Str)

/-- A directory member at its destination. -/
def extractDirectory (w : Workspace) (parts : List Str) : Except ArchiveError Workspace :=
  match w.tree.lstat (root ++ parts) with
  | none => w.create (root ++ parts) .directory
  | some .directory => .ok w
  | some _ => .error (archiveError "redefines a path as a directory")

/-- A file member at its destination, with the bytes that were extracted before. -/
def extractFile (w : Workspace) (extracted : Nat) (parts : List Str) (size : Int)
    (payload : Option (List Nat)) : Except ArchiveError (Workspace × Nat) :=
  if size < 0 ∨ (maxWorkspaceFileBytes : Int) < size then
    .error (archiveError "contains an oversized file")
  else
    let total := extracted + size.toNat
    if maxWorkspaceExtractedBytes < total then
      .error (.runtimeError "container workspace extraction exceeded its byte limit")
    else
      match payload with
      | none => .error (archiveError "file payload is missing")
      | some bytes => do
        let w ← w.create (root ++ parts) (.file (bytes.take size.toNat))
        if bytes.length < size.toNat then
          .error (.truncated "container workspace archive file payload is truncated")
        else .ok (w, total)

/-- A member at its destination, the parent of which is safe. -/
def extractAt (st : Extraction) (w : Workspace) (parts : List Str) (m : Member) :
    Except ArchiveError Extraction :=
  match m.kind with
  | .directory => do
    let w ← extractDirectory root w parts
    .ok { st with
      workspace := w
      directoryModes := setMode st.directoryModes parts m.permissions }
  | kind =>
    if (w.tree.lstat (root ++ parts)).isSome then .error (archiveError "contains a duplicate path")
    else
      match kind with
      | .symlink linkname =>
        if linkname.any (· == 0) then .error (archiveError "contains an invalid symlink")
        else if linkname.isEmpty then .error .osError
        else do
          let w ← w.create (root ++ parts) (.symlink linkname)
          .ok { st with workspace := w }
      | .hardlink linkname => do
        let targetParts ← memberParts linkname
        if targetParts.isEmpty then .error (archiveError "contains an invalid hard link")
        else .ok { st with workspace := w, pending := st.pending ++ [(parts, targetParts)] }
      | .file size payload => do
        let (w, total) ← extractFile root w st.extracted parts size payload
        .ok { st with workspace := w, extracted := total }
      | _ => do
        let w ← w.create (root ++ parts) .special
        .ok { st with workspace := w }

/-- `_extract_member`. -/
def extractMember (st : Extraction) (m : Member) : Except ArchiveError Extraction := do
  let parts ← memberParts m.name
  if parts.isEmpty then
    match m.kind with
    | .directory => .ok st
    | _ => .error (archiveError "has a non-directory root entry")
  else
    let w ← safeParent st.workspace root parts
    extractAt root st w parts m

/-- One hard link: whether it is made, with the file system after it. -/
def materializeOne (w : Workspace) (entry : List Str × List Str) :
    Except ArchiveError (Workspace × Bool) := do
  let w ← safeParent w root entry.1
  match w.tree.lstat (root ++ entry.2) with
  | none => .ok (w, false)
  | some (.file _) => do
    let w ← w.link (root ++ entry.2) (root ++ entry.1)
    .ok (w, true)
  | some _ => .error (archiveError "hard link target is unsafe")

/-- One pass over the remaining hard links: what is deferred, and whether there was progress. -/
def materializePass (w : Workspace) :
    List (List Str × List Str) →
      Except ArchiveError (Workspace × List (List Str × List Str) × Bool)
  | [] => .ok (w, [], false)
  | entry :: rest => do
    let (w, made) ← materializeOne root w entry
    let (w, deferred, progress) ← materializePass w rest
    .ok (w, if made then deferred else entry :: deferred, made || progress)

/-- `_materialize_hardlinks`; a pass that is followed by another one shortens what remains. -/
def materializeHardlinks : Nat → Workspace → List (List Str × List Str) →
    Except ArchiveError Workspace
  | _, w, [] => .ok w
  | 0, _, _ => .error .exhausted
  | fuel + 1, w, remaining => do
    let (w, deferred, progress) ← materializePass root w remaining
    if !deferred.isEmpty && !progress then
      .error (archiveError "hard link target is missing")
    else materializeHardlinks fuel w deferred

/-- One directory of `_restore_directory_modes`. -/
def restoreMode (w : Workspace) (entry : List Str × Nat) : Except ArchiveError Workspace :=
  if entry.1.isEmpty then .ok w
  else
    match w.tree.lstat (root ++ entry.1) with
    | some .directory => w.chmod (root ++ entry.1) entry.2
    | some _ => .error (archiveError "directory changed type during extraction")
    | none => .error .osError

/-- `_restore_directory_modes`: the deepest directories first. -/
def restoreDirectoryModes (w : Workspace) (modes : List (List Str × Nat)) :
    Except ArchiveError Workspace :=
  (modes.mergeSort fun a b => decide (b.1.length ≤ a.1.length)).foldlM (restoreMode root) w

/-- The members of an archive, into the root of a host. -/
def extractMembers (host : FileTree) (archive : List Member) : Except ArchiveError Extraction :=
  archive.foldlM (extractMember root) ⟨⟨host, []⟩, 0, [], []⟩

/-- The hard links and the directory modes after the members. -/
def finishExtraction (st : Extraction) : Except ArchiveError Workspace := do
  let w ← materializeHardlinks root st.pending.length st.workspace st.pending
  restoreDirectoryModes root w st.directoryModes

end Extract

end OpenCollabEval
