import OpenCollabEval.Python.Lines
import OpenCollabEval.Python.Path
import OpenCollabEval.Python.Error
import Mathlib.Algebra.GroupWithZero.Nat

/-!
# The paths of a test patch

The paths that a patch names in its headers, the paths that `git apply --numstat -z` lists, and the
bounds that a set of paths keeps.
-/

open Python

namespace OpenCollabEval

/-- `MAX_TEST_PATCH_BYTES`. -/
def maxTestPatchBytes : Nat := 8 * 1024 * 1024

/-- `MAX_TEST_PATCH_PATHS`. -/
def maxTestPatchPaths : Nat := 256

/-- `MAX_TEST_PATCH_PATH_BYTES`. -/
def maxTestPatchPathBytes : Nat := 512 * 1024

/-- `_GIT_C_ESCAPES`. -/
def gitCEscapes : List (Nat × Nat) :=
  [(97, 0x07), (98, 0x08), (116, 0x09), (110, 0x0A), (118, 0x0B), (102, 0x0C), (114, 0x0D),
    (34, 0x22), (92, 0x5C)]

/-- An octal digit. -/
def isOctal (c : Nat) : Bool := 48 ≤ c && c ≤ 55

/-- One more byte of a `bytearray`, which holds values up to 255. -/
def appendByte (b : Nat) (rest : Except PyErr (List Nat)) : Except PyErr (List Nat) :=
  if b < 256 then rest.map (b :: ·) else .error .valueError

/-- The bytes of a quoted path up to its closing quote, after `skip` code points. -/
def quotedBytes (skip : Nat) : Str → Except PyErr (List Nat)
  | [] => .ok []
  | c :: rest =>
    if 0 < skip then quotedBytes (skip - 1) rest
    else if c == 34 then .ok []
    else if c != 92 then (quotedBytes 0 rest).map (Str.utf8Char c ++ ·)
    else
      match rest with
      | [] => .ok [92]
      | escaped :: _ =>
        let digits := (rest.take 3).takeWhile isOctal
        if digits.isEmpty then
          appendByte ((gitCEscapes.lookup escaped).getD escaped) (quotedBytes 1 rest)
        else
          appendByte (digits.foldl (fun n d => n * 8 + (d - 48)) 0)
            (quotedBytes digits.length rest)

/-- `_decode_git_c_path`. -/
def decodeGitCPath (value : Str) : Except PyErr Str :=
  match value with
  | 34 :: quoted => (quotedBytes 0 quoted).map Str.decodeSurrogateEscape
  | _ => .ok (value.before "\t").rstrip

/-- `_normalized_patch_path`. -/
def normalizedPatchPath (value : Str) (stripSide : Bool) : Except PyErr (Option Str) := do
  let path ← decodeGitCPath value
  if path = lit "/dev/null" then .ok none
  else
    let path :=
      if stripSide && (path.startsWith "a/" || path.startsWith "b/") then path.drop 2 else path
    .ok (if path.isEmpty then none else some path)

/-- The starts of the lines that name a path, and whether the path has a side to strip. -/
def pathHeaders : List (String × Bool) :=
  [("--- ", true), ("+++ ", true), ("rename from ", false), ("rename to ", false),
    ("copy from ", false), ("copy to ", false)]

/-- The path that a line names. -/
def headerPath (line : Str) : Option Str := do
  let (start, stripSide) ← pathHeaders.find? fun header => line.startsWith header.1
  match normalizedPatchPath (line.drop (lit start).length) stripSide with
  | .ok path => path
  | .error _ => none

/-- `_touched_files`. -/
def touchedFiles (patch : Str) : List Str := (patch.splitlines.filterMap headerPath).eraseDups

/-- The third field of `record.split("\t", 2)`. -/
def numstatField (record : Str) : Option Str := do
  let rest ← (record.splitOnce "\t").2
  (rest.splitOnce "\t").2

/-- The paths of the records of a numstat output. -/
def numstatRecords : List Str → Except PyErr (List Str)
  | [] => .ok []
  | record :: rest =>
    if record.isEmpty then numstatRecords rest
    else
      match numstatField record with
      | none => .error .valueError
      | some path =>
        if !path.isEmpty then (numstatRecords rest).map (path :: ·)
        else
          -- a rename has its two paths in records of their own
          match rest with
          | oldPath :: newPath :: rest =>
            if oldPath.isEmpty || newPath.isEmpty then .error .valueError
            else (numstatRecords rest).map fun paths => oldPath :: newPath :: paths
          | _ => .error .valueError

/-- `_numstat_paths`. -/
def numstatPaths (output : Str) : Except PyErr (List Str) :=
  (numstatRecords (Str.splitChar 0 output)).map List.eraseDups

/-- `PureWindowsPath(path).drive` for a path without a leading separator. -/
def hasWindowsDrive (path : Str) : Bool := path[1]? == some 58

/-- A path that a patch must not have. -/
def unsafePatchPath (path : Str) : Bool :=
  path.isEmpty || path.startsWith "/" || hasWindowsDrive path || path.any (· == 92) ||
    path.any (· == 0) ||
    (Str.splitChar PosixPath.slash path).any (fun component =>
      component.isEmpty || component == lit "." || component == lit "..") ||
    (PosixPath.ofStr path).parts.any (· == lit "..") || path.any Str.isSurrogate

/-- Why a set of paths is refused. -/
inductive PathBoundError where
  | pathCount (count : Nat)
  | unsafePath (path : Str)
  | pathBytes (bytes : Nat)
  deriving DecidableEq

/-- `_path_bound_error`. -/
def pathBoundError (paths : List Str) : Option PathBoundError :=
  if maxTestPatchPaths < paths.length then some (.pathCount paths.length)
  else
    match paths.find? unsafePatchPath with
    | some path => some (.unsafePath path)
    | none =>
      let total := (paths.map fun path => path.encodeSurrogatePass.length).sum
      if maxTestPatchPathBytes < total then some (.pathBytes total) else none

example : touchedFiles "--- a/x.py\n+++ b/x.py\nrename to \"y\\303\\251\"\n" =
    [lit "x.py", [0x79, 0xE9]] := by decide +kernel

end OpenCollabEval
