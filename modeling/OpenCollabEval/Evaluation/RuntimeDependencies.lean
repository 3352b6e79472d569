import OpenCollabEval.Evaluation.RecordIdentity
import OpenCollabEval.Contract.Plan

/-!
# Runtime dependencies

Two readers of the dependencies that a container restored for its tests. The evaluator compares the
restored report with the plans and with the identity document of the pinned image; the report reader
checks the files among them once more from the written payload.
-/

open Python

namespace OpenCollabEval

/-- `for item in value or []`, the items that can be no dict left as they are. -/
def iterOrEmpty (value : Json) : Except PyErr (List Json) :=
  match value with
  | .list items => .ok items
  | .str s => .ok (s.map fun c => .str [c])
  | .dict entries => .ok (entries.map fun entry => .str entry.1)
  | v => if v.truthy then .error .typeError else .ok []

/-- Append the items that are not there yet. -/
def appendNew (specs : List Json) : List Json → List Json
  | [] => specs
  | item :: rest => appendNew (if item.elem specs then specs else specs ++ [item]) rest

/-- The dependency declarations of a plan; each of them is a dict in every plan that is built. -/
def declaredDependencies (plan : Obj) : Except PyErr (List Json) := do
  let items ← iterOrEmpty (plan.get "runtime_dependencies")
  if items.all (·.asDict.isSome) then return items else throw .typeError

/-- Combine dependency declarations without rewriting persisted plan evidence. -/
def rawPlanRuntimeDependencySpecs : List Obj → Except PyErr (List Json)
  | [] => .ok []
  | plan :: plans => do
    return appendNew (appendNew [] (← declaredDependencies plan))
      (← rawPlanRuntimeDependencySpecs plans)

/-- A dependency declaration in its current shape. -/
structure DependencySpec where
  root : Str
  requiredPaths : List Str
  kind : Str
  candidateProtected : Json

/-- Equality of two declarations. -/
def DependencySpec.pyEq (a b : DependencySpec) : Bool :=
  a.root == b.root && a.requiredPaths == b.requiredPaths && a.kind == b.kind &&
    a.candidateProtected.pyEq b.candidateProtected

section Readers

variable (env : Env)

/-- Normalize a declaration of the original shape. -/
def normalizeDependency (item : Obj) : Except PyErr DependencySpec := do
  let required ← iterOrEmpty (item.get "required_paths")
  return {
    root := env.strOrEmpty (item.get "root")
    requiredPaths := required.map env.str
    kind := if (item.get "kind").truthy then env.str (item.get "kind") else "directory"
    candidateProtected := Obj.getOr item "candidate_protected" (.bool true) }

/-- The declarations of some plans in their current shape, each once. -/
def normalizeDependencies : List Json → Except PyErr (List DependencySpec)
  | [] => .ok []
  | item :: rest => do
    let spec ← normalizeDependency env (item.asDict.getD [])
    let specs ← normalizeDependencies rest
    return spec :: specs.filter (!spec.pyEq ·)

/-- Combine runtime requirements and normalize the original shape. -/
def planRuntimeDependencySpecs (plans : List Obj) : Except PyErr (List DependencySpec) := do
  normalizeDependencies env (← rawPlanRuntimeDependencySpecs plans)

/-- The digest of a list of declarations. -/
def specSha256 (specs : List Json) : Str :=
  env.sha256 (DumpFormat.canonical.dumps (.list specs)).encodeSurrogatePass

/-- The declaration that a root has, the last of several. -/
def expectedDependency (specs : List DependencySpec) (root : Str) : Option DependencySpec :=
  specs.reverse.find? (·.root == root)

/-- The roots that are declared as files. -/
def expectedFileRoots (specs : List DependencySpec) : List Str :=
  dedupKeys ((specs.filter (·.kind == lit "file")).map (·.root))

/-- `sha256:[0-9a-f]{64}`, matched in full. -/
def isImageDigest (s : Str) : Bool := s.startsWith "sha256:" && isLowerSha256 (s.drop 7)

/-- One entry of the identity document: a declared file root and its digest. -/
def identityEntry (fileRoots : List Str) (item : Json) : Except PyErr (Option (Str × Json)) :=
  match item with
  | .dict entry =>
    if !Obj.keysAre entry ["root", "content_sha256"] then .ok none
    else do
      if !(← (Obj.get entry "root").inStrSet fileRoots) then return none
      let digest := Obj.get entry "content_sha256"
      return match (Obj.get entry "root").asStr with
        | some root => if isLowerSha256 (env.strOrEmpty digest) then some (root, digest) else none
        | none => none
  | _ => .ok none

/-- All entries of the identity document, in order. -/
def identityEntries (fileRoots : List Str) : List Json → Except PyErr (Option (List (Str × Json)))
  | [] => .ok (some [])
  | item :: rest => do
    let some entry ← identityEntry env fileRoots item | return none
    return (← identityEntries fileRoots rest).map (entry :: ·)

/-- The file digests of the pinned image, `none` when its identity document is not valid. -/
def identityHashes (fileRoots : List Str) (identities : Json) (expectedImageId : Str) :
    Except PyErr (Option (List (Str × Json))) :=
  match identities with
  | .dict document =>
    if !(Obj.get document "schema").eqStr "opencollab.runtime_dependency_identities.v1" ||
        !isImageDigest (env.strOrEmpty (Obj.get document "image_id")) ||
        !(expectedImageId.isEmpty || (Obj.get document "image_id").eqStr expectedImageId) then
      .ok none
    else
      match (Obj.get document "entries").asList with
      | none => .ok none
      | some items =>
        if 16 < items.length then .ok none
        else do
          let some entries ← identityEntries env fileRoots items | return none
          return if decide (entries.map (·.1)).Nodup then some entries else none
  | .null => .ok (if fileRoots.isEmpty then some [] else none)
  | _ => .ok none

/-- A nonempty relative path. -/
def safeRelativePath (value : Json) : Option Str := do
  let path ← value.asStr
  if !path.isEmpty && isContainedPath path then some path else none

/-- The keys of a restored entry. -/
def restoredEntryKeys : List Str :=
  ["root", "required_paths", "kind", "candidate_protected", "content_sha256"]

/-- Whether an entry has the original shape, for a root that a plan declares in that shape. -/
def isLegacyEntry (legacyRoots : List Json) (item : Obj) : Except PyErr Bool :=
  if !Obj.keysAre item ["root", "required_paths"] then .ok false
  else if !(Obj.get item "root").hashable then .error .typeError
  else .ok ((Obj.get item "root").elem legacyRoots)

/-- `hash(value)`. -/
def hashed (value : Json) : Except PyErr Unit :=
  if value.hashable then .ok () else .error .typeError

/-- The declaration that an entry is compared with, and the paths it found. -/
def entryDeclaration (specs : List DependencySpec) (item : Obj) :
    Option (Str × DependencySpec × List Str) := do
  let root ← safeRelativePath (item.get "root")
  let expected ← expectedDependency specs root
  let required ← (← (item.get "required_paths").asList).mapM safeRelativePath
  return (root, expected, required)

/-- Whether an entry has the paths, the kind, the protection and the digest it should have. -/
def entryAgrees (legacy : Bool) (hashes : List (Str × Json)) (item : Obj) (root : Str)
    (expected : DependencySpec) (required : List Str) : Bool :=
  let kind := if legacy then (lit "directory" : Json) else item.get "kind"
  let digest := if legacy then (lit "" : Json) else item.get "content_sha256"
  let candidateProtected := if legacy then .bool true else item.get "candidate_protected"
  !required.isEmpty && required.length ≤ 16 && decide required.Nodup &&
    required.all expected.requiredPaths.contains && kind.eqStr expected.kind &&
    candidateProtected.pyEq expected.candidateProtected &&
    match digest.asStr with
    | some digest =>
      if kind.eqStr "directory" then digest.isEmpty else (hashes.lookup root).any (·.eqStr digest)
    | none => false

/-- One restored entry against the declaration of its root and the digests of the image. -/
def validEntry (specs : List DependencySpec) (legacyRoots : List Json)
    (hashes : List (Str × Json)) (item : Json) : Except PyErr Bool :=
  match item with
  | .dict item => do
    let legacy ← isLegacyEntry legacyRoots item
    if !legacy && !Obj.keysAre item restoredEntryKeys then return false
    hashed (Obj.get item "root")
    return match entryDeclaration specs item with
      | some (root, expected, required) => entryAgrees legacy hashes item root expected required
      | none => false
  | _ => .ok false

/-- All restored entries, in order. -/
def validEntries (specs : List DependencySpec) (legacyRoots : List Json)
    (hashes : List (Str × Json)) : List Json → Except PyErr Bool
  | [] => .ok true
  | item :: rest => do
    if ← validEntry specs legacyRoots hashes item then validEntries specs legacyRoots hashes rest
    else return false

/-- The roots of the restored entries that are declared as files or say that they are. -/
def restoredFileRoots (fileRoots : List Str) (entries : List Json) : List Str :=
  (entries.filterMap Json.asDict).filterMap fun item =>
    match (Obj.get item "root").asStr with
    | some root =>
      if (Obj.get item "kind").eqStr "file" || fileRoots.contains root then some root else none
    | none => none

/-- Two lists hold the same strings. -/
def sameSet (a b : List Str) : Bool := a.all b.contains && b.all a.contains

/-- The roots that a plan declares in the original shape. -/
def legacyRoots (raw : List Json) : List Json :=
  (raw.filterMap Json.asDict).filterMap fun item =>
    if Obj.keysAre item ["root", "required_paths"] then some (Obj.get item "root") else none

/-- What the evaluator asks of a restored report. -/
def restoredReportValid (f2pPlan p2pPlan : Obj) (identities : Json) (expectedImageId : Str)
    (report : Obj) : Except PyErr Bool := do
  let raw ← rawPlanRuntimeDependencySpecs [f2pPlan, p2pPlan]
  let specs ← planRuntimeDependencySpecs env [f2pPlan, p2pPlan]
  let fileRoots := expectedFileRoots specs
  let hashes ← identityHashes env fileRoots identities expectedImageId
  if !(report.get "schema").eqStr "opencollab.eval_runtime_dependencies.v1" ||
      !(report.get "phase").eqStr "restored" ||
      !(report.get "source").eqStr "pinned_image_runtime_with_trusted_public_preparation" ||
      !(report.get "solver_visible").isFalse ||
      !(report.get "spec_sha256").eqStr (specSha256 env raw) then return false
  let some entries := (report.get "entries").asList | return false
  if 16 < entries.length then return false
  let some hashes := hashes | return false
  if !(← validEntries specs (legacyRoots raw) hashes entries) then return false
  let roots := (entries.filterMap Json.asDict).map (Obj.get · "root")
  return Json.allDistinct roots &&
    sameSet (restoredFileRoots fileRoots entries) (hashes.map (·.1))

/-- A JSON artifact of the output directory: absent or unreadable, empty, no JSON, or a value. -/
inductive JsonArtifact where
  | unreadable (error : Str)
  | empty
  | malformed
  | value (v : Json)

/-- Read the restored report. The empty document stands for a report that was not accepted; the
errors then say why. -/
def readRuntimeDependencies (artifact : JsonArtifact) (f2pPlan p2pPlan : Obj) (identities : Json)
    (expectedImageId : Str) : Except PyErr (Obj × List Str) :=
  match artifact with
  | .unreadable error => .ok ([], [error])
  | .empty => .ok ([], [])
  | .malformed => .ok ([], ["unsafe:runtime_dependencies.json:invalid_json"])
  | .value (.dict report) => do
    if ← restoredReportValid env f2pPlan p2pPlan identities expectedImageId report then
      return (report, [])
    else return ([], ["unsafe:runtime_dependencies.json:invalid_integrity"])
  | .value _ => .ok ([], ["unsafe:runtime_dependencies.json:invalid_integrity"])

/-- The declarations that the report reader collects: every distinct dict of both plans. -/
def reportedSpecs (plans : List Json) : Except PyErr (List Json) :=
  match plans with
  | [] => .ok []
  | .dict plan :: rest => do
    let items ← iterOrEmpty (Obj.get plan "runtime_dependencies")
    return appendNew (appendNew [] (items.filter (·.asDict.isSome))) (← reportedSpecs rest)
  | _ :: rest => reportedSpecs rest

/-- The roots of the file declarations, which are put in a set. -/
def reportedFileRoots (specs : List Json) : Except PyErr (List Json) :=
  let roots := ((specs.filterMap Json.asDict).filter fun item =>
    (Obj.get item "kind").eqStr "file").map (Obj.get · "root")
  if roots.all Json.hashable then .ok (appendNew [] roots) else .error .typeError

/-- `d[key] = value`. -/
def setItem {β : Type} (dict : List (Json × β)) (key : Json) (value : β) : List (Json × β) :=
  if dict.any (·.1.pyEq key) then
    dict.map fun entry => if entry.1.pyEq key then (entry.1, value) else entry
  else dict ++ [(key, value)]

/-- A dict built from some keys and values in order. -/
def dictOf {β : Type} (entries : List (Json × β)) : List (Json × β) :=
  entries.foldl (fun dict entry => setItem dict entry.1 entry.2) []

/-- Two dicts have the same keys with the same values. -/
def sameDict (a b : List (Json × Str)) : Bool :=
  a.length == b.length &&
    a.all fun entry => b.any fun other => other.1.pyEq entry.1 && other.2 == entry.2

/-- `value in set` for a set of hashable values. -/
def inSet (value : Json) (set : List Json) : Except PyErr Bool :=
  if value.hashable then .ok (value.elem set) else .error .typeError

/-- The digest of an entry of the identity document, if the reader takes it. -/
def reportedIdentity (fileRoots : List Json) (item : Json) : Except PyErr (Option (Json × Str)) :=
  match item with
  | .dict item =>
    if !Obj.keysAre item ["root", "content_sha256"] then .ok none
    else do
      if !(← inSet (Obj.get item "root") fileRoots) then return none
      return (canonicalSha256 (Obj.get item "content_sha256")).map (Obj.get item "root", ·)
  | _ => .ok none

/-- The digest of a restored entry, if the reader takes it: an unprotected file. -/
def reportedFile (fileRoots : List Json) (item : Json) : Except PyErr (Option (Json × Str)) :=
  match item with
  | .dict item =>
    if !(Obj.get item "kind").eqStr "file" || !(Obj.get item "candidate_protected").isFalse then
      .ok none
    else do
      if !(← inSet (Obj.get item "root") fileRoots) then return none
      if !(Obj.get item "required_paths").pyEq (.list [Obj.get item "root"]) then return none
      return (canonicalSha256 (Obj.get item "content_sha256")).map (Obj.get item "root", ·)
  | _ => .ok none

/-- Whether an entry says that it is a file. -/
def isFileEntry (item : Json) : Bool :=
  match item with
  | .dict item => (Obj.get item "kind").eqStr "file"
  | _ => false

/-- `value or default` for a plan. -/
def planOr (expected : Option Json) (default : Json) : Json :=
  match expected with
  | some plan => if plan.truthy then plan else default
  | none => default

/-- The header of the identity document and of the restored report. -/
def reportedHeadersValid (payload : Obj) (identities runtime : Obj) (specs : List Json) : Bool :=
  let imageId := env.strOrEmpty (payload.get "eval_image_id")
  (identities.get "schema").eqStr "opencollab.runtime_dependency_identities.v1" &&
    (identities.get "image_id").eqStr imageId && isImageDigest imageId &&
    (runtime.get "schema").eqStr "opencollab.eval_runtime_dependencies.v1" &&
    (runtime.get "phase").eqStr "restored" &&
    (runtime.get "source").eqStr "pinned_image_runtime_with_trusted_public_preparation" &&
    (runtime.get "solver_visible").isFalse &&
    sha256Equal (runtime.get "spec_sha256") (.str (specSha256 env specs))

/-- What the report reader asks of the files among the restored dependencies. -/
def runtimeFileDependencyProof (payload testsStatus : Obj) (expectedF2pPlan expectedP2pPlan :
    Option Json) : Except PyErr Bool := do
  let specs ← reportedSpecs [planOr expectedF2pPlan (testsStatus.get "fail_to_pass_plan"),
    planOr expectedP2pPlan (testsStatus.get "pass_to_pass_plan")]
  let fileRoots ← reportedFileRoots specs
  if fileRoots.isEmpty then return true
  let some identities := (payload.get "runtime_dependency_identities").asDict | return false
  let some runtime := (payload.get "runtime_dependencies").asDict | return false
  let some identityItems := (Obj.get identities "entries").asList | return false
  let some runtimeItems := (Obj.get runtime "entries").asList | return false
  if !reportedHeadersValid env payload identities runtime specs || 16 < identityItems.length ||
      16 < runtimeItems.length then return false
  let hashes := dictOf ((← identityItems.mapM (reportedIdentity fileRoots)).filterMap id)
  if hashes.length != identityItems.length then return false
  let files := dictOf ((← runtimeItems.mapM (reportedFile fileRoots)).filterMap id)
  return files.length == (runtimeItems.filter isFileEntry).length && sameDict files hashes

end Readers

end OpenCollabEval
