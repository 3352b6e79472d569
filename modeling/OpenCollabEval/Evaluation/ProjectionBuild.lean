import OpenCollabEval.Evaluation.Projection
import OpenCollabEval.Python.JsonDocument

/-!
# Building candidate projections

What runs inside the evaluation container: the patch is applied to the source tree and to the prepared
tree, the files of the worktree are hashed, and each step writes the document that the host validates
later. Git is a function of the tree and the patch.
-/

open Python

namespace OpenCollabEval

/-- What the builders take from Git. Object ids are well formed and of one length. -/
structure Git where
  /-- The commit and the tree that a name resolves to. -/
  resolve : Str → Option (Str × Str)
  /-- The tree of a patch applied to a tree, `none` when it does not apply. -/
  apply : Str → List Nat → Option Str
  /-- The tree of a base with the worktree's files in the places that a candidate changes, `none` when
  a file cannot be hashed or is not the candidate's. -/
  worktree : Str → Str → Option Str
  resolve_wellFormed : ∀ {name commit tree}, resolve name = some (commit, tree) →
    isOid commit = true ∧ isOid tree = true ∧ commit.length = tree.length
  apply_wellFormed : ∀ {tree patch candidate}, isOid tree = true →
    apply tree patch = some candidate → isOid candidate = true ∧ candidate.length = tree.length

/-- `CandidateProjectionError`, and the exceptions of reading JSON that are not turned into one. -/
inductive ProjectionError where
  | failed (message : Str)
  | notApplicable (baseCommit baseTree : Str) (failureReport : Option Obj)
  | python (e : PyErr)

/-- The message of an error. -/
def ProjectionError.message : ProjectionError → Str
  | .failed message => message
  | .notApplicable .. => "candidate patch does not apply to the verified base"
  | .python _ => []

/-- `error_kind`. -/
def ProjectionError.errorKind : ProjectionError → Str
  | .notApplicable .. => "patch_not_applicable"
  | _ => "projection_runtime_error"

/-- A check that raises `CandidateProjectionError`. -/
def refuseIf (condition : Bool) (message : String) : Except ProjectionError Unit :=
  if condition then .error (.failed message) else .ok ()

/-- A document that carries the fields of the expectation between its own. -/
def boundDocument (before : Obj) (expectation : Obj) (after : Obj) : Obj :=
  Obj.ofPairs (before ++ expectation.filter (·.1 != lit "schema") ++ after)

/-- `_projection_failure`. -/
def projectionFailure (expectation : Obj) (phase baseCommit baseTree sourceDigest : Str) : Obj :=
  boundDocument (Obj.of [("schema", "opencollab.eval_candidate_projection_failure.v1"),
      ("status", "failed"), ("error_kind", "patch_not_applicable"), ("phase", .str phase)])
    expectation
    (Obj.of [("verified_base_commit", .str baseCommit), ("verified_base_tree", .str baseTree),
      ("source_projection_sha256", .str sourceDigest)])

/-- A rejected patch gets its failure report. -/
def withFailureReport {α : Type} (expectation : Obj) (phase sourceDigest : Str) :
    Except ProjectionError α → Except ProjectionError α
  | .error (.notApplicable commit tree _) => .error (.notApplicable commit tree
      (some (projectionFailure expectation phase commit tree sourceDigest)))
  | result => result

/-- `project_candidate`. -/
def projectCandidate (git : Git) (base : Str) (patch : List Nat) :
    Except ProjectionError (Str × Str × Str) :=
  match git.resolve base with
  | none => .error (.failed "candidate projection Git command failed")
  | some (commit, tree) =>
    match git.apply tree patch with
    | none => .error (.notApplicable commit tree none)
    | some candidate =>
      if !isOid tree || !isOid candidate then
        .error (.failed "candidate projection returned an invalid tree identity")
      else .ok (commit, tree, candidate)

/-- A document as `main` writes it. -/
def writtenDocument (document : Obj) : Str := DumpFormat.sorted.dumps (.dict document) ++ [10]

section Building

variable (env : Env) (depth : Nat)

/-- `json.loads` of a file, `none` for one that cannot be read as text. -/
def readDocument (text : Option Str) (message : String) : Except ProjectionError Json :=
  match text.map (loads depth) with
  | some (.ok value) => .ok value
  | none | some (.error .jsonDecodeError) => .error (.failed message)
  | some (.error e) => .error (.python e)

/-- `_read_expectation`. -/
def readExpectation (text : Option Str) : Except ProjectionError Obj := do
  match ← readDocument depth text "candidate expectation is unreadable" with
  | .dict expectation =>
    refuseIf (!Obj.keysAre expectation expectationKeys) "candidate expectation has an invalid shape"
    refuseIf (!expectationValid env expectation)
      "candidate expectation contains an invalid identity"
    return expectation
  | _ => .error (.failed "candidate expectation has an invalid shape")

/-- The patch is the one that the expectation names. -/
def checkPatch (expectation : Obj) (patch : List Nat) : Except ProjectionError Unit :=
  refuseIf (!sha256Equal (.str (env.sha256 patch)) (expectation.get "eval_patch_sha256"))
    "evaluation patch SHA-256 does not match its expectation"

/-- The document of a source projection. -/
def sourceDocument (expectation : Obj) (commit anonymous tree candidate : Str) : Obj :=
  boundDocument (Obj.of [("schema", "opencollab.eval_candidate_source_projection.v1"),
      ("status", "verified")])
    expectation
    (Obj.of [("verified_source_base_commit", .str commit),
      ("verified_source_anonymous_base", .str anonymous),
      ("verified_source_base_tree", .str tree),
      ("verified_source_candidate_tree", .str candidate),
      ("generation_tree_matches", if (expectation.get "expected_candidate_tree").truthy
        then .bool ((Json.str candidate).pyEq (expectation.get "expected_candidate_tree"))
        else .null)])

/-- `build_source_projection`. -/
def buildSourceProjection (git : Git) (base : Str) (patch : List Nat) (expectationText : Option Str)
    (declaredBase : Option Str) : Except ProjectionError Obj := do
  let expectation ← readExpectation env depth expectationText
  checkPatch env expectation patch
  let (commit, tree, candidate) ←
    withFailureReport expectation "source" [] (projectCandidate git base patch)
  let declared := env.lower (Str.strip ((declaredBase.filter (!·.isEmpty)).getD commit))
  refuseIf (!isOid declared) "declared evaluation base commit is invalid"
  refuseIf (!agreesIfSet expectation "source_base_commit" (.str declared))
    "evaluation base commit differs from generation"
  refuseIf (!agreesIfSet expectation "source_base_commit" (.str commit))
    "evaluation source base differs from generation"
  let anonymous := anonymousCommitOid env tree
  refuseIf (!agreesIfSet expectation "source_anonymous_base" (.str anonymous))
    "evaluation anonymous base differs from generation"
  refuseIf (!agreesIfSet expectation "source_base_tree" (.str tree))
    "evaluation base tree differs from generation"
  refuseIf (!agreesIfSet expectation "expected_candidate_tree" (.str candidate))
    "evaluation candidate tree differs from generation"
  return sourceDocument expectation commit anonymous tree candidate

/-- `_read_source_projection`, with the digest that it adds. -/
def readSourceProjection (text : Option Str) (expectation : Obj) :
    Except ProjectionError (Obj × Str) := do
  let value ← readDocument depth text "source candidate projection is unreadable"
  refuseIf (!sourceProjectionValid env value (.dict expectation))
    "source candidate projection identity is invalid"
  return (value.asDict.getD [], sourceProjectionSha256 env value)

/-- The document of a prepared projection. -/
def preparedDocument (expectation source : Obj) (digest commit tree candidate : Str) : Obj :=
  boundDocument (Obj.of [("schema", "opencollab.eval_candidate_projection.v2"),
      ("status", "prepared")])
    expectation
    (Obj.of [("source_projection_sha256", .str digest),
      ("verified_source_base_commit", source.get "verified_source_base_commit"),
      ("verified_source_anonymous_base", source.get "verified_source_anonymous_base"),
      ("verified_source_base_tree", source.get "verified_source_base_tree"),
      ("verified_source_candidate_tree", source.get "verified_source_candidate_tree"),
      ("prepared_base_commit", .str commit), ("prepared_base_tree", .str tree),
      ("prepared_candidate_tree", .str candidate), ("worktree_candidate_tree", ""),
      ("generation_tree_matches", source.get "generation_tree_matches"),
      ("official_worktree_matches", .null)])

/-- `build_prepared_projection`. -/
def buildPreparedProjection (git : Git) (preparedBase : Str) (patch : List Nat)
    (expectationText sourceText : Option Str) : Except ProjectionError Obj := do
  let expectation ← readExpectation env depth expectationText
  checkPatch env expectation patch
  let (source, digest) ← readSourceProjection env depth sourceText expectation
  let (commit, tree, candidate) ←
    withFailureReport expectation "prepared" digest (projectCandidate git preparedBase patch)
  return preparedDocument expectation source digest commit tree candidate

/-- The prepared projection with the worktree's tree. -/
def verifiedDocument (prepared : Obj) (worktree : Str) : Obj :=
  ((prepared.set "status" "verified").set "worktree_candidate_tree" (.str worktree)).set
    "official_worktree_matches" (.bool true)

/-- `verify_prepared_worktree`. -/
def verifyPreparedWorktree (git : Git) (patch : List Nat) (preparedText : Option Str) :
    Except ProjectionError Obj := do
  let value ← readDocument depth preparedText "prepared candidate projection is unreadable"
  let prepared := value.asDict.getD []
  refuseIf (value.asDict.isNone ||
      !(prepared.get "schema").eqStr "opencollab.eval_candidate_projection.v2" ||
      !(prepared.get "status").eqStr "prepared" ||
      !sha256Equal (.str (env.sha256 patch)) (prepared.get "eval_patch_sha256") ||
      !isOid (textOf env prepared "prepared_base_tree") ||
      !isOid (textOf env prepared "prepared_candidate_tree"))
    "prepared candidate projection identity is invalid"
  match (prepared.get "prepared_base_tree").asStr,
      (prepared.get "prepared_candidate_tree").asStr with
  | some base, some candidate =>
    match git.worktree base candidate with
    | none => .error (.failed "candidate projection Git command failed")
    | some worktree =>
      refuseIf (worktree != candidate) "official worktree differs from the prepared candidate"
      return verifiedDocument prepared worktree
  -- a tree that is no text is no argument of a command
  | _, _ => .error (.python .typeError)

/-- `prepared_candidate_projection_valid`. -/
def preparedCandidateProjectionValid (report expectation sourceProjection : Json) : Bool :=
  match report, expectation, sourceProjection with
  | .dict report, .dict expectation, .dict source =>
    let sourceBase := textOf env report "verified_source_base_tree"
    let sourceCandidate := textOf env report "verified_source_candidate_tree"
    let preparedBase := textOf env report "prepared_base_tree"
    let preparedCandidate := textOf env report "prepared_candidate_tree"
    expectationValid env expectation &&
      sourceProjectionValid env (.dict source) (.dict expectation) &&
      Obj.keysAre report projectionV2Keys &&
      (Obj.get report "schema").eqStr "opencollab.eval_candidate_projection.v2" &&
      (Obj.get report "status").eqStr "prepared" && identityValuesMatch report expectation &&
      sha256Equal (Obj.get report "source_projection_sha256")
        (.str (sourceProjectionSha256 env (.dict source))) &&
      (Obj.get report "worktree_candidate_tree").eqStr "" &&
      (Obj.get report "official_worktree_matches" matches .null) &&
      [lit "verified_source_base_commit", "verified_source_anonymous_base",
        "verified_source_base_tree", "verified_source_candidate_tree", "prepared_base_commit",
        "prepared_base_tree", "prepared_candidate_tree"].all
          (fun key => isOid (textOf env report key)) &&
      sourceCandidate.length == sourceBase.length &&
      preparedCandidate.length == preparedBase.length && sourceCandidate != sourceBase &&
      preparedCandidate != preparedBase &&
      repeatedSourceKeys.all fun key => (Obj.get report key).pyEq (Obj.get source key)
  | _, _, _ => false

end Building

end OpenCollabEval
