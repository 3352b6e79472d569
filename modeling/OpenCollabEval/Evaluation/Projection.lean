import OpenCollabEval.Evaluation.RecordIdentity
import OpenCollabEval.Python.JsonText

/-!
# Candidate projections

The documents that bind a candidate patch to the tree it was evaluated on: what the evaluator
expected, the projection onto the source tree, the projection onto the prepared tree, and the report
of a patch that could not be applied.
-/

open Python

namespace OpenCollabEval

/-- The fields that identify a candidate and its evaluation base. -/
def identityKeys : List Str :=
  ["instance_id", "record_id", "run_identity_sha256", "source_patch_sha256", "eval_patch_sha256",
    "source_base_commit", "source_anonymous_base", "source_base_tree", "source_candidate_tree",
    "expected_candidate_tree"]

/-- The identity fields that are digests. -/
def sha256IdentityKeys : List Str :=
  ["run_identity_sha256", "source_patch_sha256", "eval_patch_sha256"]

/-- The keys of an expectation. -/
def expectationKeys : List Str := lit "schema" :: identityKeys

/-- The keys of a source projection. -/
def sourceProjectionKeys : List Str :=
  lits ["schema", "status", "verified_source_base_commit", "verified_source_anonymous_base",
    "verified_source_base_tree", "verified_source_candidate_tree", "generation_tree_matches"] ++
    identityKeys

/-- The keys of a projection of the first version. -/
def projectionV1Keys : List Str :=
  lits ["schema", "status", "base_commit", "base_tree", "candidate_tree", "generation_tree_matches"] ++
    identityKeys

/-- The keys of a projection of the second version. -/
def projectionV2Keys : List Str :=
  lits ["schema", "status", "source_projection_sha256", "verified_source_base_commit",
    "verified_source_anonymous_base", "verified_source_base_tree", "verified_source_candidate_tree",
    "prepared_base_commit", "prepared_base_tree", "prepared_candidate_tree",
    "worktree_candidate_tree", "generation_tree_matches", "official_worktree_matches"] ++
    identityKeys

/-- The keys of a failure report. -/
def projectionFailureKeys : List Str :=
  lits ["schema", "status", "error_kind", "phase", "verified_base_commit", "verified_base_tree",
    "source_projection_sha256"] ++ identityKeys

/-- `[0-9a-f]{40}` or `[0-9a-f]{64}`, matched in full. -/
def isOid (s : Str) : Bool := (s.length == 40 || s.length == 64) && s.all isLowerHex

/-- Whether a bound projection rejection proves candidate failure. -/
def candidateRejectionIsConclusive (report : Json) : Bool :=
  match report with
  | .dict entries =>
    (Obj.get entries "phase").eqStr "source" &&
      !(Obj.get entries "expected_candidate_tree").truthy
  | _ => false

section Validity

variable (env : Env)

/-- `str(o.get(key) or "")`. -/
def textOf (o : Obj) (key : Str) : Str := env.strOrEmpty (o.get key)

/-- An optional field of the expectation that the other value has to repeat. -/
def agreesIfSet (expectation : Obj) (key : Str) (value : Json) : Bool :=
  !(expectation.get key).truthy || value.pyEq (expectation.get key)

/-- Every identity field agrees, digests up to case. -/
def identityValuesMatch (left right : Obj) : Bool :=
  identityKeys.all fun key =>
    if sha256IdentityKeys.contains key then sha256Equal (left.get key) (right.get key)
    else (left.get key).pyEq (right.get key)

/-- An expectation: every identity field is text, digests and object ids are well formed, and the
three base fields are given together or not at all. -/
def expectationValid (value : Obj) : Bool :=
  value.keysAre expectationKeys &&
    (value.get "schema").eqStr "opencollab.eval_candidate_expectation.v1" &&
    identityKeys.all (fun key => (value.get key).asStr.isSome) &&
    (value.get "instance_id").truthy && (value.get "record_id").truthy &&
    sha256IdentityKeys.all (fun key => (canonicalSha256 (value.get key)).isSome) &&
    (identityKeys.drop 5).all (fun key =>
      let oid := textOf env value key
      oid.isEmpty || isOid oid) &&
    (value.get "source_base_commit").truthy == (value.get "source_anonymous_base").truthy &&
    (value.get "source_anonymous_base").truthy == (value.get "source_base_tree").truthy

/-- The canonical digest that a prepared projection stores for its source projection. -/
def sourceProjectionSha256 (value : Json) : Str :=
  env.sha256 (DumpFormat.sorted.dumps value ++ [10]).encodeSurrogatePass

/-- The commit that the solver saw for a tree. -/
def anonymousCommitOid (baseTree : Str) : Str :=
  let content := lit "tree " ++ baseTree ++
    lit "\nauthor OpenCollab Solver Snapshot <solver-snapshot@invalid> 946684800 +0000\n" ++
    lit "committer OpenCollab Solver Snapshot <solver-snapshot@invalid> 946684800 +0000\n\n" ++
    lit "solver snapshot\n"
  (if baseTree.length = 40 then env.sha1 else env.sha256)
    (lit "commit " ++ natStr content.length ++ [0] ++ content)

/-- The generation tree is compared exactly when the expectation names one. -/
def generationTreeOk (report : Obj) (candidate expectedTree : Str) : Bool :=
  if expectedTree.isEmpty then report.get "generation_tree_matches" matches .null
  else (report.get "generation_tree_matches").isTrue && candidate == expectedTree

/-- A projection onto the source tree, made before the public preparation. -/
def sourceProjectionValid (report expectation : Json) : Bool :=
  match report, expectation with
  | .dict report, .dict expectation =>
    let base := textOf env report "verified_source_base_tree"
    let candidate := textOf env report "verified_source_candidate_tree"
    let commit := textOf env report "verified_source_base_commit"
    let anonymous := textOf env report "verified_source_anonymous_base"
    expectationValid env expectation && Obj.keysAre report sourceProjectionKeys &&
      (Obj.get report "schema").eqStr "opencollab.eval_candidate_source_projection.v1" &&
      (Obj.get report "status").eqStr "verified" && identityValuesMatch report expectation &&
      [commit, anonymous, base, candidate].all isOid &&
      [anonymous, base, candidate].all (·.length == commit.length) &&
      anonymous == anonymousCommitOid env base && candidate != base &&
      agreesIfSet expectation "source_base_commit" (Obj.get report "verified_source_base_commit") &&
      agreesIfSet expectation "source_anonymous_base"
        (Obj.get report "verified_source_anonymous_base") &&
      agreesIfSet expectation "source_base_tree" (Obj.get report "verified_source_base_tree") &&
      generationTreeOk report candidate (textOf env expectation "expected_candidate_tree")
  | _, _ => false

/-- A projection of the first version, onto one tree. -/
def projectionV1Valid (report expectation : Obj) : Bool :=
  let base := textOf env report "base_tree"
  let candidate := textOf env report "candidate_tree"
  Obj.keysAre report projectionV1Keys && isOid (textOf env report "base_commit") && isOid base &&
    isOid candidate && candidate.length == base.length && candidate != base &&
    (!(Obj.get report "source_anonymous_base").truthy ||
      (Obj.get report "source_anonymous_base").pyEq (Obj.get report "base_commit")) &&
    (!(Obj.get report "source_base_tree").truthy ||
      (Obj.get report "source_base_tree").pyEq (Obj.get report "base_tree")) &&
    generationTreeOk report candidate (textOf env expectation "expected_candidate_tree")

/-- The fields of a projection that repeat its source projection. -/
def repeatedSourceKeys : List Str :=
  ["verified_source_base_commit", "verified_source_anonymous_base", "verified_source_base_tree",
    "verified_source_candidate_tree", "generation_tree_matches"]

/-- A projection of the second version, onto the source tree and the prepared tree. -/
def projectionV2Valid (report expectation : Obj) (sourceProjection : Json) : Bool :=
  let sourceBase := textOf env report "verified_source_base_tree"
  let sourceCandidate := textOf env report "verified_source_candidate_tree"
  let preparedBase := textOf env report "prepared_base_tree"
  let preparedCandidate := textOf env report "prepared_candidate_tree"
  sourceProjectionValid env sourceProjection (.dict expectation) &&
    Obj.keysAre report projectionV2Keys &&
    sha256Equal (Obj.get report "source_projection_sha256")
      (.str (sourceProjectionSha256 env sourceProjection)) &&
    [lit "verified_source_base_commit", "verified_source_anonymous_base",
      "verified_source_base_tree", "verified_source_candidate_tree", "prepared_base_commit",
      "prepared_base_tree", "prepared_candidate_tree", "worktree_candidate_tree"].all
        (fun key => isOid (textOf env report key)) &&
    sourceCandidate.length == sourceBase.length &&
    preparedCandidate.length == preparedBase.length && sourceCandidate != sourceBase &&
    preparedCandidate != preparedBase &&
    (Obj.get report "worktree_candidate_tree").eqStr preparedCandidate &&
    (Obj.get report "official_worktree_matches").isTrue &&
    agreesIfSet expectation "source_base_commit" (Obj.get report "verified_source_base_commit") &&
    agreesIfSet expectation "source_anonymous_base"
      (Obj.get report "verified_source_anonymous_base") &&
    agreesIfSet expectation "source_base_tree" (Obj.get report "verified_source_base_tree") &&
    generationTreeOk report sourceCandidate (textOf env expectation "expected_candidate_tree") &&
    repeatedSourceKeys.all fun key =>
      match sourceProjection with
      | .dict source => (Obj.get report key).pyEq (Obj.get source key)
      | _ => false

/-- A complete projection of either version. -/
def candidateProjectionValid (report expectation sourceProjection : Json) : Bool :=
  match report, expectation with
  | .dict report, .dict expectation =>
    expectationValid env expectation && (Obj.get report "status").eqStr "verified" &&
      identityValuesMatch report expectation &&
      if (Obj.get report "schema").eqStr "opencollab.eval_candidate_projection.v1" then
        projectionV1Valid env report expectation
      else (Obj.get report "schema").eqStr "opencollab.eval_candidate_projection.v2" &&
        projectionV2Valid env report expectation sourceProjection
  | _, _ => false

/-- A report that the patch does not apply, bound to the tree it was tried on. -/
def candidateProjectionFailureValid (report expectation sourceProjection : Json)
    (baseCommit baseTree : Str) : Except PyErr Bool :=
  match report, expectation with
  | .dict report, .dict expectation =>
    if !expectationValid env expectation || !Obj.keysAre report projectionFailureKeys ||
        !(Obj.get report "schema").eqStr "opencollab.eval_candidate_projection_failure.v1" ||
        !(Obj.get report "status").eqStr "failed" ||
        !(Obj.get report "error_kind").eqStr "patch_not_applicable" then .ok false
    else do
      if !(← (Obj.get report "phase").inStrSet ["source", "prepared"]) then return false
      let commit := textOf env report "verified_base_commit"
      let tree := textOf env report "verified_base_tree"
      if !identityValuesMatch report expectation || !isOid commit || !isOid tree ||
          commit.length != tree.length then return false
      if (Obj.get report "phase").eqStr "source" then
        return (Obj.get report "source_projection_sha256").eqStr "" && isOid baseCommit &&
          isOid baseTree && commit == baseCommit && tree == baseTree &&
          agreesIfSet expectation "source_base_commit" (.str commit) &&
          agreesIfSet expectation "source_base_tree" (.str tree)
      else
        return sourceProjectionValid env sourceProjection (.dict expectation) &&
          sha256Equal (Obj.get report "source_projection_sha256")
            (.str (sourceProjectionSha256 env sourceProjection)) &&
          (baseCommit.isEmpty || commit == baseCommit) && (baseTree.isEmpty || tree == baseTree)
  | _, _ => .ok false

end Validity

end OpenCollabEval
