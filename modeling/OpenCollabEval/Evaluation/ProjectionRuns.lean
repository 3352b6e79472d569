import OpenCollabEval.Evaluation.ProjectionAgreement

/-!
# Runs of the projection builders

What a builder has checked when it returns a document or a failure report, and what the validators
make of the files that it writes.
-/

open Python

namespace OpenCollabEval

section Checks

variable {α : Type} {x : Except ProjectionError α} {a : α} {commit tree : Str}
  {report : Option Obj}

theorem refuseIf_bind_eq_ok_iff {condition : Bool} {message : String}
    {next : Unit → Except ProjectionError α} :
    (refuseIf condition message >>= next) = .ok a ↔ condition = false ∧ next () = .ok a := by
  cases condition <;> simp [refuseIf]

/-- A check never reports a rejected patch. -/
theorem refuseIf_bind_eq_notApplicable_iff {condition : Bool} {message : String}
    {next : Unit → Except ProjectionError α} :
    (refuseIf condition message >>= next) = .error (.notApplicable commit tree report) ↔
      condition = false ∧ next () = .error (.notApplicable commit tree report) := by
  cases condition <;> simp [refuseIf]

theorem withFailureReport_eq_ok_iff {expectation : Obj} {phase digest : Str} :
    withFailureReport expectation phase digest x = .ok a ↔ x = .ok a := by
  rcases x with e | b
  · cases e <;> simp [withFailureReport]
  · simp [withFailureReport]

theorem withFailureReport_eq_notApplicable {expectation : Obj} {phase digest : Str}
    (h : withFailureReport expectation phase digest x = .error (.notApplicable commit tree report)) :
    (∃ given, x = .error (.notApplicable commit tree given)) ∧
      report = some (projectionFailure expectation phase commit tree digest) := by
  rcases x with e | b
  · cases e with
    | notApplicable commit' tree' given =>
      simp only [withFailureReport, Except.error.injEq, ProjectionError.notApplicable.injEq] at h
      obtain ⟨rfl, rfl, rfl⟩ := h
      exact ⟨⟨given, rfl⟩, rfl⟩
    | _ => simp [withFailureReport] at h
  · simp [withFailureReport] at h

end Checks

section Projecting

variable {git : Git} {base commit tree candidate : Str} {patch : List Nat}

/-- The tree that the patch gives differs from the tree that it is applied to. -/
def Git.Changes (git : Git) (base : Str) (patch : List Nat) : Prop :=
  ∀ commit tree, git.resolve base = some (commit, tree) → git.apply tree patch ≠ some tree

theorem projectCandidate_eq_ok
    (h : projectCandidate git base patch = .ok (commit, tree, candidate)) :
    git.resolve base = some (commit, tree) ∧ git.apply tree patch = some candidate := by
  unfold projectCandidate at h
  split at h
  next => simp at h
  next hresolve =>
    split at h
    next => simp at h
    next happly =>
      split at h
      next => simp at h
      next =>
        cases h
        exact ⟨hresolve, happly⟩

theorem projectCandidate_eq_notApplicable {report : Option Obj}
    (h : projectCandidate git base patch = .error (.notApplicable commit tree report)) :
    git.resolve base = some (commit, tree) := by
  unfold projectCandidate at h
  split at h
  next => simp at h
  next hresolve =>
    split at h
    next =>
      cases h
      exact hresolve
    next => split at h <;> simp at h

/-- A patch changes the tree of a base exactly when it gives another tree. -/
theorem Git.changes_iff (hresolve : git.resolve base = some (commit, tree))
    (happly : git.apply tree patch = some candidate) :
    git.Changes base patch ↔ candidate ≠ tree := by
  constructor
  · rintro h rfl
    exact h _ _ hresolve happly
  · rintro hne commit' tree' hresolve' happly'
    cases hresolve.symm.trans hresolve'
    exact hne (Option.some.inj (happly.symm.trans happly'))

end Projecting

section Reading

variable {env : Env} {depth : Nat} {expectation : Obj} {text : Str}

/-- A valid expectation is read. -/
theorem readExpectation_of_loads (hloads : loads depth text = .ok (.dict expectation))
    (hvalid : expectationValid env expectation = true) :
    readExpectation env depth (some text) = .ok expectation := by
  simp [readExpectation, readDocument, hloads, keys_of_valid hvalid, hvalid, refuseIf]

/-- A flat document that was written is read with its keys in order. -/
theorem loads_writtenDocument {document : Obj} (h : document.Flat) :
    loads (depth + 1) (writtenDocument document) =
      .ok (.dict (DumpFormat.sorted.arrange document)) :=
  h.loads_dumps depth (by decide)

theorem readDocument_written {document : Obj} (h : document.Flat) (message : String) :
    readDocument (depth + 1) (some (writtenDocument document)) message =
      .ok (.dict (DumpFormat.sorted.arrange document)) := by
  simp [readDocument, loads_writtenDocument h]

end Reading

section SourceRun

variable {env : Env} {depth : Nat} {git : Git} {base : Str} {patch : List Nat} {text : Option Str}
  {declaredBase : Option Str} {expectation : Obj}

/-- What a builder has checked when it returns a source projection. -/
theorem sourceChecked_of_built (hread : readExpectation env depth text = .ok expectation)
    {document : Obj}
    (h : buildSourceProjection env depth git base patch text declaredBase = .ok document) :
    ∃ commit tree candidate, git.resolve base = some (commit, tree) ∧
      git.apply tree patch = some candidate ∧
      SourceChecked env expectation commit tree candidate ∧
      document = sourceDocument expectation commit (anonymousCommitOid env tree) tree candidate := by
  rw [buildSourceProjection, hread, ok_bind] at h
  obtain ⟨_, -, h⟩ := bind_eq_ok_iff.mp h
  obtain ⟨⟨commit, tree, candidate⟩, hproject, h⟩ := bind_eq_ok_iff.mp h
  obtain ⟨hresolve, happly⟩ := projectCandidate_eq_ok (withFailureReport_eq_ok_iff.mp hproject)
  simp only [refuseIf_bind_eq_ok_iff, pure_eq_ok, Except.ok.injEq, Bool.not_eq_false'] at h
  obtain ⟨-, -, hcommit, hanonymous, htree, hexpected, rfl⟩ := h
  obtain ⟨hcommitOid, htreeOid, hlength⟩ := git.resolve_wellFormed hresolve
  obtain ⟨hcandidateOid, hcandidateLength⟩ := git.apply_wellFormed htreeOid happly
  exact ⟨commit, tree, candidate, hresolve, happly, ⟨hcommitOid, htreeOid, hcandidateOid, hlength,
    hcandidateLength, hcommit, hanonymous, htree, hexpected⟩, rfl⟩

/-- The failure report of a patch that the source tree rejects. -/
theorem sourceFailure_of_built (hread : readExpectation env depth text = .ok expectation)
    {commit tree : Str} {report : Obj}
    (h : buildSourceProjection env depth git base patch text declaredBase =
      .error (.notApplicable commit tree (some report))) :
    git.resolve base = some (commit, tree) ∧
      report = projectionFailure expectation "source" commit tree [] := by
  rw [buildSourceProjection, hread, ok_bind, checkPatch, refuseIf_bind_eq_notApplicable_iff] at h
  obtain ⟨-, h⟩ := h
  rcases hproject : withFailureReport expectation "source" [] (projectCandidate git base patch) with
    e | ⟨commit', tree', candidate⟩
  · rw [hproject, error_bind] at h
    cases h
    obtain ⟨⟨given, hgiven⟩, heq⟩ := withFailureReport_eq_notApplicable hproject
    exact ⟨projectCandidate_eq_notApplicable hgiven, Option.some.inj heq⟩
  · rw [hproject, ok_bind] at h
    simp [refuseIf_bind_eq_notApplicable_iff] at h

end SourceRun

section PreparedRun

variable {env : Env} {depth : Nat} {git : Git} {base : Str} {patch : List Nat} {text : Option Str}
  {expectation source : Obj}

/-- The source projection that a builder reads, which it has found valid. -/
theorem readSourceProjection_of_written (hflat : source.Flat) {read : Obj × Str}
    (h : readSourceProjection env (depth + 1) (some (writtenDocument source)) expectation =
      .ok read) :
    sourceProjectionValid env (.dict (DumpFormat.sorted.arrange source)) (.dict expectation) = true ∧
      read = (DumpFormat.sorted.arrange source,
        sourceProjectionSha256 env (.dict (DumpFormat.sorted.arrange source))) := by
  rw [readSourceProjection, readDocument_written hflat, ok_bind, refuseIf_bind_eq_ok_iff] at h
  obtain ⟨hvalid, h⟩ := h
  cases h
  exact ⟨by simpa using hvalid, rfl⟩

theorem readSourceProjection_ne_notApplicable (hflat : source.Flat) {commit tree : Str}
    {report : Option Obj} :
    readSourceProjection env (depth + 1) (some (writtenDocument source)) expectation ≠
      .error (.notApplicable commit tree report) := by
  intro h
  rw [readSourceProjection, readDocument_written hflat, ok_bind,
    refuseIf_bind_eq_notApplicable_iff] at h
  simp at h

/-- What a builder has checked when it returns a prepared projection. -/
theorem preparedChecked_of_built (hshapes : DigestShapes env) (hflat : source.Flat)
    (hread : readExpectation env (depth + 1) text = .ok expectation) {document : Obj}
    (h : buildPreparedProjection env (depth + 1) git base patch text
      (some (writtenDocument source)) = .ok document) :
    sourceProjectionValid env (.dict (DumpFormat.sorted.arrange source)) (.dict expectation) = true ∧
      ∃ commit tree candidate, git.resolve base = some (commit, tree) ∧
        git.apply tree patch = some candidate ∧
        PreparedChecked (sourceProjectionSha256 env (.dict (DumpFormat.sorted.arrange source)))
          commit tree candidate ∧
        document = preparedDocument expectation (DumpFormat.sorted.arrange source)
          (sourceProjectionSha256 env (.dict (DumpFormat.sorted.arrange source))) commit tree
          candidate := by
  rw [buildPreparedProjection, hread, ok_bind] at h
  obtain ⟨_, -, h⟩ := bind_eq_ok_iff.mp h
  obtain ⟨read, hsource, h⟩ := bind_eq_ok_iff.mp h
  obtain ⟨hvalid, rfl⟩ := readSourceProjection_of_written hflat hsource
  obtain ⟨⟨commit, tree, candidate⟩, hproject, h⟩ := bind_eq_ok_iff.mp h
  obtain ⟨hresolve, happly⟩ := projectCandidate_eq_ok (withFailureReport_eq_ok_iff.mp hproject)
  cases h
  obtain ⟨hcommitOid, htreeOid, -⟩ := git.resolve_wellFormed hresolve
  obtain ⟨hcandidateOid, hlength⟩ := git.apply_wellFormed htreeOid happly
  exact ⟨hvalid, commit, tree, candidate, hresolve, happly,
    ⟨hshapes.sha256 _, hcommitOid, htreeOid, hcandidateOid, hlength⟩, rfl⟩

/-- The failure report of a patch that the prepared tree rejects. -/
theorem preparedFailure_of_built (hflat : source.Flat)
    (hread : readExpectation env (depth + 1) text = .ok expectation) {commit tree : Str}
    {report : Obj}
    (h : buildPreparedProjection env (depth + 1) git base patch text
      (some (writtenDocument source)) = .error (.notApplicable commit tree (some report))) :
    sourceProjectionValid env (.dict (DumpFormat.sorted.arrange source)) (.dict expectation) = true ∧
      git.resolve base = some (commit, tree) ∧
      report = projectionFailure expectation "prepared" commit tree
        (sourceProjectionSha256 env (.dict (DumpFormat.sorted.arrange source))) := by
  rw [buildPreparedProjection, hread, ok_bind, checkPatch, refuseIf_bind_eq_notApplicable_iff] at h
  obtain ⟨-, h⟩ := h
  rcases hsource : readSourceProjection env (depth + 1) (some (writtenDocument source)) expectation
    with e | read
  · rw [hsource, error_bind] at h
    cases h
    exact absurd hsource (readSourceProjection_ne_notApplicable hflat)
  · obtain ⟨hvalid, rfl⟩ := readSourceProjection_of_written hflat hsource
    rw [hsource, ok_bind] at h
    rcases hproject : withFailureReport expectation "prepared"
        (sourceProjectionSha256 env (.dict (DumpFormat.sorted.arrange source)))
        (projectCandidate git base patch) with e | ⟨commit', tree', candidate⟩
    · simp only [hproject, error_bind] at h
      cases h
      obtain ⟨⟨given, hgiven⟩, heq⟩ := withFailureReport_eq_notApplicable hproject
      exact ⟨hvalid, projectCandidate_eq_notApplicable hgiven, Option.some.inj heq⟩
    · simp [hproject] at h

variable {prepared : Obj} {digest commit tree candidate : Str}

/-- The document of a worktree that holds the prepared candidate. -/
theorem verifiedDocument_of_verified (hflat : prepared.Flat)
    (hprepared : IsProjection expectation source digest commit tree candidate "prepared" "" .null
      (DumpFormat.sorted.arrange prepared)) {document : Obj}
    (h : verifyPreparedWorktree env (depth + 1) git patch (some (writtenDocument prepared)) =
      .ok document) :
    document = verifiedDocument (DumpFormat.sorted.arrange prepared) candidate := by
  rw [verifyPreparedWorktree, readDocument_written hflat, ok_bind] at h
  simp only [refuseIf_bind_eq_ok_iff, Json.asDict, Option.getD_some, hprepared.treeField,
    hprepared.candidateField, Json.asStr] at h
  obtain ⟨-, h⟩ := h
  split at h
  next => simp at h
  next worktree _ =>
    rw [refuseIf_bind_eq_ok_iff] at h
    obtain ⟨hsame, h⟩ := h
    cases h
    rw [bne_eq_false_iff_eq] at hsame
    rw [hsame]

/-- The verified document is the prepared one with three fields set. -/
theorem isProjection_of_verified (hflat : prepared.Flat) (hcandidate : isOid candidate = true)
    (hprepared : IsProjection expectation source digest commit tree candidate "prepared" "" .null
      prepared) :
    (verifiedDocument prepared candidate).Flat ∧
      IsProjection expectation source digest commit tree candidate "verified" (.str candidate)
        (.bool true) (DumpFormat.sorted.arrange (verifiedDocument prepared candidate)) := by
  have hhas : ∀ key ∈ projectionV2Keys, Obj.has prepared key = true := fun key hkey =>
    Obj.has_iff_mem.mpr ((Obj.keysAre_iff.mp hprepared.keys key).mpr hkey)
  have hstatus := hhas "status" (by decide)
  have hworktree : (prepared.set "status" "verified").has "worktree_candidate_tree" = true :=
    (Obj.has_set hstatus _).trans (hhas _ (by decide))
  have hofficial : ((prepared.set "status" "verified").set "worktree_candidate_tree"
      (.str candidate)).has "official_worktree_matches" = true :=
    (Obj.has_set hworktree _).trans ((Obj.has_set hstatus _).trans (hhas _ (by decide)))
  have hverified : (verifiedDocument prepared candidate).Flat :=
    ((hflat.set hstatus (.str _ (Str.readable_of_small (by decide)))).set hworktree
      (flat_of_isOid hcandidate)).set hofficial (.bool true)
  have hget : ∀ key, Obj.get (DumpFormat.sorted.arrange (verifiedDocument prepared candidate)) key =
      if key = lit "official_worktree_matches" then .bool true
      else if key = lit "worktree_candidate_tree" then .str candidate
      else if key = lit "status" then .str "verified" else prepared.get key := by
    intro key
    rw [hverified.get_arrange, verifiedDocument, Obj.get_set hofficial, Obj.get_set hworktree,
      Obj.get_set hstatus]
  have hother : ∀ key, key ∉ lits ["official_worktree_matches", "worktree_candidate_tree",
      "status"] → Obj.get (DumpFormat.sorted.arrange (verifiedDocument prepared candidate)) key =
        prepared.get key := by
    intro key hkey
    simp only [lits, List.map_cons, List.map_nil, List.mem_cons, List.not_mem_nil, or_false,
      not_or] at hkey
    rw [hget, if_neg hkey.1, if_neg hkey.2.1, if_neg hkey.2.2]
  have hkeys : ∀ key, key ∈ (verifiedDocument prepared candidate).map (·.1) ↔
      key ∈ prepared.map (·.1) := fun key => by
    rw [verifiedDocument, Obj.keys_set hofficial, Obj.keys_set hworktree, Obj.keys_set hstatus]
  refine ⟨hverified, ?_, (hother _ (by decide)).trans hprepared.schema, hget _, fun key hkey => ?_,
    (hother _ (by decide)).trans hprepared.digestField, fun key hkey => ?_,
    (hother _ (by decide)).trans hprepared.commitField,
    (hother _ (by decide)).trans hprepared.treeField,
    (hother _ (by decide)).trans hprepared.candidateField, hget _, hget _⟩
  · rw [hverified.keysAre_arrange, Obj.keysAre_iff]
    exact fun key => (hkeys key).trans (Obj.keysAre_iff.mp hprepared.keys key)
  · have hfresh : ∀ key ∈ identityKeys, key ∉ lits ["official_worktree_matches",
        "worktree_candidate_tree", "status"] := by decide
    exact (hother key (hfresh key hkey)).trans (hprepared.identity key hkey)
  · have hfresh : ∀ key ∈ repeatedSourceKeys, key ∉ lits ["official_worktree_matches",
        "worktree_candidate_tree", "status"] := by decide
    exact (hother key (hfresh key hkey)).trans (hprepared.repeated key hkey)

end PreparedRun

section Failure

variable {env : Env} {expectation : Obj} {phase commit tree digest : Str}

/-- The fields of a failure report that a builder raised. -/
structure IsProjectionFailure (expectation : Obj) (phase commit tree digest : Str) (report : Obj) :
    Prop where
  keys : Obj.keysAre report projectionFailureKeys = true
  schema : report.get "schema" = .str "opencollab.eval_candidate_projection_failure.v1"
  status : report.get "status" = .str "failed"
  errorKind : report.get "error_kind" = .str "patch_not_applicable"
  phaseField : report.get "phase" = .str phase
  identity : ∀ key ∈ identityKeys, report.get key = expectation.get key
  commitField : report.get "verified_base_commit" = .str commit
  treeField : report.get "verified_base_tree" = .str tree
  digestField : report.get "source_projection_sha256" = .str digest

theorem failureOwn (hphase : (Json.str phase).Flat) (hcommit : isOid commit = true)
    (htree : isOid tree = true) (hdigest : (Json.str digest).Flat) :
    OwnFields (Obj.of [("schema", "opencollab.eval_candidate_projection_failure.v1"),
        ("status", "failed"), ("error_kind", "patch_not_applicable"), ("phase", .str phase)])
      (Obj.of [("verified_base_commit", .str commit), ("verified_base_tree", .str tree),
        ("source_projection_sha256", .str digest)]) := by
  have hliteral : ∀ s : String, (∀ c ∈ lit s, c < 128) → (Json.str s).Flat :=
    fun s hs => .str _ (Str.readable_of_small hs)
  refine @ownFields_of _ _ ["schema", "status", "error_kind", "phase", "verified_base_commit",
    "verified_base_tree", "source_projection_sha256"] (by simp [lits]) (by decide) (by decide)
    (by decide) ?_
  intro entry hentry
  simp only [Obj.of_cons, Obj.of_nil, List.cons_append, List.nil_append, List.mem_cons,
    List.not_mem_nil, or_false] at hentry
  rcases hentry with rfl | rfl | rfl | rfl | rfl | rfl | rfl
  · exact hliteral _ (by decide)
  · exact hliteral _ (by decide)
  · exact hliteral _ (by decide)
  · exact hphase
  · exact flat_of_isOid hcommit
  · exact flat_of_isOid htree
  · exact hdigest

/-- A failure report has its fields when it is raised and when it is read back. -/
theorem isProjectionFailure_of_built (hreads : ReadsExpectation env expectation)
    (hphase : (Json.str phase).Flat) (hcommit : isOid commit = true) (htree : isOid tree = true)
    (hdigest : (Json.str digest).Flat) :
    (projectionFailure expectation phase commit tree digest).Flat ∧
      IsProjectionFailure expectation phase commit tree digest
        (projectionFailure expectation phase commit tree digest) ∧
      IsProjectionFailure expectation phase commit tree digest (DumpFormat.sorted.arrange
        (projectionFailure expectation phase commit tree digest)) := by
  have hown := failureOwn hphase hcommit htree hdigest
  have hflat := boundDocument_flat hreads hown
  have hfields : ∀ report : Obj,
      (∀ key, report.get key = Obj.get (projectionFailure expectation phase commit tree digest) key) →
      (∀ keys, report.keysAre keys =
        Obj.keysAre (projectionFailure expectation phase commit tree digest) keys) →
      IsProjectionFailure expectation phase commit tree digest report := by
    intro report hget hkeys
    have hfield := fun key hkey => (hget key).trans (boundDocument_own hreads hown hkey)
    refine ⟨?_, (hfield _ (by simp)).trans (by simp), (hfield _ (by simp)).trans (by simp),
      (hfield _ (by simp)).trans (by simp), (hfield _ (by simp)).trans (by simp),
      fun key hkey => (hget key).trans (boundDocument_identity hreads hown hkey),
      (hfield _ (by simp)).trans (by simp), (hfield _ (by simp)).trans (by simp),
      (hfield _ (by simp)).trans (by simp)⟩
    refine (hkeys _).trans (boundDocument_keysAre hreads hown _ fun key => ?_)
    simp [projectionFailureKeys, lits, or_assoc]
  exact ⟨hflat, hfields _ (fun _ => rfl) fun _ => rfl,
    hfields _ (hflat.get_arrange _) (hflat.keysAre_arrange _)⟩

variable {report : Obj} {sourceProjection : Json}

/-- A patch that the source tree rejects is reported to the host as it asks. -/
theorem IsProjectionFailure.source_valid (hreads : ReadsExpectation env expectation)
    (h : IsProjectionFailure expectation "source" commit tree [] report)
    (hcommit : isOid commit = true) (htree : isOid tree = true) (hlength : commit.length = tree.length)
    (hdeclared : agreesIfSet expectation "source_base_commit" (.str commit) = true)
    (hdeclaredTree : agreesIfSet expectation "source_base_tree" (.str tree) = true) :
    candidateProjectionFailureValid env (.dict report) (.dict expectation) sourceProjection commit
      tree = .ok true := by
  simp only [candidateProjectionFailureValid, hreads.valid, h.keys, h.schema, h.status, h.errorKind,
    h.phaseField, hreads.identityValuesMatch h.identity, textOf_str h.commitField,
    textOf_str h.treeField, h.digestField, hcommit, htree, hlength, hdeclared, hdeclaredTree]
  simp [Json.eqStr, Json.inStrSet, Json.hashable, show lit "" = [] from rfl]

/-- A patch that the prepared tree rejects is reported to the host as it asks. -/
theorem IsProjectionFailure.prepared_valid (hreads : ReadsExpectation env expectation)
    (h : IsProjectionFailure expectation "prepared" commit tree digest report)
    (hcommit : isOid commit = true) (htree : isOid tree = true) (hlength : commit.length = tree.length)
    (hsource : sourceProjectionValid env sourceProjection (.dict expectation) = true)
    (hdigest : digest = sourceProjectionSha256 env sourceProjection)
    (hshape : isLowerSha256 digest = true) {baseCommit baseTree : Str}
    (hbase : baseCommit = [] ∨ baseCommit = commit) (hbaseTree : baseTree = [] ∨ baseTree = tree) :
    candidateProjectionFailureValid env (.dict report) (.dict expectation) sourceProjection baseCommit
      baseTree = .ok true := by
  simp only [candidateProjectionFailureValid, hreads.valid, h.keys, h.schema, h.status, h.errorKind,
    h.phaseField, hreads.identityValuesMatch h.identity, textOf_str h.commitField,
    textOf_str h.treeField, h.digestField, hcommit, htree, hlength, hsource, ← hdigest,
    sha256Equal_self hshape]
  have hcommitOk : (baseCommit.isEmpty || commit == baseCommit) = true := by
    rcases hbase with rfl | rfl <;> simp
  have htreeOk : (baseTree.isEmpty || tree == baseTree) = true := by
    rcases hbaseTree with rfl | rfl <;> simp
  simp [Json.eqStr, Json.inStrSet, Json.hashable, hcommitOk, htreeOk]

end Failure

section Agreement

/-- What a builder writes is accepted exactly when the patch changes the tree that the document is
about, and every failure report is accepted. -/
theorem built_projections_accepted_iff_changed {env : Env} (hshapes : DigestShapes env) {depth : Nat}
    (git : Git) (base preparedBase : Str) (patch : List Nat) (declaredBase : Option Str) {text : Str}
    {expectation : Obj} (htext : text.Decoded)
    (hloads : loads depth text = .ok (.dict expectation))
    (hvalid : expectationValid env expectation = true) :
    (∀ source, buildSourceProjection env depth git base patch (some text) declaredBase = .ok source →
      ∃ sourceRead, loads depth (writtenDocument source) = .ok sourceRead ∧
        (sourceProjectionValid env sourceRead (.dict expectation) = true ↔ git.Changes base patch) ∧
        (∀ prepared, buildPreparedProjection env depth git preparedBase patch (some text)
            (some (writtenDocument source)) = .ok prepared →
          ∃ preparedRead, loads depth (writtenDocument prepared) = .ok preparedRead ∧
            (preparedCandidateProjectionValid env preparedRead (.dict expectation) sourceRead = true ↔
              git.Changes preparedBase patch) ∧
            ∀ verified, verifyPreparedWorktree env depth git patch
                (some (writtenDocument prepared)) = .ok verified →
              ∃ verifiedRead, loads depth (writtenDocument verified) = .ok verifiedRead ∧
                (candidateProjectionValid env verifiedRead (.dict expectation) sourceRead = true ↔
                  git.Changes preparedBase patch)) ∧
        ∀ commit tree report, buildPreparedProjection env depth git preparedBase patch (some text)
            (some (writtenDocument source)) = .error (.notApplicable commit tree (some report)) →
          ∃ failureRead, loads depth (writtenDocument report) = .ok failureRead ∧
            ∀ accepted ∈ [failureRead, .dict report], ∀ baseCommit ∈ [[], commit],
              ∀ baseTree ∈ [[], tree], candidateProjectionFailureValid env accepted
                (.dict expectation) sourceRead baseCommit baseTree = .ok true) ∧
    ∀ commit tree report, buildSourceProjection env depth git base patch (some text) declaredBase =
        .error (.notApplicable commit tree (some report)) →
      agreesIfSet expectation "source_base_commit" (.str commit) = true →
      agreesIfSet expectation "source_base_tree" (.str tree) = true →
      ∃ failureRead, loads depth (writtenDocument report) = .ok failureRead ∧
        ∀ accepted ∈ [failureRead, .dict report], ∀ sourceProjection,
          candidateProjectionFailureValid env accepted (.dict expectation) sourceProjection commit
            tree = .ok true := by
  obtain ⟨⟨below, rfl⟩, hreads⟩ := readsExpectation_of_loads htext hloads hvalid
  have hread := readExpectation_of_loads hloads hvalid
  refine ⟨fun source hsource => ?_, fun commit tree report hfailure hdeclared hdeclaredTree => ?_⟩
  · obtain ⟨sourceCommit, sourceTree, sourceCandidate, hresolve, happly, hchecked, rfl⟩ :=
      sourceChecked_of_built hread hsource
    obtain ⟨hflat, hfields⟩ := isSourceProjection_of_built hreads hchecked hshapes
    refine ⟨_, loads_writtenDocument hflat, ?_, fun prepared hprepared => ?_,
      fun commit tree report hfailure => ?_⟩
    · rw [Git.changes_iff hresolve happly]
      exact hfields.valid_iff hreads hchecked hshapes
    · obtain ⟨hvalidSource, commit, tree, candidate, hresolve', happly', hpreparedChecked, rfl⟩ :=
        preparedChecked_of_built hshapes hflat hread hprepared
      have hrepeats : RepeatsSource env expectation (DumpFormat.sorted.arrange _) _ _ _ :=
        ⟨hchecked, hfields, (hfields.valid_iff hreads hchecked hshapes).mp hvalidSource⟩
      obtain ⟨hpreparedFlat, hpreparedFields⟩ :=
        isProjection_of_built hreads hpreparedChecked (hrepeats.flat hshapes)
      rw [Git.changes_iff hresolve' happly']
      refine ⟨_, loads_writtenDocument hpreparedFlat,
        hpreparedFields.prepared_valid_iff hreads hshapes hpreparedChecked hrepeats rfl,
        fun verified hverified => ?_⟩
      rw [verifiedDocument_of_verified hpreparedFlat hpreparedFields hverified]
      obtain ⟨hverifiedFlat, hverifiedFields⟩ := isProjection_of_verified
        (hpreparedFlat.arrange _) hpreparedChecked.candidateOid hpreparedFields
      exact ⟨_, loads_writtenDocument hverifiedFlat,
        hverifiedFields.verified_valid_iff hreads hshapes hpreparedChecked hrepeats rfl⟩
    · obtain ⟨hvalidSource, hresolve', rfl⟩ := preparedFailure_of_built hflat hread hfailure
      obtain ⟨hcommit, htree, hlength⟩ := git.resolve_wellFormed hresolve'
      obtain ⟨hreportFlat, hraised, hreadBack⟩ := isProjectionFailure_of_built hreads
        (.str (lit "prepared") (Str.readable_of_small (by decide))) hcommit htree
        (flat_of_isLowerSha256 (hshapes.sha256 _))
      refine ⟨_, loads_writtenDocument hreportFlat,
        fun accepted haccepted baseCommit hbase baseTree hbaseTree => ?_⟩
      simp only [List.mem_cons, List.not_mem_nil, or_false] at haccepted hbase hbaseTree
      rcases haccepted with rfl | rfl
      · exact hreadBack.prepared_valid hreads hcommit htree hlength hvalidSource rfl
          (hshapes.sha256 _) hbase hbaseTree
      · exact hraised.prepared_valid hreads hcommit htree hlength hvalidSource rfl
          (hshapes.sha256 _) hbase hbaseTree
  · obtain ⟨hresolve, rfl⟩ := sourceFailure_of_built hread hfailure
    obtain ⟨hcommit, htree, hlength⟩ := git.resolve_wellFormed hresolve
    obtain ⟨hreportFlat, hraised, hreadBack⟩ := isProjectionFailure_of_built hreads
      (.str (lit "source") (Str.readable_of_small (by decide))) hcommit htree
      (.str [] (Str.readable_of_small (by simp)))
    refine ⟨_, loads_writtenDocument hreportFlat, fun accepted haccepted sourceProjection => ?_⟩
    simp only [List.mem_cons, List.not_mem_nil, or_false] at haccepted
    rcases haccepted with rfl | rfl
    · exact hreadBack.source_valid hreads hcommit htree hlength hdeclared hdeclaredTree
    · exact hraised.source_valid hreads hcommit htree hlength hdeclared hdeclaredTree

/-- The digests of a repository whose objects have SHA-256 names, where SHA-1 is not asked for. -/
def sha256Env : Env := { asciiEnv with sha1 := fun data => (Sha256.hexdigest data).take 40 }

/-- A repository with one commit. Patch `[1]` changes a file and changes it back, patch `[2]` changes
it, and every other patch is rejected. -/
def sampleGit : Git where
  resolve name := if name = lit "HEAD" then some (.replicate 64 97, .replicate 64 98) else none
  apply tree patch :=
    if patch = [1] then some tree
    else if patch = [2] then some (.replicate tree.length 99) else none
  worktree _ candidate := some candidate
  resolve_wellFormed := by
    intro name commit tree h
    split at h
    · cases h
      decide
    · cases h
  apply_wellFormed := by
    intro tree patch candidate htree h
    simp only [isOid, Bool.and_eq_true] at htree
    split at h
    · cases h
      exact ⟨by simp only [isOid, htree.1, htree.2, Bool.and_self], rfl⟩
    · split at h
      · cases h
        refine ⟨?_, List.length_replicate⟩
        simp only [isOid, List.length_replicate, htree.1, Bool.true_and, List.all_eq_true]
        intro c hc
        rw [List.eq_of_mem_replicate hc]
        decide
      · cases h

/-- An expectation for a patch that declares no base. -/
def sampleExpectation (patch : List Nat) : Obj :=
  Obj.of [("schema", "opencollab.eval_candidate_expectation.v1"), ("instance_id", "a"),
    ("record_id", "a__b"), ("run_identity_sha256", .str (Sha256.hexdigest [])),
    ("source_patch_sha256", .str (Sha256.hexdigest patch)),
    ("eval_patch_sha256", .str (Sha256.hexdigest patch)), ("source_base_commit", ""),
    ("source_anonymous_base", ""), ("source_base_tree", ""), ("source_candidate_tree", ""),
    ("expected_candidate_tree", "")]

/-- Both expectations are valid and both patches are projected, but the projection of the patch that
gives back the tree it was applied to is refused. All of it is evaluated together. -/
theorem sampleProjections_run :
    expectationValid sha256Env (sampleExpectation [1]) = true ∧
      (buildSourceProjection sha256Env 1 sampleGit "HEAD" [1]
        (some (writtenDocument (sampleExpectation [1]))) none).toOption.any (fun source =>
          (loads 1 (writtenDocument source)).toOption.any fun read =>
            !sourceProjectionValid sha256Env read (.dict (sampleExpectation [1]))) = true ∧
      expectationValid sha256Env (DumpFormat.sorted.arrange (sampleExpectation [2])) = true ∧
      (buildSourceProjection sha256Env 1 sampleGit "HEAD" [2]
        (some (writtenDocument (sampleExpectation [2]))) none).toOption.any (fun _ => true) = true ∧
      ∀ c ∈ writtenDocument (sampleExpectation [2]), c < 0x110000 ∧ Str.isSurrogate c = false := by
  decide +kernel

/-- A patch that gives back the tree it was applied to: the builder returns a projection that the
validator refuses. -/
theorem built_projections_accepted_fails_at_unchanged_tree :
    expectationValid sha256Env (sampleExpectation [1]) = true ∧
      ∃ source read, buildSourceProjection sha256Env 1 sampleGit "HEAD" [1]
          (some (writtenDocument (sampleExpectation [1]))) none = .ok source ∧
        loads 1 (writtenDocument source) = .ok read ∧
        sourceProjectionValid sha256Env read (.dict (sampleExpectation [1])) = false := by
  obtain ⟨hvalid, hrun, -⟩ := sampleProjections_run
  obtain ⟨source, hsource, hrun⟩ := exists_of_any_toOption hrun
  obtain ⟨read, hread, hrefused⟩ := exists_of_any_toOption hrun
  exact ⟨hvalid, source, read, hsource, hread, by simpa using hrefused⟩

theorem sampleExpectation_flat (patch : List Nat) : (sampleExpectation patch).Flat := by
  have hliteral : ∀ s : String, (∀ c ∈ lit s, c < 128) → (Json.str s).Flat :=
    fun s hs => .str _ (Str.readable_of_small hs)
  have hdigest := fun data => flat_of_isLowerSha256 (isLowerSha256_hexdigest data)
  have hkeys : (sampleExpectation patch).map (·.1) = expectationKeys := by
    simp [sampleExpectation, expectationKeys, identityKeys]
  refine ⟨hkeys ▸ by decide, fun entry hentry => Str.readable_of_small ?_, fun entry hentry => ?_⟩
  · have hsmall : ∀ key ∈ expectationKeys, ∀ c ∈ key, c < 128 := by decide
    exact hsmall _ (hkeys ▸ List.mem_map_of_mem hentry)
  · simp only [sampleExpectation, Obj.of_cons, Obj.of_nil, List.mem_cons, List.not_mem_nil,
      or_false] at hentry
    rcases hentry with rfl | rfl | rfl | rfl | rfl | rfl | rfl | rfl | rfl | rfl | rfl
    all_goals first
      | exact hdigest _
      | exact hliteral _ (by decide)

theorem sha256Env_shapes : DigestShapes sha256Env where
  sha1 data := by
    have hshape := isLowerSha256_hexdigest data
    simp only [isLowerSha256, Bool.and_eq_true, beq_iff_eq, List.all_eq_true] at hshape ⊢
    refine ⟨?_, fun c hc => hshape.2 c (List.mem_of_mem_take hc)⟩
    rw [sha256Env, List.length_take, hshape.1]
    rfl
  sha256 := isLowerSha256_hexdigest

/-- The projection of a patch that changes its tree is accepted. -/
theorem built_projections_accepted_at_changed_tree :
    ∃ source read, buildSourceProjection sha256Env 1 sampleGit "HEAD" [2]
        (some (writtenDocument (sampleExpectation [2]))) none = .ok source ∧
      loads 1 (writtenDocument source) = .ok read ∧
      sourceProjectionValid sha256Env read
        (.dict (DumpFormat.sorted.arrange (sampleExpectation [2]))) = true := by
  obtain ⟨-, -, hvalid, hrun, htext⟩ := sampleProjections_run
  obtain ⟨source, hsource, -⟩ := exists_of_any_toOption hrun
  have hchanges : sampleGit.Changes "HEAD" [2] := by
    intro commit tree hresolve
    cases hresolve
    decide
  obtain ⟨read, hread, hiff, -⟩ := (@built_projections_accepted_iff_changed sha256Env
    sha256Env_shapes 1 sampleGit "HEAD" "HEAD" [2] none _ _ htext
    (loads_writtenDocument (sampleExpectation_flat [2])) hvalid).1 source hsource
  exact ⟨source, read, hsource, hread, hiff.mpr hchanges⟩

end Agreement

end OpenCollabEval
