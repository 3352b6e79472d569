import OpenCollabEval.Evaluation.ProjectionBuild

/-!
# Builders and validators of candidate projections

A document that a builder returns is accepted by its validator exactly when the patch changes the tree
that it is applied to. The validators require that, and the builders never check it. Every failure
report is accepted.
-/

open Python

namespace OpenCollabEval

/-- The digests of the interpreter have their shapes. -/
structure DigestShapes (env : Env) : Prop where
  sha1 : ∀ data, (env.sha1 data).length = 40 ∧ (env.sha1 data).all isLowerHex = true
  sha256 : ∀ data, isLowerSha256 (env.sha256 data) = true

/-- An expectation as a builder has read it. -/
structure ReadsExpectation (env : Env) (expectation : Obj) : Prop where
  valid : expectationValid env expectation = true
  flat : expectation.Flat

section Shapes

theorem isOid_of_digest {env : Env} (h : DigestShapes env) {tree : Str} (htree : isOid tree = true) :
    isOid (anonymousCommitOid env tree) = true ∧
      (anonymousCommitOid env tree).length = tree.length := by
  have hsha256 : ∀ data, (env.sha256 data).length = 64 ∧ (env.sha256 data).all isLowerHex = true := by
    intro data
    simpa only [isLowerSha256, Bool.and_eq_true, beq_iff_eq] using h.sha256 data
  unfold anonymousCommitOid
  simp only [isOid, Bool.and_eq_true, Bool.or_eq_true, beq_iff_eq] at htree ⊢
  split
  next hlength =>
    exact ⟨⟨.inl (h.sha1 _).1, (h.sha1 _).2⟩, (h.sha1 _).1.trans hlength.symm⟩
  next hlength =>
    exact ⟨⟨.inr (hsha256 _).1, (hsha256 _).2⟩,
      (hsha256 _).1.trans (htree.1.resolve_left hlength).symm⟩

theorem lt_of_isLowerHex {c : Nat} (h : isLowerHex c = true) : c < 128 := by
  simp only [isLowerHex, Str.isDigit, Bool.or_eq_true, Bool.and_eq_true, decide_eq_true_iff] at h
  omega

theorem flat_of_isOid {s : Str} (h : isOid s = true) : (Json.str s).Flat := by
  simp only [isOid, Bool.and_eq_true, List.all_eq_true] at h
  exact .str s (Str.readable_of_small fun c hc => lt_of_isLowerHex (h.2 c hc))

theorem flat_of_isLowerSha256 {s : Str} (h : isLowerSha256 s = true) : (Json.str s).Flat := by
  simp only [isLowerSha256, Bool.and_eq_true, List.all_eq_true] at h
  exact .str s (Str.readable_of_small fun c hc => lt_of_isLowerHex (h.2 c hc))

theorem textOf_str {env : Env} {o : Obj} {key s : Str} (h : o.get key = .str s) :
    textOf env o key = s := by
  rw [textOf, h, Runtime.strOrEmpty_str]

end Shapes

section Expectation

variable {env : Env} {expectation : Obj}

/-- Every identity field of a valid expectation is text. -/
theorem identity_of_valid (h : expectationValid env expectation = true) {key : Str}
    (hkey : key ∈ identityKeys) : ∃ s, expectation.get key = .str s := by
  simp only [expectationValid, Bool.and_eq_true, List.all_eq_true] at h
  have hstr := h.1.1.1.1.1.1.2 key hkey
  cases hvalue : expectation.get key with
  | str s => exact ⟨s, rfl⟩
  | _ => simp [hvalue, Json.asStr] at hstr

theorem keys_of_valid (h : expectationValid env expectation = true) :
    Obj.keysAre expectation expectationKeys = true := by
  simp only [expectationValid, Bool.and_eq_true] at h
  exact h.1.1.1.1.1.1.1.1

theorem schema_of_valid (h : expectationValid env expectation = true) :
    expectation.get "schema" = .str "opencollab.eval_candidate_expectation.v1" := by
  simp only [expectationValid, Bool.and_eq_true, Json.eqStr_iff] at h
  exact h.1.1.1.1.1.1.1.2

theorem digest_of_valid (h : expectationValid env expectation = true) {key : Str}
    (hkey : key ∈ sha256IdentityKeys) : (canonicalSha256 (expectation.get key)).isSome = true := by
  simp only [expectationValid, Bool.and_eq_true, List.all_eq_true] at h
  exact h.1.1.1.2 key hkey

/-- A value that a text stands for is an expectation that a builder reads. -/
theorem readsExpectation_of_loads {depth : Nat} {text : Str} (htext : text.Decoded)
    (hloads : loads depth text = .ok (.dict expectation))
    (hvalid : expectationValid env expectation = true) :
    (∃ below, depth = below + 1) ∧ ReadsExpectation env expectation := by
  cases readable_of_loads htext hloads with
  | dict below _ distinct keys values =>
    refine ⟨⟨below, rfl⟩, hvalid, distinct, keys, fun entry hentry => ?_⟩
    have hget : expectation.get entry.1 = entry.2 := by
      rw [Obj.get, (Obj.lookup_eq_some_iff_mem distinct).mpr hentry]
      rfl
    have htexts : ∃ s, entry.2 = .str s := by
      have hkey := (Obj.keysAre_iff.mp (keys_of_valid hvalid) entry.1).mp
        (List.mem_map_of_mem hentry)
      rw [← hget]
      rcases List.mem_cons.mp hkey with hschema | hidentity
      · exact hschema ▸ ⟨_, schema_of_valid hvalid⟩
      · exact identity_of_valid hvalid hidentity
    obtain ⟨s, hs⟩ := htexts
    have hreadable := values entry hentry
    rw [hs] at hreadable ⊢
    cases hreadable with
    | str _ _ hreadable => exact .str s hreadable

/-- A document that repeats the identity of an expectation matches it. -/
theorem ReadsExpectation.identityValuesMatch (h : ReadsExpectation env expectation) {report : Obj}
    (hsame : ∀ key ∈ identityKeys, report.get key = expectation.get key) :
    identityValuesMatch report expectation = true := by
  rw [OpenCollabEval.identityValuesMatch, List.all_eq_true]
  intro key hkey
  rw [hsame key hkey]
  split
  next hdigest =>
    have hcanonical := digest_of_valid h.valid (by simpa using hdigest)
    simp [sha256Equal, hcanonical]
  next =>
    obtain ⟨s, hs⟩ := identity_of_valid h.valid hkey
    rw [hs, Json.pyEq_str_left]

end Expectation

section Bound

variable {env : Env} {expectation before after : Obj}

/-- The fields of a document's own: distinct, flat, and none of the expectation's. -/
structure OwnFields (before after : Obj) : Prop where
  distinct : ((before ++ after).map (·.1)).Nodup
  fresh : ∀ key ∈ (before ++ after).map (·.1), key ∉ identityKeys
  keys : ∀ key ∈ (before ++ after).map (·.1), Str.Readable key
  values : ∀ entry ∈ before ++ after, entry.2.Flat

/-- Fields with literal keys. -/
theorem ownFields_of {keys : List String} (hkeys : (before ++ after).map (·.1) = lits keys)
    (hdistinct : (lits keys).Nodup) (hfresh : ∀ key ∈ lits keys, key ∉ identityKeys)
    (hsmall : ∀ key ∈ lits keys, ∀ c ∈ key, c < 128)
    (hvalues : ∀ entry ∈ before ++ after, entry.2.Flat) : OwnFields before after where
  distinct := hkeys ▸ hdistinct
  fresh := hkeys ▸ hfresh
  keys := by
    rw [hkeys]
    exact fun key hkey => Str.readable_of_small (hsmall key hkey)
  values := hvalues

/-- The fields that a bound document takes from the expectation. -/
theorem mem_bound_iff (h : ReadsExpectation env expectation) (key : Str) :
    key ∈ (expectation.filter (·.1 != lit "schema")).map (·.1) ↔ key ∈ identityKeys := by
  have hkeys := Obj.keysAre_iff.mp (keys_of_valid h.valid) key
  have hschema : lit "schema" ∉ identityKeys := by decide
  constructor
  · intro hkey
    obtain ⟨entry, hentry, rfl⟩ := List.mem_map.mp hkey
    obtain ⟨hmem, hne⟩ := List.mem_filter.mp hentry
    exact (List.mem_cons.mp (hkeys.mp (List.mem_map_of_mem hmem))).resolve_left (by simpa using hne)
  · intro hkey
    obtain ⟨entry, hentry, rfl⟩ := List.mem_map.mp (hkeys.mpr (List.mem_cons_of_mem _ hkey))
    refine List.mem_map_of_mem (List.mem_filter.mpr ⟨hentry, ?_⟩)
    rw [bne_iff_ne]
    exact fun heq => hschema (heq ▸ hkey)

variable (h : ReadsExpectation env expectation) (hown : OwnFields before after)

include h hown

/-- A bound document has its own fields and those of the expectation. -/
theorem boundDocument_perm :
    (boundDocument before expectation after).Perm
        (before ++ after ++ expectation.filter (·.1 != lit "schema")) ∧
      ((before ++ after ++ expectation.filter (·.1 != lit "schema")).map (·.1)).Nodup := by
  have hnodup : ((before ++ after ++ expectation.filter (·.1 != lit "schema")).map
      (·.1)).Nodup := by
    rw [List.map_append, List.nodup_append]
    refine ⟨hown.distinct, h.flat.distinct.sublist (List.filter_sublist.map _), ?_⟩
    rintro key hkey _ hbound rfl
    exact hown.fresh key hkey ((mem_bound_iff h key).mp hbound)
  have hperm : (before ++ expectation.filter (·.1 != lit "schema") ++ after).Perm
      (before ++ after ++ expectation.filter (·.1 != lit "schema")) := by
    rw [List.append_assoc, List.append_assoc]
    exact List.perm_append_comm.append_left before
  refine ⟨?_, hnodup⟩
  rw [boundDocument, Obj.ofPairs_of_nodup ((hperm.map _).nodup_iff.mpr hnodup)]
  exact hperm

theorem boundDocument_flat : (boundDocument before expectation after).Flat := by
  obtain ⟨hperm, hnodup⟩ := boundDocument_perm h hown
  refine ⟨(hperm.map _).nodup_iff.mpr hnodup, fun entry hentry => ?_, fun entry hentry => ?_⟩
  · rcases List.mem_append.mp (hperm.mem_iff.mp hentry) with hentry | hentry
    · exact hown.keys _ (List.mem_map_of_mem hentry)
    · exact h.flat.keys entry (List.mem_filter.mp hentry).1
  · rcases List.mem_append.mp (hperm.mem_iff.mp hentry) with hentry | hentry
    · exact hown.values entry hentry
    · exact h.flat.values entry (List.mem_filter.mp hentry).1

theorem boundDocument_keysAre (keys : List Str)
    (hkeys : ∀ key, key ∈ keys ↔ key ∈ (before ++ after).map (·.1) ∨ key ∈ identityKeys) :
    Obj.keysAre (boundDocument before expectation after) keys = true := by
  obtain ⟨hperm, hnodup⟩ := boundDocument_perm h hown
  rw [Obj.keysAre_of_perm hperm hnodup, Obj.keysAre_iff]
  intro key
  rw [List.map_append, List.mem_append, mem_bound_iff h, hkeys]

/-- The expectation's fields are repeated. -/
theorem boundDocument_identity {key : Str} (hkey : key ∈ identityKeys) :
    Obj.get (boundDocument before expectation after) key = expectation.get key := by
  obtain ⟨hperm, hnodup⟩ := boundDocument_perm h hown
  have hfresh : Obj.has (before ++ after) key = false := by
    rw [← Bool.not_eq_true, Obj.has_iff_mem]
    exact fun hmem => hown.fresh key hmem hkey
  obtain ⟨entry, hentry, rfl⟩ := List.mem_map.mp ((mem_bound_iff h key).mpr hkey)
  have hlookup := (Obj.lookup_eq_some_iff_mem h.flat.distinct).mpr (List.mem_filter.mp hentry).1
  have hbound := (Obj.lookup_eq_some_iff_mem
    (h.flat.distinct.sublist (List.filter_sublist.map _))).mpr hentry
  rw [Obj.get_of_perm hperm hnodup, Obj.get_append, hfresh]
  simp only [Obj.get, hlookup, hbound, Bool.false_eq_true, if_false]

/-- The document's own fields are as they were given. -/
theorem boundDocument_own {key : Str} (hkey : key ∈ (before ++ after).map (·.1)) :
    Obj.get (boundDocument before expectation after) key = Obj.get (before ++ after) key := by
  obtain ⟨hperm, hnodup⟩ := boundDocument_perm h hown
  rw [Obj.get_of_perm hperm hnodup, Obj.get_append, if_pos (Obj.has_iff_mem.mpr hkey)]

end Bound

section Source

variable {env : Env} {expectation : Obj} {commit anonymous tree candidate : Str}

/-- What a builder has checked when it writes a source projection. -/
structure SourceChecked (env : Env) (expectation : Obj) (commit tree candidate : Str) : Prop where
  commitOid : isOid commit = true
  treeOid : isOid tree = true
  candidateOid : isOid candidate = true
  commitLength : commit.length = tree.length
  candidateLength : candidate.length = tree.length
  declared : agreesIfSet expectation "source_base_commit" (.str commit) = true
  anonymous : agreesIfSet expectation "source_anonymous_base"
    (.str (anonymousCommitOid env tree)) = true
  declaredTree : agreesIfSet expectation "source_base_tree" (.str tree) = true
  expected : agreesIfSet expectation "expected_candidate_tree" (.str candidate) = true

/-- The value of `generation_tree_matches`. -/
def generationTreeMatches (expectation : Obj) (candidate : Str) : Json :=
  if (expectation.get "expected_candidate_tree").truthy
  then .bool ((Json.str candidate).pyEq (expectation.get "expected_candidate_tree"))
  else .null

theorem flat_generationTreeMatches (expectation : Obj) (candidate : Str) :
    (generationTreeMatches expectation candidate).Flat := by
  unfold generationTreeMatches
  split
  · exact .bool _
  · exact .null

/-- The generation tree is reported as the validators ask. -/
theorem generationTreeOk_of_checked (h : ReadsExpectation env expectation)
    (hexpected : agreesIfSet expectation "expected_candidate_tree" (.str candidate) = true)
    {report : Obj}
    (hreport : report.get "generation_tree_matches" = generationTreeMatches expectation candidate) :
    generationTreeOk report candidate (textOf env expectation "expected_candidate_tree") = true := by
  obtain ⟨s, hs⟩ := identity_of_valid h.valid (show lit "expected_candidate_tree" ∈ identityKeys by
    decide)
  rw [generationTreeOk, textOf_str hs, hreport, generationTreeMatches, hs]
  cases s with
  | nil => rfl
  | cons c rest =>
    rw [agreesIfSet, hs] at hexpected
    have heq : candidate = c :: rest := by
      simpa [Json.truthy, Json.pyEq] using hexpected
    simp [Json.truthy, Json.isTrue, heq, Json.pyEq]

theorem sourceOwn (h : SourceChecked env expectation commit tree candidate)
    (hshapes : DigestShapes env) :
    OwnFields (Obj.of [("schema", "opencollab.eval_candidate_source_projection.v1"),
        ("status", "verified")])
      (Obj.of [("verified_source_base_commit", .str commit),
        ("verified_source_anonymous_base", .str (anonymousCommitOid env tree)),
        ("verified_source_base_tree", .str tree),
        ("verified_source_candidate_tree", .str candidate),
        ("generation_tree_matches", generationTreeMatches expectation candidate)]) := by
  have hliteral : ∀ s : String, (∀ c ∈ lit s, c < 128) → (Json.str s).Flat :=
    fun s hs => .str _ (Str.readable_of_small hs)
  refine @ownFields_of _ _ ["schema", "status", "verified_source_base_commit",
    "verified_source_anonymous_base", "verified_source_base_tree", "verified_source_candidate_tree",
    "generation_tree_matches"] (by simp [lits]) (by decide) (by decide) (by decide) ?_
  intro entry hentry
  simp only [Obj.of_cons, Obj.of_nil, List.cons_append, List.nil_append, List.mem_cons,
    List.not_mem_nil, or_false] at hentry
  rcases hentry with rfl | rfl | rfl | rfl | rfl | rfl | rfl
  · exact hliteral _ (by decide)
  · exact hliteral _ (by decide)
  · exact flat_of_isOid h.commitOid
  · exact flat_of_isOid (isOid_of_digest hshapes h.treeOid).1
  · exact flat_of_isOid h.treeOid
  · exact flat_of_isOid h.candidateOid
  · exact flat_generationTreeMatches expectation candidate

/-- The fields of a source projection that a builder wrote. -/
structure IsSourceProjection (env : Env) (expectation : Obj) (commit tree candidate : Str)
    (report : Obj) : Prop where
  keys : Obj.keysAre report sourceProjectionKeys = true
  schema : report.get "schema" = .str "opencollab.eval_candidate_source_projection.v1"
  status : report.get "status" = .str "verified"
  identity : ∀ key ∈ identityKeys, report.get key = expectation.get key
  commitField : report.get "verified_source_base_commit" = .str commit
  anonymousField : report.get "verified_source_anonymous_base" = .str (anonymousCommitOid env tree)
  treeField : report.get "verified_source_base_tree" = .str tree
  candidateField : report.get "verified_source_candidate_tree" = .str candidate
  generationField : report.get "generation_tree_matches" = generationTreeMatches expectation candidate

theorem isSourceProjection_of_built (hreads : ReadsExpectation env expectation)
    (h : SourceChecked env expectation commit tree candidate) (hshapes : DigestShapes env) :
    (sourceDocument expectation commit (anonymousCommitOid env tree) tree candidate).Flat ∧
      IsSourceProjection env expectation commit tree candidate (DumpFormat.sorted.arrange
        (sourceDocument expectation commit (anonymousCommitOid env tree) tree candidate)) := by
  have hown := sourceOwn h hshapes
  have hflat := boundDocument_flat hreads hown
  have hget := fun key => hflat.get_arrange DumpFormat.sorted key
  have hfield := fun key hkey => (hget key).trans (boundDocument_own hreads hown hkey)
  refine ⟨hflat, ?_, (hfield _ (by simp)).trans ?_, (hfield _ (by simp)).trans ?_,
    fun key hkey => (hget key).trans (boundDocument_identity hreads hown hkey),
    (hfield _ (by simp)).trans ?_, (hfield _ (by simp)).trans ?_, (hfield _ (by simp)).trans ?_,
    (hfield _ (by simp)).trans ?_, (hfield _ (by simp)).trans ?_⟩
  · refine (hflat.keysAre_arrange _ _).trans (boundDocument_keysAre hreads hown _ fun key => ?_)
    simp [sourceProjectionKeys, lits, or_assoc]
  all_goals simp [generationTreeMatches]

/-- A source projection that a builder wrote is valid exactly when the patch changed the tree. -/
theorem IsSourceProjection.valid_iff {report : Obj} (hreads : ReadsExpectation env expectation)
    (h : SourceChecked env expectation commit tree candidate) (hshapes : DigestShapes env)
    (hreport : IsSourceProjection env expectation commit tree candidate report) :
    sourceProjectionValid env (.dict report) (.dict expectation) = true ↔ candidate ≠ tree := by
  obtain ⟨hanonymous, hlength⟩ := isOid_of_digest hshapes h.treeOid
  have hgeneration := generationTreeOk_of_checked hreads h.expected hreport.generationField
  simp only [sourceProjectionValid, textOf_str hreport.commitField, textOf_str hreport.anonymousField,
    textOf_str hreport.treeField, textOf_str hreport.candidateField, hreads.valid, hreport.keys,
    hreport.schema, hreport.status, hreads.identityValuesMatch hreport.identity, hreport.commitField,
    hreport.anonymousField, hreport.treeField, h.declared, h.anonymous, h.declaredTree, hgeneration]
  simp [Json.eqStr, h.commitOid, h.treeOid, h.candidateOid, hanonymous, hlength, h.commitLength,
    h.candidateLength]

end Source

section Prepared

variable {env : Env} {expectation source : Obj} {digest commit tree candidate status : Str}
  {worktree official : Json} {report : Obj}

/-- The fields of a projection onto both trees, before and after its worktree was hashed. -/
structure IsProjection (expectation source : Obj) (digest commit tree candidate status : Str)
    (worktree official : Json) (report : Obj) : Prop where
  keys : Obj.keysAre report projectionV2Keys = true
  schema : report.get "schema" = .str "opencollab.eval_candidate_projection.v2"
  statusField : report.get "status" = .str status
  identity : ∀ key ∈ identityKeys, report.get key = expectation.get key
  digestField : report.get "source_projection_sha256" = .str digest
  repeated : ∀ key ∈ repeatedSourceKeys, report.get key = source.get key
  commitField : report.get "prepared_base_commit" = .str commit
  treeField : report.get "prepared_base_tree" = .str tree
  candidateField : report.get "prepared_candidate_tree" = .str candidate
  worktreeField : report.get "worktree_candidate_tree" = worktree
  officialField : report.get "official_worktree_matches" = official

/-- What a builder has checked when it writes a projection onto the prepared tree. -/
structure PreparedChecked (digest commit tree candidate : Str) : Prop where
  digest : isLowerSha256 digest = true
  commitOid : isOid commit = true
  treeOid : isOid tree = true
  candidateOid : isOid candidate = true
  candidateLength : candidate.length = tree.length

theorem preparedOwn (h : PreparedChecked digest commit tree candidate)
    (hsource : ∀ key ∈ repeatedSourceKeys, (source.get key).Flat) :
    OwnFields (Obj.of [("schema", "opencollab.eval_candidate_projection.v2"),
        ("status", "prepared")])
      (Obj.of [("source_projection_sha256", .str digest),
        ("verified_source_base_commit", source.get "verified_source_base_commit"),
        ("verified_source_anonymous_base", source.get "verified_source_anonymous_base"),
        ("verified_source_base_tree", source.get "verified_source_base_tree"),
        ("verified_source_candidate_tree", source.get "verified_source_candidate_tree"),
        ("prepared_base_commit", .str commit), ("prepared_base_tree", .str tree),
        ("prepared_candidate_tree", .str candidate), ("worktree_candidate_tree", ""),
        ("generation_tree_matches", source.get "generation_tree_matches"),
        ("official_worktree_matches", .null)]) := by
  have hliteral : ∀ s : String, (∀ c ∈ lit s, c < 128) → (Json.str s).Flat :=
    fun s hs => .str _ (Str.readable_of_small hs)
  refine @ownFields_of _ _ ["schema", "status", "source_projection_sha256",
    "verified_source_base_commit", "verified_source_anonymous_base", "verified_source_base_tree",
    "verified_source_candidate_tree", "prepared_base_commit", "prepared_base_tree",
    "prepared_candidate_tree", "worktree_candidate_tree", "generation_tree_matches",
    "official_worktree_matches"] (by simp [lits]) (by decide) (by decide) (by decide) ?_
  intro entry hentry
  simp only [Obj.of_cons, Obj.of_nil, List.cons_append, List.nil_append, List.mem_cons,
    List.not_mem_nil, or_false] at hentry
  rcases hentry with rfl | rfl | rfl | rfl | rfl | rfl | rfl | rfl | rfl | rfl | rfl | rfl | rfl
  · exact hliteral _ (by decide)
  · exact hliteral _ (by decide)
  · exact flat_of_isLowerSha256 h.digest
  · exact hsource _ (by decide)
  · exact hsource _ (by decide)
  · exact hsource _ (by decide)
  · exact hsource _ (by decide)
  · exact flat_of_isOid h.commitOid
  · exact flat_of_isOid h.treeOid
  · exact flat_of_isOid h.candidateOid
  · exact hliteral _ (by decide)
  · exact hsource _ (by decide)
  · exact .null

theorem isProjection_of_built (hreads : ReadsExpectation env expectation)
    (h : PreparedChecked digest commit tree candidate)
    (hsource : ∀ key ∈ repeatedSourceKeys, (source.get key).Flat) :
    (preparedDocument expectation source digest commit tree candidate).Flat ∧
      IsProjection expectation source digest commit tree candidate "prepared" "" .null
        (DumpFormat.sorted.arrange
          (preparedDocument expectation source digest commit tree candidate)) := by
  have hown := preparedOwn h hsource
  have hflat := boundDocument_flat hreads hown
  have hget := fun key => hflat.get_arrange DumpFormat.sorted key
  have hfield := fun key hkey => (hget key).trans (boundDocument_own hreads hown hkey)
  refine ⟨hflat, ?_, (hfield _ (by simp)).trans (by simp), (hfield _ (by simp)).trans (by simp),
    fun key hkey => (hget key).trans (boundDocument_identity hreads hown hkey),
    (hfield _ (by simp)).trans (by simp), fun key hkey => ?_, (hfield _ (by simp)).trans (by simp),
    (hfield _ (by simp)).trans (by simp), (hfield _ (by simp)).trans (by simp),
    (hfield _ (by simp)).trans (by simp), (hfield _ (by simp)).trans (by simp)⟩
  · refine (hflat.keysAre_arrange _ _).trans (boundDocument_keysAre hreads hown _ fun key => ?_)
    simp [projectionV2Keys, lits, or_assoc]
  · simp only [repeatedSourceKeys, List.mem_cons, List.not_mem_nil, or_false] at hkey
    rcases hkey with rfl | rfl | rfl | rfl | rfl <;>
      exact (hfield _ (by simp)).trans (by simp)

/-- The fields that a projection repeats, as its source projection has them. -/
structure RepeatsSource (env : Env) (expectation source : Obj)
    (sourceCommit sourceTree sourceCandidate : Str) : Prop where
  checked : SourceChecked env expectation sourceCommit sourceTree sourceCandidate
  fields : IsSourceProjection env expectation sourceCommit sourceTree sourceCandidate source
  changed : sourceCandidate ≠ sourceTree

variable {sourceCommit sourceTree sourceCandidate : Str}

theorem RepeatsSource.flat (hshapes : DigestShapes env)
    (h : RepeatsSource env expectation source sourceCommit sourceTree sourceCandidate) :
    ∀ key ∈ repeatedSourceKeys, (source.get key).Flat := by
  intro key hkey
  simp only [repeatedSourceKeys, List.mem_cons, List.not_mem_nil, or_false] at hkey
  rcases hkey with rfl | rfl | rfl | rfl | rfl
  · exact h.fields.commitField ▸ flat_of_isOid h.checked.commitOid
  · exact h.fields.anonymousField ▸ flat_of_isOid (isOid_of_digest hshapes h.checked.treeOid).1
  · exact h.fields.treeField ▸ flat_of_isOid h.checked.treeOid
  · exact h.fields.candidateField ▸ flat_of_isOid h.checked.candidateOid
  · exact h.fields.generationField ▸ flat_generationTreeMatches _ _

theorem pyEq_self_of_flat {v : Json} (h : v.Flat) : v.pyEq v = true := by
  cases h with
  | null => rfl
  | bool b => cases b <;> rfl
  | str s => simp [Json.pyEq]

theorem sha256Equal_self {s : Str} (h : isLowerSha256 s = true) :
    sha256Equal (.str s) (.str s) = true := by
  simp [sha256Equal, canonicalSha256, isSha256_of_isLowerSha256 h]

/-- A prepared projection is valid exactly when the patch changed the prepared tree. -/
theorem IsProjection.prepared_valid_iff (hreads : ReadsExpectation env expectation)
    (hshapes : DigestShapes env) (h : PreparedChecked digest commit tree candidate)
    (hsource : RepeatsSource env expectation source sourceCommit sourceTree sourceCandidate)
    (hdigest : digest = sourceProjectionSha256 env (.dict source))
    (hreport : IsProjection expectation source digest commit tree candidate "prepared" "" .null
      report) :
    preparedCandidateProjectionValid env (.dict report) (.dict expectation) (.dict source) = true ↔
      candidate ≠ tree := by
  obtain ⟨hanonymous, hlength⟩ := isOid_of_digest hshapes hsource.checked.treeOid
  have hvalid := (hsource.fields.valid_iff hreads hsource.checked hshapes).mpr hsource.changed
  have hrepeated : (repeatedSourceKeys.all fun key =>
      (Obj.get report key).pyEq (Obj.get source key)) = true := by
    rw [List.all_eq_true]
    intro key hkey
    rw [hreport.repeated key hkey]
    exact pyEq_self_of_flat (hsource.flat hshapes key hkey)
  have hcommit := (hreport.repeated _ (by decide)).trans hsource.fields.commitField
  have hanonymousField := (hreport.repeated _ (by decide)).trans hsource.fields.anonymousField
  have htree := (hreport.repeated _ (by decide)).trans hsource.fields.treeField
  have hcandidate := (hreport.repeated _ (by decide)).trans hsource.fields.candidateField
  simp only [preparedCandidateProjectionValid, hreads.valid, hvalid, hreport.keys, hreport.schema,
    hreport.statusField, hreads.identityValuesMatch hreport.identity, hreport.digestField, ← hdigest,
    sha256Equal_self h.digest, hreport.worktreeField, hreport.officialField, textOf_str htree, textOf_str hcandidate, textOf_str hreport.treeField,
    textOf_str hreport.candidateField, hrepeated]
  simp [Json.eqStr, textOf_str hcommit, textOf_str hanonymousField, textOf_str htree,
    textOf_str hcandidate, textOf_str hreport.commitField, textOf_str hreport.treeField,
    textOf_str hreport.candidateField, hsource.checked.commitOid, hanonymous,
    hsource.checked.treeOid, hsource.checked.candidateOid, hsource.checked.candidateLength,
    hsource.changed, h.commitOid, h.treeOid, h.candidateOid, h.candidateLength]

/-- A verified projection is valid exactly when the patch changed the prepared tree. -/
theorem IsProjection.verified_valid_iff (hreads : ReadsExpectation env expectation)
    (hshapes : DigestShapes env) (h : PreparedChecked digest commit tree candidate)
    (hsource : RepeatsSource env expectation source sourceCommit sourceTree sourceCandidate)
    (hdigest : digest = sourceProjectionSha256 env (.dict source))
    (hreport : IsProjection expectation source digest commit tree candidate "verified"
      (.str candidate) (.bool true) report) :
    candidateProjectionValid env (.dict report) (.dict expectation) (.dict source) = true ↔
      candidate ≠ tree := by
  obtain ⟨hanonymous, hlength⟩ := isOid_of_digest hshapes hsource.checked.treeOid
  have hvalid := (hsource.fields.valid_iff hreads hsource.checked hshapes).mpr hsource.changed
  have hrepeated : (repeatedSourceKeys.all fun key =>
      (Obj.get report key).pyEq (Obj.get source key)) = true := by
    rw [List.all_eq_true]
    intro key hkey
    rw [hreport.repeated key hkey]
    exact pyEq_self_of_flat (hsource.flat hshapes key hkey)
  have hcommit := (hreport.repeated _ (by decide)).trans hsource.fields.commitField
  have hanonymousField := (hreport.repeated _ (by decide)).trans hsource.fields.anonymousField
  have htree := (hreport.repeated _ (by decide)).trans hsource.fields.treeField
  have hcandidate := (hreport.repeated _ (by decide)).trans hsource.fields.candidateField
  have hgeneration := generationTreeOk_of_checked hreads hsource.checked.expected
    ((hreport.repeated _ (by decide)).trans hsource.fields.generationField)
  simp only [candidateProjectionValid, projectionV2Valid, hreads.valid, hvalid, hreport.keys,
    hreport.schema, hreport.statusField, hreads.identityValuesMatch hreport.identity,
    hreport.digestField, ← hdigest, sha256Equal_self h.digest, hreport.worktreeField,
    hreport.officialField, textOf_str htree, textOf_str hcandidate,
    textOf_str hreport.treeField, textOf_str hreport.candidateField, hcommit, hanonymousField, htree,
    hsource.checked.declared, hsource.checked.anonymous, hsource.checked.declaredTree, hgeneration,
    hrepeated]
  simp [Json.eqStr, Json.isTrue, textOf_str hcommit, textOf_str hanonymousField, textOf_str htree,
    textOf_str hcandidate, textOf_str hreport.commitField, textOf_str hreport.treeField,
    textOf_str hreport.candidateField, textOf_str hreport.worktreeField, hsource.checked.commitOid,
    hanonymous, hsource.checked.treeOid, hsource.checked.candidateOid,
    hsource.checked.candidateLength, hsource.changed, h.commitOid, h.treeOid, h.candidateOid,
    h.candidateLength]

end Prepared

end OpenCollabEval
