import OpenCollabEval.Evaluation.TrustedDependencies

/-!
# Agreement of the dependency readers

The evaluator compares every restored entry with its declaration; the report reader looks at the
files only and wants each of them unprotected. `AcceptedReport` lists what the evaluator accepted,
`RestoredEntry` what both readers take from one entry, and `runtimeFileDependencyProof_eq` concludes
when the report reader accepts as well.
-/

open Python

namespace OpenCollabEval

/-- What is appended was there or is new. -/
theorem mem_appendNew {specs items : List Json} {item : Json} (h : item ∈ appendNew specs items) :
    item ∈ specs ∨ item ∈ items := by
  induction items generalizing specs with
  | nil => exact .inl h
  | cons first rest ih =>
    rcases ih h with h | h
    · split at h
      · exact .inl h
      · rcases List.mem_append.mp h with h | h
        · exact .inl h
        · exact .inr (by simp_all)
    · exact .inr (List.mem_cons_of_mem _ h)

/-- A string is an element of a list exactly when the list holds it. -/
@[simp]
theorem elem_str_iff (s : Str) (items : List Json) :
    (Json.str s).elem items = true ↔ .str s ∈ items := by
  simp [Json.elem]

/-- Strings are appended without loss. -/
theorem str_mem_appendNew {s : Str} {specs items : List Json} :
    .str s ∈ appendNew specs items ↔ .str s ∈ specs ∨ .str s ∈ items := by
  induction items generalizing specs with
  | nil => simp [appendNew]
  | cons first rest ih =>
    rw [appendNew, ih]
    split
    next helem =>
      have hfirst : .str s = first → .str s ∈ specs := by
        rintro rfl
        exact (elem_str_iff _ _).mp helem
      simp only [List.mem_cons]
      tauto
    next => simp [or_assoc]

section Declared

variable {env : Env}

/-- Both readers collect the same declarations, all of them known. -/
theorem rawSpecs_of_declaresKnown {f2pPlan p2pPlan : Obj} {f2p p2p : List Json}
    (hf2p : f2pPlan.get "runtime_dependencies" = .list f2p)
    (hp2p : p2pPlan.get "runtime_dependencies" = .list p2p)
    (hf2pKnown : DeclaresKnown f2p) (hp2pKnown : DeclaresKnown p2p) :
    ∃ raw, rawPlanRuntimeDependencySpecs [f2pPlan, p2pPlan] = .ok raw ∧
      reportedSpecs [.dict f2pPlan, .dict p2pPlan] = .ok raw ∧ DeclaresKnown raw := by
  have hdicts {items : List Json} (h : DeclaresKnown items) :
      ∀ item ∈ items, item.asDict.isSome = true := by
    intro item hitem
    obtain ⟨o, spec, rfl, -⟩ := h item hitem
    rfl
  have hall {items : List Json} (h : DeclaresKnown items) :
      (items.all fun item => item.asDict.isSome) = true := by
    simpa using hdicts h
  have hfilter {items : List Json} (h : DeclaresKnown items) :
      (items.filter fun item => item.asDict.isSome) = items :=
    List.filter_eq_self.mpr (hdicts h)
  refine ⟨appendNew (appendNew [] f2p) (appendNew (appendNew [] p2p) []), ?_, ?_, ?_⟩
  · simp [rawPlanRuntimeDependencySpecs, declaredDependencies, hf2p, hp2p, iterOrEmpty,
      hall hf2pKnown, hall hp2pKnown, -List.all_eq_true]
  · simp [reportedSpecs, hf2p, hp2p, iterOrEmpty, hfilter hf2pKnown, hfilter hp2pKnown]
  · intro item hitem
    rcases mem_appendNew hitem with hitem | hitem
    · exact hf2pKnown item ((mem_appendNew hitem).resolve_left (by simp))
    · exact hp2pKnown item ((@mem_appendNew [] _ _ hitem).resolve_left (by simp))

/-- Some document of a list declares a root. -/
def DeclaresRoot (raw : List Json) (root : Str) : Prop :=
  ∃ o spec, .dict o ∈ raw ∧ Declares o spec ∧ KnownSpec spec ∧ spec.root = root

/-- The normal form of known declarations: known ones, for the same roots. -/
theorem normalizeDependencies_of_declaresKnown {raw : List Json} (h : DeclaresKnown raw) :
    ∃ specs, normalizeDependencies env raw = .ok specs ∧ (∀ spec ∈ specs, KnownSpec spec) ∧
      ∀ root, (∃ spec ∈ specs, spec.root = root) ↔ DeclaresRoot raw root := by
  induction raw with
  | nil => exact ⟨[], rfl, by simp, by simp [DeclaresRoot]⟩
  | cons item rest ih =>
    obtain ⟨specs, hspecs, hknown, hroots⟩ := ih fun other hother => h other (by simp [hother])
    obtain ⟨o, spec, rfl, hdeclares, hspec⟩ := h item (by simp)
    refine ⟨spec :: specs.filter (!spec.pyEq ·), ?_, ?_, ?_⟩
    · simp [normalizeDependencies, Json.asDict, normalizeDependency_eq hdeclares hspec, hspecs]
    · intro other hother
      rcases List.mem_cons.mp hother with rfl | hother
      · exact hspec
      · exact hknown other (List.mem_filter.mp hother).1
    · intro root
      constructor
      · rintro ⟨other, hother, rfl⟩
        rcases List.mem_cons.mp hother with rfl | hother
        · exact ⟨o, other, by simp, hdeclares, hspec, rfl⟩
        · obtain ⟨o', spec', hmem, h'⟩ := (hroots other.root).mp
            ⟨other, (List.mem_filter.mp hother).1, rfl⟩
          exact ⟨o', spec', by simp [hmem], h'⟩
      · rintro ⟨o', spec', hmem, hdeclares', hspec', rfl⟩
        rcases List.mem_cons.mp hmem with heq | hmem
        · cases heq
          have hroot : (Json.str spec.root) = .str spec'.root := by
            rw [← hdeclares.root, ← hdeclares'.root]
          exact ⟨spec, by simp, by simpa using hroot⟩
        · obtain ⟨other, hother, hroot⟩ := (hroots spec'.root).mpr
            ⟨o', spec', hmem, hdeclares', hspec', rfl⟩
          by_cases hsame : spec.pyEq other = true
          · have hspecRoot : spec.root = other.root := by
              simp only [DependencySpec.pyEq, Bool.and_eq_true, beq_iff_eq] at hsame
              exact hsame.1.1.1
            exact ⟨spec, by simp, hspecRoot.trans hroot⟩
          · exact ⟨other, by simp [hother, hsame], hroot⟩

/-- A known declaration is one of a file exactly when its root has the name of a file. -/
theorem KnownSpec.kind_file_iff {spec : DependencySpec} (h : KnownSpec spec) :
    spec.kind = lit "file" ↔ spec.root ∈ fileRootNames := by
  rw [h.kind, dependencyKind]
  split
  next hroot => simp [hroot]
  next hroot => simp [hroot]

/-- The file roots of the evaluator are the declared roots with the name of a file. -/
theorem mem_expectedFileRoots {raw : List Json} {specs : List DependencySpec}
    (hknown : ∀ spec ∈ specs, KnownSpec spec)
    (hroots : ∀ root, (∃ spec ∈ specs, spec.root = root) ↔ DeclaresRoot raw root) (root : Str) :
    root ∈ expectedFileRoots specs ↔ DeclaresRoot raw root ∧ root ∈ fileRootNames := by
  simp only [expectedFileRoots, dedupKeys, List.mem_eraseDups, List.mem_map, List.mem_filter,
    beq_iff_eq, ← hroots]
  constructor
  · rintro ⟨spec, ⟨hspec, hkind⟩, rfl⟩
    exact ⟨⟨spec, hspec, rfl⟩, (hknown spec hspec).kind_file_iff.mp hkind⟩
  · rintro ⟨⟨spec, hspec, rfl⟩, hroot⟩
    exact ⟨spec, ⟨hspec, (hknown spec hspec).kind_file_iff.mpr hroot⟩, rfl⟩

/-- A document says that it declares a file exactly when its root has the name of one. -/
theorem Declares.file_iff {o : Obj} {spec : DependencySpec} (h : Declares o spec)
    (hknown : KnownSpec spec) :
    (o.get "kind").eqStr "file" = true ↔ spec.root ∈ fileRootNames := by
  rw [Json.eqStr_iff, ← hknown.kind_file_iff]
  rcases h.shape with ⟨hkind, -⟩ | ⟨hkind, -, hdirectory, -⟩
  · simp [hkind]
  · simp [hkind, hdirectory]

/-- The report reader collects the same file roots. -/
theorem reportedFileRoots_of_declaresKnown {raw : List Json} (h : DeclaresKnown raw) :
    ∃ roots, reportedFileRoots raw = .ok roots ∧ (∀ item ∈ roots, ∃ root, item = .str root) ∧
      ∀ root, .str root ∈ roots ↔ DeclaresRoot raw root ∧ root ∈ fileRootNames := by
  let named := ((raw.filterMap Json.asDict).filter fun item =>
    (Obj.get item "kind").eqStr "file").map (Obj.get · "root")
  have hmember (v : Json) : v ∈ named ↔ ∃ o spec, .dict o ∈ raw ∧ Declares o spec ∧
      KnownSpec spec ∧ spec.root ∈ fileRootNames ∧ v = .str spec.root := by
    simp only [named, List.mem_map, List.mem_filter, List.mem_filterMap]
    constructor
    · rintro ⟨o, ⟨⟨item, hitem, hdict⟩, hkind⟩, rfl⟩
      obtain ⟨o', spec, rfl, hdeclares, hspec⟩ := h item hitem
      cases hdict
      exact ⟨o, spec, hitem, hdeclares, hspec, (hdeclares.file_iff hspec).mp hkind,
        hdeclares.root⟩
    · rintro ⟨o, spec, hitem, hdeclares, hspec, hroot, rfl⟩
      exact ⟨o, ⟨⟨_, hitem, rfl⟩, (hdeclares.file_iff hspec).mpr hroot⟩, hdeclares.root⟩
  have hhashable : named.all Json.hashable = true := by
    rw [List.all_eq_true]
    intro v hv
    obtain ⟨o, spec, -, -, -, -, rfl⟩ := (hmember v).mp hv
    rfl
  refine ⟨appendNew [] named, if_pos hhashable, ?_, ?_⟩
  · intro v hv
    obtain ⟨o, spec, -, -, -, -, rfl⟩ :=
      (hmember v).mp ((mem_appendNew hv).resolve_left (by simp))
    exact ⟨_, rfl⟩
  · intro root
    rw [str_mem_appendNew, hmember]
    constructor
    · rintro (hnil | ⟨o, spec, hitem, hdeclares, hspec, hroot, heq⟩)
      · simp at hnil
      · cases heq
        exact ⟨⟨o, spec, hitem, hdeclares, hspec, rfl⟩, hroot⟩
    · rintro ⟨⟨o, spec, hitem, hdeclares, hspec, rfl⟩, hroot⟩
      exact .inr ⟨o, spec, hitem, hdeclares, hspec, hroot, rfl⟩

/-- The declaration that a root has is a known one of that root. -/
theorem expectedDependency_known {specs : List DependencySpec} {root : Str} {spec : DependencySpec}
    (hknown : ∀ spec ∈ specs, KnownSpec spec) (h : expectedDependency specs root = some spec) :
    spec ∈ specs ∧ KnownSpec spec ∧ spec.root = root := by
  have hmem : spec ∈ specs := by
    simpa using List.mem_of_find?_eq_some h
  have hroot := List.find?_some h
  exact ⟨hmem, hknown spec hmem, by simpa using hroot⟩

/-- What a reader takes from one restored entry. -/
structure RestoredEntry where
  root : Str
  isFile : Bool
  isUnprotected : Bool
  digest : Str

/-- A restored entry of an accepted report. -/
structure Restores (fileRoots : List Str) (hashes : List (Str × Json)) (item : Obj)
    (entry : RestoredEntry) : Prop where
  root : item.get "root" = .str entry.root
  kind : (item.get "kind").eqStr "file" = entry.isFile
  unprotected : (item.get "candidate_protected").isFalse = entry.isUnprotected
  file_iff : entry.isFile = true ↔ entry.root ∈ fileRoots
  required : entry.isFile = true → item.get "required_paths" = Json.strs [entry.root]
  digest : entry.isFile = true → item.get "content_sha256" = .str entry.digest ∧
    hashes.lookup entry.root = some (.str entry.digest)

/-- A valid path is the text it was read from. -/
theorem safeRelativePath_eq_some {value : Json} {path : Str}
    (h : safeRelativePath value = some path) : value = .str path := by
  obtain ⟨text, htext, h⟩ := Option.bind_eq_some_iff.mp h
  split at h
  · cases h
    cases value <;> simp_all [Json.asStr]
  · simp at h

/-- Valid paths are the texts they were read from. -/
theorem mapM_safeRelativePath {items : List Json} {paths : List Str}
    (h : items.mapM safeRelativePath = some paths) : items = paths.map .str := by
  induction items generalizing paths with
  | nil => simp_all
  | cons item rest ih =>
    rw [List.mapM_cons] at h
    obtain ⟨path, hpath, h⟩ := Option.bind_eq_some_iff.mp h
    obtain ⟨rests, hrests, h⟩ := Option.bind_eq_some_iff.mp h
    cases h
    rw [safeRelativePath_eq_some hpath, ih hrests]
    rfl

/-- A nonempty list without duplicates below a single path is that path. -/
theorem eq_singleton_of_required {required : List Str} {root : Str} (hsome : required ≠ [])
    (hnodup : required.Nodup) (hall : ∀ path ∈ required, path = root) : required = [root] := by
  match required, hsome with
  | [path], _ => rw [hall path (by simp)]
  | first :: second :: rest, _ =>
    have hfirst := hall first (by simp)
    have hsecond := hall second (by simp)
    simp [hfirst, hsecond] at hnodup

/-- An entry of the original shape has its two keys only. -/
theorem keysAre_of_isLegacyEntry {legacy : List Json} {o : Obj}
    (h : isLegacyEntry legacy o = .ok true) : o.keysAre originalKeys = true := by
  unfold isLegacyEntry at h
  split at h
  · simp at h
  next hkeys => simpa [originalKeys] using hkeys

/-- What the evaluator accepts of one entry. -/
theorem restores_of_validEntry {specs : List DependencySpec} {legacy : List Json}
    {hashes : List (Str × Json)} {item : Json} (hknown : ∀ spec ∈ specs, KnownSpec spec)
    (hroots : ∀ root, root ∈ expectedFileRoots specs ↔
      (∃ spec ∈ specs, spec.root = root) ∧ root ∈ fileRootNames)
    (h : validEntry specs legacy hashes item = .ok true) :
    ∃ o entry, item = .dict o ∧ Restores (expectedFileRoots specs) hashes o entry := by
  cases item with
  | dict o =>
    obtain ⟨isLegacy, hlegacy, h⟩ := bind_eq_ok_iff.mp h
    obtain ⟨hkeys, h⟩ := guard_eq_ok_true_iff.mp h
    obtain ⟨-, -, h⟩ := bind_eq_ok_iff.mp h
    rcases hdeclaration : entryDeclaration specs o with _ | ⟨root, spec, required⟩
    · simp [hdeclaration] at h
    simp only [hdeclaration, pure_eq_ok, Except.ok.injEq] at h
    obtain ⟨root', hroot, hdeclaration⟩ := Option.bind_eq_some_iff.mp hdeclaration
    obtain ⟨spec', hspec, hdeclaration⟩ := Option.bind_eq_some_iff.mp hdeclaration
    obtain ⟨items, hitems, hdeclaration⟩ := Option.bind_eq_some_iff.mp hdeclaration
    obtain ⟨required', hrequired, hdeclaration⟩ := Option.bind_eq_some_iff.mp hdeclaration
    cases hdeclaration
    obtain ⟨hmem, hspecKnown, hspecRoot⟩ := expectedDependency_known hknown hspec
    have hrootText := safeRelativePath_eq_some hroot
    have hrequiredText : Obj.get o "required_paths" = Json.strs required := by
      rw [Json.strs, ← mapM_safeRelativePath hrequired]
      cases hget : Obj.get o "required_paths" <;> simp_all [Json.asList]
    simp only [entryAgrees, Bool.and_eq_true, decide_eq_true_iff] at h
    obtain ⟨⟨⟨⟨⟨⟨hsome, -⟩, hnodup⟩, hall⟩, hkind⟩, -⟩, hdigest⟩ := h
    have hdeclared : root ∈ expectedFileRoots specs ↔ spec.kind = lit "file" := by
      rw [hroots, hspecKnown.kind_file_iff, hspecRoot]
      exact and_iff_right ⟨spec, hmem, hspecRoot⟩
    cases isLegacy with
    | true =>
      have hdirectory : spec.kind = "directory" := by
        simpa using ((Json.eqStr_iff _ _).mp hkind).symm
      have horiginal := keysAre_of_isLegacyEntry hlegacy
      have hnoKind : Obj.get o "kind" = .null :=
        Obj.get_of_not_has (not_has_of_originalKeys horiginal (by simp [originalKeys]))
      refine ⟨o, ⟨root, false, (Obj.get o "candidate_protected").isFalse, []⟩, rfl, hrootText,
        by simp [hnoKind, Json.eqStr], rfl, ?_, by simp, by simp⟩
      simp [hdeclared, hdirectory]
    | false =>
      have hkindText : Obj.get o "kind" = .str spec.kind := (Json.eqStr_iff _ _).mp hkind
      have hisFile : (Obj.get o "kind").eqStr "file" = decide (spec.kind = lit "file") := by
        rw [hkindText]
        exact beq_eq_decide _ _
      rcases hcontent : (Obj.get o "content_sha256").asStr with _ | digest
      · simp [hcontent] at hdigest
      refine ⟨o, ⟨root, decide (spec.kind = lit "file"), (Obj.get o "candidate_protected").isFalse,
        digest⟩, rfl, hrootText, hisFile, rfl, by simp [hdeclared], fun hfile => ?_, fun hfile => ?_⟩
      · have hfileRoot := hspecKnown.kind_file_iff.mp (by simpa using hfile)
        have hpaths : required = [root] := by
          refine eq_singleton_of_required (by simpa using hsome) hnodup fun path hpath => ?_
          have hmemPath : path ∈ spec.requiredPaths := by
            simpa using List.all_eq_true.mp hall path hpath
          simpa [hspecKnown.file hfileRoot, hspecRoot] using hmemPath
        rw [hrequiredText, hpaths]
      · have hkindFile : spec.kind = lit "file" := by simpa using hfile
        refine ⟨?_, ?_⟩
        · cases hget : Obj.get o "content_sha256" <;> simp_all [Json.asStr]
        · rcases hlookup : hashes.lookup root with _ | found
          · simp [hcontent, hkindText, hkindFile, hlookup, Json.eqStr] at hdigest
          · have hsame : found.eqStr digest = true := by
              simpa [hcontent, hkindText, hkindFile, hlookup, Json.eqStr] using hdigest
            rw [(Json.eqStr_iff _ _).mp hsame]
  | _ => simp [validEntry] at h

/-- An item of the identity document and the digest it gives to its root. -/
def Identifies (env : Env) (fileRoots : List Str) (item : Json) (entry : Str × Json) : Prop :=
  ∃ o : Obj, item = .dict o ∧ o.keysAre ["root", "content_sha256"] = true ∧
    o.get "root" = .str entry.1 ∧ entry.1 ∈ fileRoots ∧ o.get "content_sha256" = entry.2 ∧
    isLowerSha256 (env.strOrEmpty entry.2) = true

/-- What the evaluator accepts of one item of the identity document. -/
theorem identifies_of_identityEntry {fileRoots : List Str} {item : Json} {entry : Str × Json}
    (h : identityEntry env fileRoots item = .ok (some entry)) :
    Identifies env fileRoots item entry := by
  cases item with
  | dict o =>
    simp only [identityEntry] at h
    split at h
    · simp at h
    next hkeys =>
    obtain ⟨known, hknown, h⟩ := bind_eq_ok_iff.mp h
    split at h
    · simp at h
    next hin =>
    rcases hroot : Obj.get o "root" with _ | _ | _ | _ | root | _ | _ <;>
      simp only [hroot, Json.asStr, pure_eq_ok, Except.ok.injEq, reduceCtorEq] at h
    split at h
    next hdigest =>
      cases h
      refine ⟨o, rfl, by simpa using hkeys, hroot, ?_, rfl, hdigest⟩
      rw [hroot, Json.inStrSet_str] at hknown
      cases hknown
      simpa using hin
    next => simp at h
  | _ => simp [identityEntry] at h

/-- What the evaluator accepts of the identity document's items. -/
theorem identifies_of_identityEntries {fileRoots : List Str} {items : List Json}
    {hashes : List (Str × Json)} (h : identityEntries env fileRoots items = .ok (some hashes)) :
    List.Forall₂ (Identifies env fileRoots) items hashes := by
  induction items generalizing hashes with
  | nil =>
    cases h
    exact .nil
  | cons item rest ih =>
    obtain ⟨found, hfound, h⟩ := bind_eq_ok_iff.mp h
    rcases found with _ | entry
    · simp at h
    obtain ⟨others, hothers, h⟩ := bind_eq_ok_iff.mp h
    rcases others with _ | others
    · simp at h
    cases h
    exact .cons (identifies_of_identityEntry hfound) (ih hothers)

/-- What the evaluator accepts of the restored entries. -/
theorem restores_of_validEntries {specs : List DependencySpec} {legacy : List Json}
    {hashes : List (Str × Json)} {items : List Json} (hknown : ∀ spec ∈ specs, KnownSpec spec)
    (hroots : ∀ root, root ∈ expectedFileRoots specs ↔
      (∃ spec ∈ specs, spec.root = root) ∧ root ∈ fileRootNames)
    (h : validEntries specs legacy hashes items = .ok true) :
    ∃ entries, List.Forall₂ (fun item entry => ∃ o, item = .dict o ∧
      Restores (expectedFileRoots specs) hashes o entry) items entries := by
  induction items with
  | nil => exact ⟨[], .nil⟩
  | cons item rest ih =>
    obtain ⟨valid, hvalid, h⟩ := bind_eq_ok_iff.mp h
    cases valid with
    | false => simp at h
    | true =>
      obtain ⟨entries, hentries⟩ := ih (by simpa using h)
      obtain ⟨o, entry, rfl, hentry⟩ := restores_of_validEntry hknown hroots hvalid
      exact ⟨entry :: entries, .cons ⟨o, rfl, hentry⟩ hentries⟩

/-- A lower-case digest is its own canonical form. -/
theorem canonicalSha256_of_lower {digest : Str} (h : isLowerSha256 digest = true) :
    canonicalSha256 (.str digest) = some digest := by
  simp only [isLowerSha256, Bool.and_eq_true, List.all_eq_true] at h
  have hhex : isSha256 digest = true := by
    simp only [isSha256, Bool.and_eq_true, List.all_eq_true]
    exact ⟨h.1, fun c hc => by simp [isHex, h.2 c hc]⟩
  have hlower : lowerHex digest = digest := by
    rw [lowerHex, List.map_congr_left (g := id), List.map_id]
    intro c hc
    have hdigit := h.2 c hc
    simp only [isLowerHex, Str.isDigit, Bool.or_eq_true, Bool.and_eq_true, decide_eq_true_iff]
      at hdigit
    rw [if_neg]
    · rfl
    · simp only [Bool.and_eq_true, decide_eq_true_iff]
      omega
  simp [canonicalSha256, hhex, hlower]

section Readback

variable {fileRoots : List Str} {roots : List Json} {hashes : List (Str × Json)}

/-- The report reader's digest of an item of an accepted identity document. -/
theorem reportedIdentity_of_identifies {item : Json} {root digest : Str}
    (hroots : ∀ root, .str root ∈ roots ↔ root ∈ fileRoots)
    (h : Identifies env fileRoots item (root, .str digest)) :
    reportedIdentity roots item = .ok (some (.str root, digest)) := by
  obtain ⟨o, rfl, hkeys, hroot, hmem, hdigest, hlower⟩ := h
  have hcanonical : canonicalSha256 (.str digest) = some digest := by
    exact canonicalSha256_of_lower (by simpa using hlower)
  simp [reportedIdentity, hkeys, hroot, hdigest, inSet, Json.hashable, (hroots root).mpr hmem,
    hcanonical]

/-- The report reader's digest of an accepted entry: there is one for an unprotected file. -/
theorem reportedFile_of_restores {item : Obj} {entry : RestoredEntry}
    (hroots : ∀ root, .str root ∈ roots ↔ root ∈ fileRoots)
    (hlower : ∀ root digest, hashes.lookup root = some (.str digest) → isLowerSha256 digest = true)
    (h : Restores fileRoots hashes item entry) :
    reportedFile roots (.dict item) = .ok (if entry.isFile && entry.isUnprotected
      then some (.str entry.root, entry.digest) else none) := by
  by_cases hfile : entry.isFile = true
  · obtain ⟨hdigest, hlookup⟩ := h.digest hfile
    have hmem := (hroots entry.root).mpr (h.file_iff.mp hfile)
    have hrequired := (Json.pyEq_strs_right _ _).mpr (h.required hfile)
    have hcanonical := canonicalSha256_of_lower (hlower _ _ hlookup)
    cases hunprotected : entry.isUnprotected <;>
      simp_all [reportedFile, h.kind, h.unprotected, h.root, inSet, Json.hashable, Json.strs]
  · simp_all [reportedFile, h.kind]

end Readback

end Declared

section Dicts

/-- An association whose keys differ looks up each of its entries. -/
theorem lookup_of_mem_nodup {α β : Type} [BEq α] [LawfulBEq α] {entries : List (α × β)}
    (hkeys : (entries.map (·.1)).Nodup) {key : α} {value : β} (h : (key, value) ∈ entries) :
    entries.lookup key = some value := by
  induction entries with
  | nil => simp at h
  | cons entry rest ih =>
    rw [List.map_cons, List.nodup_cons] at hkeys
    rcases List.mem_cons.mp h with rfl | h
    · simp
    · have hne : key ≠ entry.1 := by
        rintro rfl
        exact hkeys.1 (List.mem_map.mpr ⟨_, h, rfl⟩)
      rw [List.lookup_cons, beq_false_of_ne hne]
      exact ih hkeys.2 h

/-- An entry of a dict with a string key. -/
def strItem (entry : Str × Str) : Json × Str := (.str entry.1, entry.2)

/-- A key that is not there yet is added at the end. -/
theorem setItem_of_not_mem {dict : List (Str × Str)} {entry : Str × Str}
    (h : entry.1 ∉ dict.map (·.1)) :
    setItem (dict.map strItem) (strItem entry).1 entry.2 = (dict ++ [entry]).map strItem := by
  have hnone : ((dict.map strItem).any fun other => other.1.pyEq (strItem entry).1) = false := by
    simp only [List.any_eq_false, List.mem_map, forall_exists_index, and_imp]
    rintro _ other hother rfl heq
    have hkey : other.1 = entry.1 := by simpa [strItem] using heq
    exact h (List.mem_map.mpr ⟨other, hother, hkey⟩)
  rw [setItem, hnone]
  simp [strItem]

/-- A dict built from entries whose keys differ has exactly those entries. -/
theorem dictOf_strItems {entries : List (Str × Str)} (h : (entries.map (·.1)).Nodup) :
    dictOf (entries.map strItem) = entries.map strItem := by
  have hfold (rest dict : List (Str × Str)) (hkeys : ((dict ++ rest).map (·.1)).Nodup) :
      (rest.map strItem).foldl (fun dict entry => setItem dict entry.1 entry.2)
        (dict.map strItem) = (dict ++ rest).map strItem := by
    induction rest generalizing dict with
    | nil => simp
    | cons entry rest ih =>
      have hnew : entry.1 ∉ dict.map (·.1) := by
        simp only [List.map_append, List.map_cons, List.nodup_append] at hkeys
        intro hmem
        exact hkeys.2.2 _ hmem entry.1 (by simp) rfl
      have hset := setItem_of_not_mem hnew
      simp only [strItem] at hset
      simp only [List.map_cons, List.foldl_cons, strItem] at ih ⊢
      rw [hset, ih (dict ++ [entry]) (by simpa using hkeys)]
      simp
  exact hfold entries [] (by simpa using h)

/-- Dicts with string keys are the same when they are as long and one lies in the other. -/
theorem sameDict_strItems_iff {a b : List (Str × Str)} :
    sameDict (a.map strItem) (b.map strItem) = true ↔
      a.length = b.length ∧ ∀ entry ∈ a, entry ∈ b := by
  simp only [sameDict, List.length_map, Bool.and_eq_true, beq_iff_eq, List.all_eq_true,
    List.any_eq_true, List.mem_map, forall_exists_index, and_imp, forall_apply_eq_imp_iff₂]
  refine and_congr_right fun _ => forall₂_congr fun entry _ => ?_
  constructor
  · rintro ⟨_, ⟨other, hother, rfl⟩, hkey, hvalue⟩
    have hsame : other = entry := Prod.ext (by simpa [strItem] using hkey.symm) hvalue
    exact hsame ▸ hother
  · intro h
    exact ⟨_, ⟨entry, h, rfl⟩, by simp [strItem], rfl⟩

end Dicts

section Files

variable {entries : List RestoredEntry} {digests : List (Str × Str)}

/-- The files among some entries with their digests. -/
def fileDigests (entries : List RestoredEntry) : List (Str × Str) :=
  (entries.filter (·.isFile)).map fun entry => (entry.root, entry.digest)

/-- The unprotected files are all files exactly when no file is protected. -/
theorem unprotected_length_iff :
    (entries.filter fun entry => entry.isFile && entry.isUnprotected).length =
        (entries.filter (·.isFile)).length ↔
      ∀ entry ∈ entries, entry.isFile = true → entry.isUnprotected = true := by
  have hfilter : (entries.filter fun entry => entry.isFile && entry.isUnprotected) =
      (entries.filter (·.isFile)).filter (·.isUnprotected) := by
    rw [List.filter_filter]
    exact List.filter_congr fun entry _ => Bool.and_comm _ _
  rw [hfilter, List.length_filter_eq_length_iff]
  simp

/-- The roots of the unprotected files. -/
theorem mem_fileDigests_unprotected {root : Str} :
    root ∈ (fileDigests (entries.filter (·.isUnprotected))).map (·.1) ↔
      ∃ entry ∈ entries, entry.isFile = true ∧ entry.isUnprotected = true ∧ entry.root = root := by
  simp [fileDigests, and_assoc]

/-- Entries with different roots have files with different roots. -/
theorem fileDigests_nodup (hroots : (entries.map (·.root)).Nodup) :
    ((fileDigests (entries.filter (·.isUnprotected))).map (·.1)).Nodup := by
  rw [fileDigests, List.map_map]
  refine hroots.sublist (List.Sublist.map _ ?_)
  exact List.filter_sublist.trans List.filter_sublist

/-- The report reader's comparison of accepted files with the digests of the image succeeds exactly
when no file is protected. -/
theorem filesAgree_iff (hroots : (entries.map (·.root)).Nodup)
    (hkeys : (digests.map (·.1)).Nodup)
    (hsame : ∀ root, (∃ entry ∈ entries, entry.isFile = true ∧ entry.root = root) ↔
      root ∈ digests.map (·.1))
    (hdigest : ∀ entry ∈ entries, entry.isFile = true → (entry.root, entry.digest) ∈ digests)
    {files : List (Json × Str)}
    (hfiles : files = (fileDigests (entries.filter (·.isUnprotected))).map strItem) :
    ((dictOf files).length == (entries.filter (·.isFile)).length &&
        sameDict (dictOf files) (digests.map strItem)) = true ↔
      ∀ entry ∈ entries, entry.isFile = true → entry.isUnprotected = true := by
  have hnodup := fileDigests_nodup hroots
  rw [hfiles, dictOf_strItems hnodup, Bool.and_eq_true, beq_iff_eq, sameDict_strItems_iff,
    ← unprotected_length_iff, List.length_map, fileDigests, List.length_map, List.filter_filter]
  refine and_iff_left_of_imp fun hlength => ⟨?_, ?_⟩
  · have hall := unprotected_length_iff.mp hlength
    have hperm : ((fileDigests (entries.filter (·.isUnprotected))).map (·.1)).Perm
        (digests.map (·.1)) := by
      rw [List.perm_ext_iff_of_nodup hnodup hkeys]
      intro root
      rw [mem_fileDigests_unprotected, ← hsame]
      constructor
      · rintro ⟨entry, hentry, hfile, -, rfl⟩
        exact ⟨entry, hentry, hfile, rfl⟩
      · rintro ⟨entry, hentry, hfile, rfl⟩
        exact ⟨entry, hentry, hfile, hall entry hentry hfile, rfl⟩
    simpa [fileDigests, List.filter_filter] using hperm.length_eq
  · simp only [List.mem_map, List.mem_filter, Bool.and_eq_true]
    rintro _ ⟨entry, ⟨hentry, hfile, -⟩, rfl⟩
    exact hdigest entry hentry hfile

end Files

section Accepted

variable {env : Env} {f2pPlan p2pPlan report : Obj} {identities : Json} {imageId : Str}

/-- What an accepted report and the identity document of its image consist of. -/
structure AcceptedReport (env : Env) (f2pPlan p2pPlan : Obj) (identities : Json) (imageId : Str)
    (report : Obj) (raw items : List Json) (fileRoots : List Str) (hashes : List (Str × Json))
    (entries : List RestoredEntry) : Prop where
  schema : (report.get "schema").eqStr "opencollab.eval_runtime_dependencies.v1" = true
  phase : (report.get "phase").eqStr "restored" = true
  source : (report.get "source").eqStr "pinned_image_runtime_with_trusted_public_preparation" = true
  solverVisible : (report.get "solver_visible").isFalse = true
  specSha256 : report.get "spec_sha256" = .str (specSha256 env raw)
  written : report.get "entries" = .list items
  atMost : items.length ≤ 16
  restores : List.Forall₂ (fun item entry => ∃ o, item = .dict o ∧
    Restores fileRoots hashes o entry) items entries
  distinctRoots : (entries.map (·.root)).Nodup
  identityHashes : identityHashes env fileRoots identities imageId = .ok (some hashes)
  sameRoots : ∀ root, (∃ entry ∈ entries, entry.isFile = true ∧ entry.root = root) ↔
    root ∈ hashes.map (·.1)

/-- The roots of restored entries, as both readers find them. -/
theorem roots_of_restores {fileRoots : List Str} {hashes : List (Str × Json)} {items : List Json}
    {entries : List RestoredEntry}
    (h : List.Forall₂ (fun item entry => ∃ o, item = .dict o ∧
      Restores fileRoots hashes o entry) items entries) :
    (items.filterMap Json.asDict).map (Obj.get · "root") = entries.map (.str ·.root) ∧
      restoredFileRoots fileRoots items = (entries.filter (·.isFile)).map (·.root) := by
  induction h with
  | nil => exact ⟨rfl, rfl⟩
  | @cons item entry items entries hitem hrest ih =>
    obtain ⟨o, rfl, hentry⟩ := hitem
    refine ⟨by simpa [Json.asDict, hentry.root] using ih.1, ?_⟩
    have hkept : ((Obj.get o "kind").eqStr "file" || fileRoots.contains entry.root) =
        entry.isFile := by
      rw [hentry.kind, Bool.eq_iff_iff]
      simp [← hentry.file_iff]
    have hrestored := ih.2
    simp only [restoredFileRoots] at hrestored ⊢
    simp only [List.filterMap_cons, Json.asDict_dict, hentry.root, Json.asStr_str, hkept]
    cases hfile : entry.isFile
    · simpa [hfile] using hrestored
    · simpa [hfile] using hrestored

/-- Strings are distinct as values exactly when they are distinct. -/
theorem allDistinct_strs_iff (texts : List Str) :
    Json.allDistinct (texts.map .str) = true ↔ texts.Nodup := by
  induction texts with
  | nil => simp [Json.allDistinct]
  | cons text rest ih =>
    rw [List.map_cons, Json.allDistinct, Bool.and_eq_true, ih, List.nodup_cons,
      Bool.not_eq_true', ← Bool.not_eq_true, elem_str_iff]
    simp

/-- What the evaluator accepted. -/
theorem acceptedReport_of_read {raw : List Json} {specs : List DependencySpec}
    (hraw : rawPlanRuntimeDependencySpecs [f2pPlan, p2pPlan] = .ok raw)
    (hspecs : normalizeDependencies env raw = .ok specs)
    (hknown : ∀ spec ∈ specs, KnownSpec spec)
    (hroots : ∀ root, root ∈ expectedFileRoots specs ↔
      (∃ spec ∈ specs, spec.root = root) ∧ root ∈ fileRootNames)
    (h : restoredReportValid env f2pPlan p2pPlan identities imageId report = .ok true) :
    ∃ items hashes entries, AcceptedReport env f2pPlan p2pPlan identities imageId report raw items
      (expectedFileRoots specs) hashes entries := by
  obtain ⟨raw', hraw', h⟩ := bind_eq_ok_iff.mp h
  obtain rfl : raw = raw' := by simpa [hraw] using hraw'
  obtain ⟨specs', hspecs', h⟩ := bind_eq_ok_iff.mp h
  obtain rfl : specs = specs' := by
    simpa [planRuntimeDependencySpecs, hraw, hspecs] using hspecs'
  obtain ⟨found, hfound, h⟩ := bind_eq_ok_iff.mp h
  obtain ⟨hheader, h⟩ := guard_eq_ok_true_iff.mp h
  rcases hentries : (report.get "entries").asList with _ | items
  · simp [hentries] at h
  simp only [hentries] at h
  split at h
  · simp at h
  next hcount =>
  rcases found with _ | hashes
  · simp at h
  obtain ⟨valid, hvalid, h⟩ := bind_eq_ok_iff.mp h
  cases valid with
  | false => simp at h
  | true =>
    obtain ⟨entries, hrestores⟩ := restores_of_validEntries hknown hroots hvalid
    obtain ⟨hrootValues, hrestored⟩ := roots_of_restores hrestores
    simp only [Bool.not_true, Bool.false_eq_true, if_false, pure_eq_ok, Except.ok.injEq,
      Bool.and_eq_true, hrootValues, hrestored] at h
    simp only [Bool.or_eq_false_iff, Bool.not_eq_false'] at hheader
    obtain ⟨⟨⟨⟨hschema, hphase⟩, hsource⟩, hvisible⟩, hsha⟩ := hheader
    refine ⟨items, hashes, entries, hschema, hphase, hsource, hvisible,
      (Json.eqStr_iff _ _).mp hsha, ?_, by simpa using hcount, hrestores, ?_, hfound, ?_⟩
    · cases hget : report.get "entries" <;> simp_all [Json.asList]
    · rw [← allDistinct_strs_iff, List.map_map]
      exact h.1
    · have hsame := h.2
      simp only [sameSet, Bool.and_eq_true, List.all_eq_true, List.contains_iff_mem] at hsame
      intro root
      constructor
      · rintro ⟨entry, hentry, hfile, rfl⟩
        exact hsame.1 _ (List.mem_map.mpr ⟨entry, List.mem_filter.mpr ⟨hentry, hfile⟩, rfl⟩)
      · intro hroot
        obtain ⟨entry, hentry, rfl⟩ := List.mem_map.mp (hsame.2 root hroot)
        obtain ⟨hentry, hfile⟩ := List.mem_filter.mp hentry
        exact ⟨entry, hentry, hfile, rfl⟩

/-- Paired lists have a partner for every item of the second. -/
theorem exists_left_of_forall₂ {α β : Type} {R : α → β → Prop} {as : List α} {bs : List β}
    (h : List.Forall₂ R as bs) : ∀ b ∈ bs, ∃ a ∈ as, R a b := by
  induction h with
  | nil => simp
  | @cons a b as bs hab _ ih =>
    intro found hfound
    rcases List.mem_cons.mp hfound with rfl | hfound
    · exact ⟨a, by simp, hab⟩
    · obtain ⟨other, hother, hrelated⟩ := ih found hfound
      exact ⟨other, by simp [hother], hrelated⟩

/-- Paired lists have a partner for every item of the first. -/
theorem exists_right_of_forall₂ {α β : Type} {R : α → β → Prop} {as : List α} {bs : List β}
    (h : List.Forall₂ R as bs) : ∀ a ∈ as, ∃ b ∈ bs, R a b :=
  exists_left_of_forall₂ (R := fun b a => R a b) h.flip

/-- The identity document of a pinned image that has file roots. -/
structure PinnedDocument (env : Env) (fileRoots : List Str) (imageId : Str) (document : Obj)
    (items : List Json) (hashes : List (Str × Json)) : Prop where
  schema : (document.get "schema").eqStr "opencollab.runtime_dependency_identities.v1" = true
  image : document.get "image_id" = .str imageId
  imageDigest : isImageDigest imageId = true
  written : document.get "entries" = .list items
  atMost : items.length ≤ 16
  identifies : List.Forall₂ (Identifies env fileRoots) items hashes
  distinctRoots : (hashes.map (·.1)).Nodup

/-- What the evaluator accepts as the identity document of a pinned image. -/
theorem pinnedDocument_of_identityHashes {fileRoots : List Str} {hashes : List (Str × Json)}
    (hsome : fileRoots ≠ []) (himage : imageId ≠ [])
    (h : identityHashes env fileRoots identities imageId = .ok (some hashes)) :
    ∃ document items, identities = .dict document ∧
      PinnedDocument env fileRoots imageId document items hashes := by
  cases identities with
  | dict document =>
    simp only [identityHashes] at h
    split at h
    · simp at h
    next hheader =>
    rcases hentries : (Obj.get document "entries").asList with _ | items
    · simp [hentries] at h
    simp only [hentries] at h
    split at h
    · simp at h
    next hcount =>
    obtain ⟨found, hfound, h⟩ := bind_eq_ok_iff.mp h
    rcases found with _ | found
    · simp at h
    simp only [pure_eq_ok, Except.ok.injEq, decide_eq_true_eq, Option.ite_none_right_eq_some,
      Option.some.injEq] at h
    obtain ⟨hnodup, rfl⟩ := h
    simp only [Bool.or_eq_true, Bool.not_eq_true', not_or, Bool.not_eq_false] at hheader
    obtain ⟨⟨hschema, hdigest⟩, hsame⟩ := hheader
    have hid : Obj.get document "image_id" = .str imageId :=
      (Json.eqStr_iff _ _).mp (hsame.resolve_left (by simpa using himage))
    refine ⟨document, items, rfl, hschema, hid, ?_, ?_, by simpa using hcount,
      identifies_of_identityEntries hfound, hnodup⟩
    · rw [hid] at hdigest
      simpa using hdigest
    · cases hget : Obj.get document "entries" <;> simp_all [Json.asList]
  | null => simp [identityHashes, hsome] at h
  | _ => simp [identityHashes] at h

/-- Every digest that an accepted file was compared with is a text. -/
theorem digests_of_accepted {raw items : List Json} {fileRoots : List Str}
    {hashes : List (Str × Json)} {entries : List RestoredEntry}
    (h : AcceptedReport env f2pPlan p2pPlan identities imageId report raw items fileRoots hashes
      entries) (hnodup : (hashes.map (·.1)).Nodup) :
    ∃ digests : List (Str × Str), hashes = digests.map (fun entry => (entry.1, .str entry.2)) ∧
      ∀ entry ∈ entries, entry.isFile = true → (entry.root, entry.digest) ∈ digests := by
  have hlookup : ∀ entry ∈ entries, entry.isFile = true →
      hashes.lookup entry.root = some (.str entry.digest) := by
    intro entry hentry hfile
    obtain ⟨item, -, o, -, hrestores⟩ := exists_left_of_forall₂ h.restores entry hentry
    exact (hrestores.digest hfile).2
  have htext : ∀ identity ∈ hashes, ∃ digest, identity.2 = .str digest := by
    intro identity hidentity
    obtain ⟨entry, hentry, hfile, hroot⟩ := (h.sameRoots identity.1).mpr
      (List.mem_map.mpr ⟨identity, hidentity, rfl⟩)
    have hfound := lookup_of_mem_nodup hnodup hidentity
    rw [← hroot, hlookup entry hentry hfile] at hfound
    exact ⟨entry.digest, (Option.some.inj hfound).symm⟩
  have hback : hashes =
      (hashes.map fun identity => (identity.1, identity.2.asStr.getD [])).map
        fun entry => (entry.1, .str entry.2) := by
    rw [List.map_map, List.map_congr_left (g := id), List.map_id]
    intro identity hidentity
    obtain ⟨digest, hdigest⟩ := htext identity hidentity
    exact Prod.ext rfl (by simp [hdigest])
  refine ⟨_, hback, fun entry hentry hfile => ?_⟩
  obtain ⟨before, after, hsplit, -⟩ := List.lookup_eq_some_iff.mp (hlookup entry hentry hfile)
  exact List.mem_map.mpr ⟨(entry.root, .str entry.digest), by simp [hsplit], rfl⟩

/-- Every file among the restored entries of a report is declared unprotected. -/
def FilesUnprotected (report : Obj) : Prop :=
  ∀ items, report.get "entries" = .list items → ∀ o, .dict o ∈ items →
    (Obj.get o "kind").eqStr "file" = true → (Obj.get o "candidate_protected").isFalse = true

/-- The dependencies as a payload reports them to a reader that expects the plans of the run. -/
structure ReportsDependencies (f2pPlan p2pPlan report : Obj) (identities : Json) (imageId : Str)
    (payload testsStatus : Obj) (expectedF2p expectedP2p : Option Json) : Prop where
  identities : payload.get "runtime_dependency_identities" = identities
  dependencies : payload.get "runtime_dependencies" = .dict report
  image : payload.get "eval_image_id" = .str imageId
  f2pPlan : planOr expectedF2p (testsStatus.get "fail_to_pass_plan") = .dict f2pPlan
  p2pPlan : planOr expectedP2p (testsStatus.get "pass_to_pass_plan") = .dict p2pPlan

/-- The condition on the written entries, read off the accepted ones. -/
theorem filesUnprotected_iff {raw items : List Json} {fileRoots : List Str}
    {hashes : List (Str × Json)} {entries : List RestoredEntry}
    (h : AcceptedReport env f2pPlan p2pPlan identities imageId report raw items fileRoots hashes
      entries) :
    FilesUnprotected report ↔
      ∀ entry ∈ entries, entry.isFile = true → entry.isUnprotected = true := by
  constructor
  · intro hunprotected entry hentry hfile
    obtain ⟨_, hitem, o, rfl, hrestores⟩ := exists_left_of_forall₂ h.restores entry hentry
    rw [← hrestores.unprotected]
    exact hunprotected items h.written o hitem (hrestores.kind.trans hfile)
  · intro hunprotected items' hitems o ho hkind
    obtain rfl : items = items' := by simpa [h.written] using hitems
    obtain ⟨entry, hentry, o', heq, hrestores⟩ := exists_right_of_forall₂ h.restores _ ho
    cases heq
    rw [hrestores.unprotected]
    exact hunprotected entry hentry (hrestores.kind.symm.trans hkind)

/-- The report reader's dict of restored files. -/
theorem reportedFiles_eq {roots : List Json} {fileRoots : List Str} {hashes : List (Str × Json)}
    {items : List Json} {entries : List RestoredEntry}
    (hroots : ∀ root, .str root ∈ roots ↔ root ∈ fileRoots)
    (hlower : ∀ root digest, hashes.lookup root = some (.str digest) → isLowerSha256 digest = true)
    (h : List.Forall₂ (fun item entry => ∃ o, item = .dict o ∧
      Restores fileRoots hashes o entry) items entries) :
    ∃ found, items.mapM (reportedFile roots) = .ok found ∧
      found.filterMap id = (fileDigests (entries.filter (·.isUnprotected))).map strItem ∧
      (items.filter isFileEntry).length = (entries.filter (·.isFile)).length := by
  induction h with
  | nil => exact ⟨[], rfl, rfl, rfl⟩
  | @cons item entry items entries hitem hrest ih =>
    obtain ⟨o, rfl, hentry⟩ := hitem
    obtain ⟨found, hfound, hfiles, hlength⟩ := ih
    refine ⟨(if entry.isFile && entry.isUnprotected then some (.str entry.root, entry.digest)
      else none) :: found, ?_, ?_, ?_⟩
    · rw [List.mapM_cons, reportedFile_of_restores hroots hlower hentry, hfound]
      rfl
    · cases hfile : entry.isFile <;> cases hunprotected : entry.isUnprotected <;>
        simp_all [fileDigests, strItem]
    · have hkind := hentry.kind
      cases hfile : entry.isFile <;> simp_all [isFileEntry]

/-- The report reader's dict of the image's digests. -/
theorem reportedIdentities_eq {roots : List Json} {fileRoots : List Str} {items : List Json}
    {digests : List (Str × Str)} (hroots : ∀ root, .str root ∈ roots ↔ root ∈ fileRoots)
    (h : List.Forall₂ (Identifies env fileRoots) items
      (digests.map fun entry => (entry.1, .str entry.2))) :
    items.mapM (reportedIdentity roots) = .ok (digests.map fun entry => some (strItem entry)) := by
  induction digests generalizing items with
  | nil =>
    rw [List.map_nil, List.forall₂_nil_right_iff] at h
    subst h
    rfl
  | cons entry rest ih =>
    rw [List.map_cons, List.forall₂_cons_right_iff] at h
    obtain ⟨item, others, hitem, hothers, rfl⟩ := h
    rw [List.mapM_cons, reportedIdentity_of_identifies hroots hitem, ih hothers]
    rfl

/-- The digests of an accepted identity document are in lower case. -/
theorem lower_of_identifies {fileRoots : List Str} {items : List Json} {digests : List (Str × Str)}
    (h : List.Forall₂ (Identifies env fileRoots) items
      (digests.map fun entry => (entry.1, .str entry.2))) (root digest : Str)
    (hlookup : (digests.map fun entry => (entry.1, Json.str entry.2)).lookup root =
      some (.str digest)) : isLowerSha256 digest = true := by
  obtain ⟨before, after, hsplit, -⟩ := List.lookup_eq_some_iff.mp hlookup
  obtain ⟨_, -, o, -, -, -, -, -, hlower⟩ := exists_left_of_forall₂ h (root, .str digest)
    (by simp [hsplit])
  simpa using hlower

/-- The report reader accepts what the evaluator accepted exactly when no restored file is
protected. -/
theorem runtimeFileDependencyProof_eq {kind kind' : Str} {payload testsStatus : Obj}
    {expectedF2p expectedP2p : Option Json}
    (hsha : ∀ data, isLowerSha256 (env.sha256 data) = true)
    (hf2p : validatedTestPlanKind env (.dict f2pPlan) false = .ok (some kind))
    (hp2p : validatedTestPlanKind env (.dict p2pPlan) false = .ok (some kind'))
    (himage : imageId ≠ [])
    (haccepted : restoredReportValid env f2pPlan p2pPlan identities imageId report = .ok true)
    (hpayload : ReportsDependencies f2pPlan p2pPlan report identities imageId payload testsStatus
      expectedF2p expectedP2p) :
    runtimeFileDependencyProof env payload testsStatus expectedF2p expectedP2p = .ok true ↔
      FilesUnprotected report := by
  obtain ⟨f2p, hf2pItems, hf2pKnown⟩ := trusted_declaresKnown hf2p
  obtain ⟨p2p, hp2pItems, hp2pKnown⟩ := trusted_declaresKnown hp2p
  obtain ⟨raw, hraw, hreported, hrawKnown⟩ :=
    rawSpecs_of_declaresKnown hf2pItems hp2pItems hf2pKnown hp2pKnown
  obtain ⟨specs, hspecs, hknown, hdeclared⟩ := @normalizeDependencies_of_declaresKnown env raw
    hrawKnown
  have hfileRoots := mem_expectedFileRoots hknown hdeclared
  obtain ⟨items, hashes, entries, h⟩ := acceptedReport_of_read hraw hspecs hknown
    (fun root => by rw [hfileRoots, hdeclared]) haccepted
  obtain ⟨roots, hroots, hrootTexts, hrootsMem⟩ := reportedFileRoots_of_declaresKnown hrawKnown
  have hsameRoots (root : Str) : .str root ∈ roots ↔ root ∈ expectedFileRoots specs := by
    rw [hrootsMem, hfileRoots]
  rw [filesUnprotected_iff h, runtimeFileDependencyProof, hpayload.f2pPlan, hpayload.p2pPlan,
    hreported, ok_bind, hroots, ok_bind, hpayload.identities, hpayload.dependencies]
  rcases hnone : roots with _ | ⟨first, rest⟩
  · refine iff_of_true rfl fun entry hentry hfile => ?_
    obtain ⟨_, -, o, -, hrestores⟩ := exists_left_of_forall₂ h.restores entry hentry
    have hmem := (hsameRoots entry.root).mpr (hrestores.file_iff.mp hfile)
    simp [hnone] at hmem
  have hrootsSome : roots.isEmpty = false := by simp [hnone]
  have hfileRootsSome : expectedFileRoots specs ≠ [] := by
    obtain ⟨root, rfl⟩ := hrootTexts first (by simp [hnone])
    exact List.ne_nil_of_mem ((hsameRoots root).mp (by simp [hnone]))
  rw [← hnone]
  obtain ⟨document, documentItems, rfl, hdocument⟩ :=
    pinnedDocument_of_identityHashes hfileRootsSome himage h.identityHashes
  obtain ⟨digests, rfl, hdigests⟩ := digests_of_accepted h hdocument.distinctRoots
  have hkeys : (digests.map (·.1)).Nodup := by
    simpa [Function.comp_def] using hdocument.distinctRoots
  have hidentities := reportedIdentities_eq hsameRoots hdocument.identifies
  obtain ⟨found, hfound, hfiles, hcount⟩ :=
    reportedFiles_eq hsameRoots (lower_of_identifies hdocument.identifies) h.restores
  have hheader : reportedHeadersValid env payload document report raw = true := by
    have himageText := (Json.eqStr_iff _ _).mpr hdocument.image
    simp [reportedHeadersValid, hpayload.image, hdocument.schema, himageText, h.schema,
      h.phase, h.source, h.solverVisible, h.specSha256, hdocument.imageDigest, sha256Equal,
      canonicalSha256_of_lower (hsha _), specSha256]
  have hlength : (digests.map strItem).length = documentItems.length := by
    simpa using hdocument.identifies.length_eq.symm
  rw [← filesAgree_iff h.distinctRoots hkeys (by simpa [Function.comp_def] using h.sameRoots)
    hdigests hfiles]
  simp only [hrootsSome, Bool.false_eq_true, if_false, Json.asDict_dict, hdocument.written,
    h.written, Json.asList_list, hheader]
  have hcounts : (!true || decide (16 < documentItems.length) || decide (16 < items.length)) =
      false := by
    simpa using ⟨hdocument.atMost, h.atMost⟩
  have hdict : dictOf (List.filterMap id (digests.map fun entry => some (strItem entry))) =
      digests.map strItem := by
    rw [← dictOf_strItems hkeys]
    simp [List.filterMap_map]
  rw [hcounts, if_neg (by simp), hidentities, ok_bind, hdict, hlength, hfound]
  simp [hcount]

end Accepted

end OpenCollabEval
