import OpenCollabEval.Evaluation.RuntimeStore

/-!
# Agreement about restored dependencies

Both readers of a restored report together, for the plans of one evaluation: what the evaluator
accepts without an error, the report reader accepts exactly when no restored file is protected. For
a report of the store this reads: when no file that was put back was declared as protected.

A NodeBB plan declares two protected files, so that a tree that has one of them is evaluated and
then refused.
-/

open Python

namespace OpenCollabEval

/-- Read a report that the evaluator accepted. -/
theorem restoredReportValid_of_read {env : Env} {f2pPlan p2pPlan report : Obj} {identities : Json}
    {imageId : Str} (h : readRuntimeDependencies env (.value (.dict report)) f2pPlan p2pPlan
      identities imageId = .ok (report, [])) :
    restoredReportValid env f2pPlan p2pPlan identities imageId report = .ok true := by
  obtain ⟨valid, hvalid, h⟩ := bind_eq_ok_iff.mp h
  cases valid with
  | true => exact hvalid
  | false => simp at h

/-- The declarations of trusted plans are known. -/
theorem knownSpecs_of_trusted {env : Env} {f2pPlan p2pPlan : Obj} {kind kind' : Str}
    {specs : List DependencySpec}
    (hf2p : validatedTestPlanKind env (.dict f2pPlan) false = .ok (some kind))
    (hp2p : validatedTestPlanKind env (.dict p2pPlan) false = .ok (some kind'))
    (hspecs : planRuntimeDependencySpecs env [f2pPlan, p2pPlan] = .ok specs) :
    ∀ spec ∈ specs, KnownSpec spec := by
  obtain ⟨f2p, hf2pItems, hf2pKnown⟩ := trusted_declaresKnown hf2p
  obtain ⟨p2p, hp2pItems, hp2pKnown⟩ := trusted_declaresKnown hp2p
  obtain ⟨raw, hraw, -, hrawKnown⟩ :=
    rawSpecs_of_declaresKnown hf2pItems hp2pItems hf2pKnown hp2pKnown
  obtain ⟨specs', hspecs', hknown, -⟩ := @normalizeDependencies_of_declaresKnown env raw
    hrawKnown
  obtain rfl : specs' = specs := by
    simpa [planRuntimeDependencySpecs, hraw, hspecs'] using hspecs
  exact hknown

/-- A restored report that the evaluator accepts is accepted by the report reader exactly when every
file in it is unprotected; for a report of the store, when no file that was put back was declared as
protected. -/
theorem restoredDependencies_accepted_iff {env : Env} {f2pPlan p2pPlan report payload
    testsStatus : Obj} {identities : Json} {imageId : Str} {expectedF2p expectedP2p : Option Json}
    (hsha : ∀ data, isLowerSha256 (env.sha256 data) = true)
    (hf2p : ∃ kind, validatedTestPlanKind env (.dict f2pPlan) false = .ok (some kind))
    (hp2p : ∃ kind, validatedTestPlanKind env (.dict p2pPlan) false = .ok (some kind))
    (himage : imageId ≠ [])
    (hread : readRuntimeDependencies env (.value (.dict report)) f2pPlan p2pPlan identities
      imageId = .ok (report, []))
    (hpayload : ReportsDependencies f2pPlan p2pPlan report identities imageId payload testsStatus
      expectedF2p expectedP2p) :
    (runtimeFileDependencyProof env payload testsStatus expectedF2p expectedP2p = .ok true ↔
      FilesUnprotected report) ∧
    ∀ specs stashViews restoreViews manifest,
      planRuntimeDependencySpecs env [f2pPlan, p2pPlan] = .ok specs →
      stash env (.list (specDocument specs)) stashViews = .ok manifest →
      restore env manifest restoreViews = .ok report →
      (runtimeFileDependencyProof env payload testsStatus expectedF2p expectedP2p = .ok true ↔
        ∀ spec ∈ specs, spec.kind = lit "file" → RestoresRoot report spec.root →
          spec.candidateProtected = .bool false) := by
  obtain ⟨kind, hf2p⟩ := hf2p
  obtain ⟨kind', hp2p⟩ := hp2p
  have hreaders := runtimeFileDependencyProof_eq hsha hf2p hp2p himage
    (restoredReportValid_of_read hread) hpayload
  refine ⟨hreaders, fun specs stashViews restoreViews manifest hspecs hstash hrestore => ?_⟩
  rw [hreaders]
  exact filesUnprotected_of_run (knownSpecs_of_trusted hf2p hp2p hspecs) hstash hrestore

/-- The plan of one Mocha target of NodeBB. -/
def mochaPlan : Obj := .of
  [("schema", .str planSchema), ("adapter", "mocha-json-stream"),
    ("coverage", "parser_backed_exact_targets"), ("coverage_verified", .bool true),
    ("declared_targets", Json.strs ["test/a.js | suite works"]),
    ("target_batches", .list [Json.strs ["test/a.js | suite works"]]),
    ("commands", Json.strs [(mochaTestCommand asciiEnv ["test/a.js | suite works"] ["test/a.js"]
      []).toOption.getD []]),
    ("proofs", .list [.dict (Obj.of [("kind", "js_parser_backed_targets"),
      ("targets", Json.strs ["test/a.js | suite works"]), ("repo_language", "js"),
      ("repo", "nodebb/nodebb"), ("test_files", Json.strs ["test/a.js"])])]),
    ("runtime_dependencies", .list (javascriptRuntimeDependencies "mocha-json-stream"))]

/-- The empty plan is trusted. -/
theorem emptyPlan_trusted : validatedTestPlanKind asciiEnv (.dict emptyPlan) false =
    .ok (some emptyPlanKind) := by
  decide +kernel

/-- A tree of some files, all of them ignored by git. -/
def ignoredFiles (names : List Str) : RepositoryView where
  pathExists := names.contains
  executable _ := false
  isSymlink _ := false
  isDir _ := false
  isFile := names.contains
  ignored := names.contains
  resolvesWithin _ _ := true
  content _ := []

/-- The store while one ignored file is put back. -/
def restoreFileView (name stored : Str) : RestoreView :=
  ⟨ignoredFiles [stored], ignoredFiles [], ignoredFiles [name]⟩

/-- The digest of an image. -/
def pinnedImage : Str := lit "sha256:" ++ List.replicate 64 97

/-- The identity document of an image with one file. -/
def pinnedFile (name : Str) : Json := .dict (Obj.of
  [("schema", "opencollab.runtime_dependency_identities.v1"), ("image_id", .str pinnedImage),
    ("entries", .list [.dict (Obj.of [("root", .str name),
      ("content_sha256", .str (asciiEnv.sha256 []))])])])

/-- The payload of a run of `mochaPlan` on that image. -/
def mochaPayload (name : Str) (report : Obj) : Obj := Obj.of
  [("runtime_dependency_identities", pinnedFile name), ("runtime_dependencies", .dict report),
    ("eval_image_id", .str pinnedImage)]

/-- The status document of a run of `mochaPlan`. -/
def mochaStatus : Obj := Obj.of
  [("fail_to_pass_plan", .dict mochaPlan), ("pass_to_pass_plan", .dict emptyPlan)]

/-- A run of `mochaPlan` in a repository with one ignored file: what is declared, put away and put
back, and what the two readers say to it. -/
def mochaRun (name stored : Str) : Except PyErr (Bool × Bool) := do
  let specs ← planRuntimeDependencySpecs asciiEnv [mochaPlan, emptyPlan]
  let manifest ← stash asciiEnv (.list (specDocument specs)) fun _ => ignoredFiles [name]
  let report ← restore asciiEnv manifest fun _ => restoreFileView name stored
  let evaluator ← restoredReportValid asciiEnv mochaPlan emptyPlan (pinnedFile name) pinnedImage
    report
  let reader ← runtimeFileDependencyProof asciiEnv (mochaPayload name report) mochaStatus none none
  return (evaluator, reader)

theorem mochaPlan_trusted : validatedTestPlanKind asciiEnv (.dict mochaPlan) false =
    .ok (some (lit "mocha-json-stream")) := by
  decide +kernel

/-- Only the evaluator accepts a protected file. -/
theorem mochaRun_protected :
    mochaRun (lit "build/cache-buster") (lit "root-04") = .ok (true, false) := by
  decide +kernel

/-- Both readers accept an unprotected file. -/
theorem mochaRun_unprotected : mochaRun (lit "package.json") (lit "root-01") = .ok (true, true) := by
  decide +kernel

/-- The report of a run that the evaluator accepts. -/
theorem report_of_mochaRun {name stored : Str} {reader : Bool}
    (h : mochaRun name stored = .ok (true, reader)) :
    ∃ specs manifest report,
      planRuntimeDependencySpecs asciiEnv [mochaPlan, emptyPlan] = .ok specs ∧
      stash asciiEnv (.list (specDocument specs)) (fun _ => ignoredFiles [name]) = .ok manifest ∧
      restore asciiEnv manifest (fun _ => restoreFileView name stored) = .ok report ∧
      readRuntimeDependencies asciiEnv (.value (.dict report)) mochaPlan emptyPlan (pinnedFile name)
        pinnedImage = .ok (report, []) ∧
      runtimeFileDependencyProof asciiEnv (mochaPayload name report) mochaStatus none none =
        .ok reader := by
  obtain ⟨specs, hspecs, h⟩ := bind_eq_ok_iff.mp h
  obtain ⟨manifest, hstash, h⟩ := bind_eq_ok_iff.mp h
  obtain ⟨report, hrestore, h⟩ := bind_eq_ok_iff.mp h
  obtain ⟨evaluator, hevaluator, h⟩ := bind_eq_ok_iff.mp h
  obtain ⟨reader', hreader, h⟩ := bind_eq_ok_iff.mp h
  cases h
  refine ⟨specs, manifest, report, hspecs, hstash, hrestore, ?_, hreader⟩
  rw [readRuntimeDependencies, hevaluator]
  rfl

/-- A protected file that is put back: the evaluator accepts the report, the report reader does
not. -/
theorem restoredDependencies_accepted_fails_at_protected_file :
    validatedTestPlanKind asciiEnv (.dict mochaPlan) false = .ok (some (lit "mocha-json-stream")) ∧
    validatedTestPlanKind asciiEnv (.dict emptyPlan) false = .ok (some emptyPlanKind) ∧
    ∃ specs manifest report,
      planRuntimeDependencySpecs asciiEnv [mochaPlan, emptyPlan] = .ok specs ∧
      stash asciiEnv (.list (specDocument specs))
        (fun _ => ignoredFiles [lit "build/cache-buster"]) = .ok manifest ∧
      restore asciiEnv manifest
        (fun _ => restoreFileView (lit "build/cache-buster") (lit "root-04")) = .ok report ∧
      readRuntimeDependencies asciiEnv (.value (.dict report)) mochaPlan emptyPlan
        (pinnedFile (lit "build/cache-buster")) pinnedImage = .ok (report, []) ∧
      runtimeFileDependencyProof asciiEnv (mochaPayload (lit "build/cache-buster") report)
        mochaStatus none none = .ok false := by
  exact ⟨mochaPlan_trusted, emptyPlan_trusted, report_of_mochaRun mochaRun_protected⟩

/-- A run that puts `package.json` back. -/
theorem restoredDependencies_accepted_package :
    ∃ specs report, planRuntimeDependencySpecs asciiEnv [mochaPlan, emptyPlan] = .ok specs ∧
      FilesUnprotected report ∧ ∀ spec ∈ specs, spec.kind = lit "file" →
        RestoresRoot report spec.root → spec.candidateProtected = .bool false := by
  obtain ⟨specs, manifest, report, hspecs, hstash, hrestore, hread, hreader⟩ :=
    report_of_mochaRun mochaRun_unprotected
  have hsha : ∀ data, isLowerSha256 (asciiEnv.sha256 data) = true := isLowerSha256_hexdigest
  have himage : pinnedImage ≠ [] := by simp [pinnedImage]
  have hpayload : ReportsDependencies mochaPlan emptyPlan report (pinnedFile (lit "package.json"))
      pinnedImage (mochaPayload (lit "package.json") report) mochaStatus none none := by
    constructor <;> simp [mochaPayload, mochaStatus, planOr]
  have haccepted := restoredDependencies_accepted_iff hsha ⟨_, mochaPlan_trusted⟩
    ⟨_, emptyPlan_trusted⟩ himage hread hpayload
  exact ⟨specs, report, hspecs, haccepted.1.mp hreader,
    (haccepted.2 specs _ _ manifest hspecs hstash hrestore).mp hreader⟩

end OpenCollabEval
