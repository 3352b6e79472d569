import OpenCollabEval.Evidence.JavaScript

/-!
# Passing against failing JavaScript evidence

Where every declared target of a JavaScript plan has passed, the failure proof can only hold for three
reasons: a Go log that shows a target as failed as well, a plain text whose exit status alone decides,
and the evidence that is read off a suite as a whole.
-/

open Python

namespace OpenCollabEval

namespace JsProof

open TargetProof

variable {rt : Runtime} {depth : Nat} {isDecimal : Nat → Bool}

/-! ## Targets that pass and fail -/

theorem asStr_any_iff {v : Json} {keep : Str → Bool} :
    v.asStr.any keep = true ↔ ∃ s, v = .str s ∧ keep s = true := by
  cases v <;> simp [Json.asStr]

/-- The declared targets are the strings among the tests, as far as they are not empty. -/
theorem mem_expectedTargets {tests : List Json} {target : Str} (h : .str target ∈ tests)
    (hne : target ≠ []) : target ∈ expectedTargets rt tests := by
  refine List.mem_filter.mpr ⟨List.mem_map.mpr ⟨.str target, h, by simp⟩, by simpa using hne⟩

theorem ne_nil_of_mem_expectedTargets {tests : List Json} {target : Str}
    (h : target ∈ expectedTargets rt tests) : target ≠ [] := by
  simpa using (List.mem_filter.mp h).2

theorem mem_sortedSet {items : List Str} {item : Str} : item ∈ sortedSet items ↔ item ∈ items := by
  simp [sortedSet, dedupKeys, List.mem_insertionSort, List.mem_eraseDups]

/-- The events of a Go log are those of its JSON lines that name a test. -/
theorem mem_goEvents {lines : List Str} {events : List Obj}
    (h : goEvents rt depth lines = .ok events) (event : Obj) :
    event ∈ events ↔ (∃ line ∈ lines, loads depth line = .ok (.dict event)) ∧
      rt.strOrEmpty (event.get "Test") ≠ [] := by
  have hskip {text : Str} {found : Option Json} (hload : loadsOrSkip depth text = .ok found)
      (v : Json) : loads depth text = .ok v ↔ found = some v := by
    rw [loadsOrSkip] at hload
    split at hload <;> cases hload <;> simp_all
  induction lines generalizing events with
  | nil =>
    obtain rfl : [] = events := by simpa [goEvents] using h
    simp
  | cons line rest ih =>
    obtain ⟨found, hfound, h⟩ := bind_eq_ok_iff.mp h
    have hline := hskip hfound (.dict event)
    simp only [List.mem_cons, exists_eq_or_imp, hline]
    rcases found with _ | v
    · simpa using ih h
    cases v with
    | dict first =>
      obtain ⟨kept, hkept, h⟩ := bind_eq_ok_iff.mp h
      obtain rfl := Except.ok.inj h
      have hih : event ∈ kept ↔ (∃ line ∈ rest, loads depth line = .ok (.dict event)) ∧
          rt.strOrEmpty (event.get "Test") ≠ [] := ih hkept
      simp only [Option.some.injEq, Json.dict.injEq]
      split_ifs with hempty
      · rw [hih]
        constructor
        · rintro ⟨hrest, hne⟩
          exact ⟨.inr hrest, hne⟩
        · rintro ⟨rfl | hrest, hne⟩
          · exact absurd (List.isEmpty_iff.mp hempty) hne
          · exact ⟨hrest, hne⟩
      · rw [List.mem_cons, hih]
        constructor
        · rintro (rfl | ⟨hrest, hne⟩)
          · exact ⟨.inl rfl, by simpa using hempty⟩
          · exact ⟨.inr hrest, hne⟩
        · rintro ⟨rfl | hrest, hne⟩
          · exact .inl rfl
          · exact .inr ⟨hrest, hne⟩
    | _ => cases h

theorem mem_namesOf {action : String} {events : List Obj} {name : Str} :
    name ∈ namesOf rt action events ↔ ∃ event ∈ events,
      event.get "Action" = .str (lit action) ∧ rt.strOrEmpty (event.get "Test") = name := by
  simp [namesOf, List.mem_map, List.mem_filter, Json.eqStr_iff, and_assoc]

/-- A reader of single targets shows none of them as passed and as failed. -/
theorem not_mem_failed_of_passed {expected : List Str} {exitStatus : Int} {text : Str}
    {reader : Reader} {statuses : Statuses}
    (h : statusesOf rt depth isDecimal expected exitStatus text reader = .ok statuses)
    (hgo : reader ≠ .go) (htext : reader ≠ .text) {item : Str} (hpassed : item ∈ statuses.passed) :
    item ∉ statuses.failed := by
  cases reader with
  | go => exact absurd rfl hgo
  | text => exact absurd rfl htext
  | ospec =>
    obtain ⟨lines, -, h⟩ := bind_eq_ok_iff.mp h
    obtain ⟨matching, hmatching, h⟩ := bind_eq_ok_iff.mp h
    obtain rfl := Except.ok.inj h
    -- the results of a target do not depend on where it stands among the targets
    have hzip : ∀ found ∈ expected.zip matching,
        ospecMatching rt lines.flatten found.1 = .ok found.2 := by
      intro found hfound
      exact List.forall₂_zip (forall₂_of_mapM_eq_ok hmatching) hfound
    intro hfailed
    obtain ⟨found, hfound, rfl⟩ := List.mem_map.mp hpassed
    obtain ⟨other, hother, hsame⟩ := List.mem_map.mp hfailed
    obtain ⟨hfound, hpass⟩ := List.mem_filter.mp hfound
    obtain ⟨hother, hfail⟩ := List.mem_filter.mp hother
    have hfail : (!other.2.all fun result => (result.get "pass").isTrue) = true := hfail
    have hresults : found.2 = other.2 := by
      have hread := hzip _ (List.mem_filter.mp hother).1
      rw [hsame, hzip _ (List.mem_filter.mp hfound).1] at hread
      exact Except.ok.inj hread
    rw [← hresults, hpass] at hfail
    cases hfail
  | js nodebb =>
    obtain ⟨log, -, h⟩ := bind_eq_ok_iff.mp h
    obtain rfl := Except.ok.inj h
    intro hfailed
    have hnot := (List.mem_filter.mp hpassed).2
    have hmem := (List.mem_filter.mp hfailed).2
    rw [Bool.and_eq_true, Bool.not_eq_true'] at hnot
    exact absurd hmem (by rw [hnot.2]; simp)
  | pytest =>
    obtain rfl := Except.ok.inj h
    intro hfailed
    have hmem := (List.mem_filter.mp hfailed).2
    rw [Bool.not_eq_true', List.contains_eq_mem, decide_eq_false_iff_not] at hmem
    exact hmem hpassed

/-- The empty string is no failed target. -/
theorem nil_not_mem_failed {tests : List Json} {exitStatus : Int} {text : Str} {reader : Reader}
    {statuses : Statuses}
    (h : statusesOf rt depth isDecimal (expectedTargets rt tests) exitStatus text reader =
      .ok statuses) (hgo : reader ≠ .go) (htext : reader ≠ .text) : [] ∉ statuses.failed := by
  have hexpected : [] ∉ expectedTargets rt tests := fun h => ne_nil_of_mem_expectedTargets h rfl
  cases reader with
  | go => exact absurd rfl hgo
  | text => exact absurd rfl htext
  | ospec =>
    obtain ⟨lines, -, h⟩ := bind_eq_ok_iff.mp h
    obtain ⟨matching, -, h⟩ := bind_eq_ok_iff.mp h
    obtain rfl := Except.ok.inj h
    intro hfailed
    obtain ⟨found, hfound, hname⟩ := List.mem_map.mp hfailed
    have hzip := (List.mem_filter.mp (List.mem_filter.mp hfound).1).1
    exact hexpected (hname ▸ (List.of_mem_zip hzip).1)
  | js nodebb =>
    obtain ⟨log, -, h⟩ := bind_eq_ok_iff.mp h
    obtain rfl := Except.ok.inj h
    exact fun hfailed => hexpected (List.mem_filter.mp hfailed).1
  | pytest =>
    obtain rfl := Except.ok.inj h
    exact fun hfailed => hexpected (List.mem_filter.mp (List.mem_filter.mp hfailed).1).1

/-! ## When the proofs exclude each other -/

/-- The targets that a proof declares. -/
def targetsOf (proof : Obj) : List Json := (proof.get "targets").asList.getD []

/-- The reader of a proof's log. -/
def readerOfProof (rt : Runtime) (proof : Obj) : Reader :=
  rowReader rt (proofRow proof) (expectedTargets rt (targetsOf proof))

/-- The reader can show no target that has passed as failed: a Go log has no fail event of a target, and
the exit status of a plain text decides for no target. -/
def ReadsApart (rt : Runtime) (depth : Nat) (proof : Obj) (logText : Str) : Prop :=
  (readerOfProof rt proof = .go → ∀ target, .str target ∈ targetsOf proof → target ≠ [] →
    ∀ line ∈ (ansiEscape.sub [] logText).splitlines, ∀ event : Obj,
      loads depth line = .ok (.dict event) → event.get "Action" = .str "fail" →
        rt.strOrEmpty (event.get "Test") ≠ target) ∧
  (readerOfProof rt proof = .text → ∀ target, .str target ∈ targetsOf proof → target = [])

/-- The raw report of Jest blames no suite as a whole. -/
structure NoSuiteEvidence (rt : Runtime) (depth : Nat) (proof : Obj)
    (logText expectedCommand observedCommand : Str) : Prop where
  suiteLoads : jsSuiteLoadFailureProofMatches rt depth proof logText expectedCommand observedCommand =
    .ok false
  candidate : jsCandidateFailureProofMatches rt depth proof logText expectedCommand observedCommand =
    .ok false

variable {proof : Obj} {logText : Str}

/-- An accepted log shows every expected target as passed. -/
theorem passed_of_planLogProofMatches
    (h : planLogProofMatches rt depth isDecimal proof logText = .ok true) :
    targetsOf proof ≠ [] ∧ (expectedTargets rt (targetsOf proof)).isEmpty = false ∧ ∃ statuses,
      statusesOf rt depth isDecimal (expectedTargets rt (targetsOf proof)) 0
        (ansiEscape.sub [] logText) (readerOfProof rt proof) = .ok statuses ∧
      ∀ target ∈ expectedTargets rt (targetsOf proof), target ∈ statuses.passed := by
  rw [planLogProofMatches] at h
  by_cases htargets : ((proof.get "targets").asList.getD []).isEmpty = true
  · rw [if_pos htargets] at h
    cases h
  rw [if_neg htargets] at h
  obtain ⟨result, hresult, h⟩ := bind_eq_ok_iff.mp h
  have hok : result.ok = true := Except.ok.inj h
  rw [targetProof, failToPassExecutionProof] at hresult
  by_cases hempty : (expectedTargets rt (targetsOf proof)).isEmpty = true
  · rw [targetsOf] at hempty
    rw [if_pos hempty] at hresult
    rw [← Except.ok.inj hresult] at hok
    cases hok
  · have hnonempty := hempty
    rw [targetsOf] at hempty
    rw [if_neg hempty] at hresult
    obtain ⟨statuses, hstatuses, hresult⟩ := bind_eq_ok_iff.mp hresult
    rw [← Except.ok.inj hresult] at hok
    simp only [beq_self_eq_true, Bool.true_and, List.isEmpty_iff, List.filter_eq_nil_iff,
      Bool.not_eq_true', Bool.not_eq_false, List.contains_iff_mem] at hok
    exact ⟨by simpa [targetsOf] using htargets, by simpa using hnonempty, statuses, hstatuses, hok⟩

/-- What the failure proof reads of an accepted log, in terms of the statuses at exit status 1. -/
theorem planLogFailureProofMatches_eq (htargets : targetsOf proof ≠ [])
    (hexpected : (expectedTargets rt (targetsOf proof)).isEmpty = false) {statuses : Statuses}
    (hstatuses : statusesOf rt depth isDecimal (expectedTargets rt (targetsOf proof)) 1
      (ansiEscape.sub [] logText) (readerOfProof rt proof) = .ok statuses)
    (expectedCommand observedCommand : Str) :
    planLogFailureProofMatches rt depth isDecimal proof logText expectedCommand observedCommand =
      if (targetsOf proof).any fun target => target.asStr.any statuses.failed.contains then .ok true
      else
        jsSuiteLoadFailureProofMatches rt depth proof logText expectedCommand observedCommand >>=
          fun suite => if suite then .ok true else
            jsCandidateFailureProofMatches rt depth proof logText expectedCommand observedCommand := by
  have hproof : ∃ parsed, targetProof rt depth isDecimal proof (targetsOf proof) 1 logText =
      .ok parsed ∧ parsed.failed = statuses.failed := by
    rw [targetProof, failToPassExecutionProof]
    simp only [hexpected, Bool.false_eq_true, if_false]
    rw [readerOfProof] at hstatuses
    rw [hstatuses]
    exact ⟨_, rfl, rfl⟩
  obtain ⟨parsed, hparsed, hfailed⟩ := hproof
  rw [targetsOf] at htargets hparsed
  rw [planLogFailureProofMatches, if_neg (by simpa using htargets), hparsed, ok_bind, hfailed]
  rfl

/-- The exit status matters to the plain text only. -/
theorem statusesOf_exitStatus {expected : List Str} {text : Str} {reader : Reader}
    (hreader : reader ≠ .text) (first second : Int) :
    statusesOf rt depth isDecimal expected first text reader =
      statusesOf rt depth isDecimal expected second text reader := by
  cases reader with
  | text => exact absurd rfl hreader
  | _ => rfl

/-- A target of an accepted log is among the failed ones, at exit status 1, exactly when the reader does
not keep the two apart. -/
theorem exists_failed_iff {statuses : Statuses}
    (hstatuses : statusesOf rt depth isDecimal (expectedTargets rt (targetsOf proof)) 0
      (ansiEscape.sub [] logText) (readerOfProof rt proof) = .ok statuses)
    (hpassed : ∀ target ∈ expectedTargets rt (targetsOf proof), target ∈ statuses.passed) :
    ∃ later, statusesOf rt depth isDecimal (expectedTargets rt (targetsOf proof)) 1
        (ansiEscape.sub [] logText) (readerOfProof rt proof) = .ok later ∧
      ((∃ target, .str target ∈ targetsOf proof ∧ target ∈ later.failed) ↔
        ¬ReadsApart rt depth proof logText) := by
  by_cases htext : readerOfProof rt proof = .text
  · -- the plain text: every observed target fails at exit status 1
    rw [htext] at hstatuses ⊢
    obtain rfl := Except.ok.inj hstatuses
    refine ⟨_, rfl, ?_⟩
    have hobserved : ∀ target ∈ expectedTargets rt (targetsOf proof),
        target ∈ (textStatuses (expectedTargets rt (targetsOf proof)) 1
          (ansiEscape.sub [] logText)).failed := hpassed
    simp only [ReadsApart, htext, reduceCtorEq, false_imp_iff, true_and, true_imp_iff, not_forall,
      exists_prop]
    constructor
    · rintro ⟨target, htarget, hfailed⟩
      exact ⟨target, htarget, ne_nil_of_mem_expectedTargets (List.mem_filter.mp hfailed).1⟩
    · rintro ⟨target, htarget, hne⟩
      exact ⟨target, htarget, hobserved target (mem_expectedTargets htarget hne)⟩
  refine ⟨statuses, (statusesOf_exitStatus htext 1 0).trans hstatuses, ?_⟩
  by_cases hgo : readerOfProof rt proof = .go
  · -- a Go log: the tests of its fail events
    rw [hgo] at hstatuses
    obtain ⟨events, hevents, hstatuses⟩ := bind_eq_ok_iff.mp hstatuses
    obtain rfl := Except.ok.inj hstatuses
    simp only [ReadsApart, hgo, reduceCtorEq, false_imp_iff, and_true, true_imp_iff, not_forall,
      exists_prop, mem_sortedSet, mem_namesOf, mem_goEvents hevents, not_not]
    constructor
    · rintro ⟨target, htarget, event, ⟨⟨line, hline, hloads⟩, hne⟩, haction, rfl⟩
      exact ⟨_, htarget, hne, line, hline, event, hloads, haction, rfl⟩
    · rintro ⟨target, htarget, hne, line, hline, event, hloads, haction, rfl⟩
      exact ⟨_, htarget, event, ⟨⟨line, hline, hloads⟩, hne⟩, haction, rfl⟩
  · -- the other readers keep the passed targets and the failed ones apart
    refine iff_of_false ?_ (not_not.mpr ⟨fun h => absurd h hgo, fun h => absurd h htext⟩)
    rintro ⟨target, htarget, hfailed⟩
    have hne : target ≠ [] := by
      rintro rfl
      exact nil_not_mem_failed hstatuses hgo htext hfailed
    exact not_mem_failed_of_passed hstatuses hgo htext
      (hpassed target (mem_expectedTargets htarget hne)) hfailed

section Sample

/-- A plan for one test of a suite, with one source file of the candidate. -/
def samplePlan : Obj :=
  Obj.of [("kind", .str "js_parser_backed_targets"), ("repo_language", .str "js"),
    ("targets", .list [.str "a.test.js | works"]), ("candidate_source_paths", .list [.str "src/x.js"])]

/-- A report of Jest in which the planned test passes, and another test of its suite fails on a source
file of the candidate. -/
def otherFails : Str :=
  lit "\x7b\"numTotalTestSuites\":1,\"success\":false,\"testResults\":[" ++
    lit "\x7b\"name\":\"a.test.js\",\"status\":\"failed\",\"message\":\"TypeError at src/x.js\"," ++
    lit "\"assertionResults\":[\x7b\"title\":\"works\",\"status\":\"passed\"\x7d," ++
    lit "\x7b\"title\":\"other\",\"status\":\"failed\"\x7d]\x7d]\x7d\n"

end Sample

end JsProof

end OpenCollabEval
