import OpenCollabEval.Evidence.GoFailure

/-!
# Who is to blame for a failed Go package

A log that `go_failure_proof_matches` accepts names a cause: a declared test that failed, a declared
test that a panic or a timeout ended, a diagnostic in a test file or in a source file of the candidate,
or a module of the candidate that cannot be fetched. Where the plan knows the packages of its tests, each
package that fails in the log has a cause of its own.
-/

open Python

namespace OpenCollabEval

namespace GoProof

/-! ## The causes -/

/-- A declared test fails. -/
structure ExactFailure (depth : Nat) (logText : Str) (declared : List Str) (event : Obj) : Prop where
  logged : Logged depth logText event
  action : event.get "Action" = .str "fail"
  declared : ∃ test ∈ declared, event.get "Test" = .str test

section Causes

variable (rt : Runtime) (log : GoLog)

/-- An event fails in a package. -/
def FailsIn (package : Str) (event : Obj) : Prop :=
  event ∈ log.events ∧ event.get "Action" = .str "fail" ∧ (event.get "Package").truthy = true ∧
    packageText rt event = package

/-- A test has started in a package that fails as a whole, it has not ended, and its output or that of
the package tells of a panic or of a timeout. -/
structure RuntimeFailure (package test : Str) : Prop where
  packageFails : ∃ event, FailsIn rt log package event ∧ (event.get "Test").truthy = false
  started : ∃ event ∈ log.events, isOf package test event = true ∧
    rt.strOrEmpty (event.get "Action") = lit "run"
  notEnded : ∀ event ∈ log.events, isOf package test event = true →
    rt.strOrEmpty (event.get "Action") ∉ lits ["pass", "fail", "skip"]
  output : (packageOutput rt log.events package).contains timeoutMarker = true ∨
    ∃ line ∈ (targetOutput rt log.events package test).splitlines,
      line.strip.startsWith "panic: " = true

/-- A diagnostic of the build of a package: under a header of the package, in the output of its build,
or in the output of the failed build that the package names. -/
inductive Diagnosed (package : Str) : Str → Prop
  | plain {header path : Str} (mem : (header, path) ∈ log.plainDiagnostics)
      (matched : packageMatches package header = true) : Diagnosed package path
  | build {found : Cursor}
      (mem : found ∈ goProofDiagnostic.finditer (buildOutputForPackage rt log.events package)) :
      Diagnosed package (found.group 1)
  | dependency {dependency : Str} {event : Obj} {found : Cursor} (mem : event ∈ log.events)
      (named : failedBuildOf package event = some dependency)
      (diagnostic : found ∈ dependencyDiagnostic.finditer (dependencyOutput rt log.events dependency)) :
      Diagnosed package (found.group 1)

/-- A Go test file, or a source file of the candidate. -/
def OwnFile (sources : List Str) (path : Str) : Prop :=
  (normalized path).endsWith "_test.go" = true ∨ ∃ source ∈ sources,
    path.removePrefix "./" = source ∨ namesSource (normalized path) source = true

/-- The build of a package fails on a test file or on a source file of the candidate. -/
def BuildFailure (sources : List Str) (package : Str) : Prop :=
  ∃ path, Diagnosed rt log package path ∧ OwnFile sources path

/-- A test file of a package's own binding imports a package that no module provides. -/
def MissingDependency (bindings : List Binding) (package : Str) : Prop :=
  ∃ binding ∈ bindings, packageMatches binding.package package = true ∧
    ∃ dependency, ∃ event ∈ log.events, failedBuildOf package event = some dependency ∧
      ∃ found ∈ missingModule.finditer (dependencyOutput rt log.events dependency),
        found.group 2 = dependency ∧ ∃ file ∈ binding.testFiles,
          (found.group 1).removePrefix "./" = file.removePrefix "./"

/-- A module that the candidate added cannot be fetched for a source file of the candidate. -/
def FetchFailure (proof : Obj) (logText : Str) (sources : List Str) : Prop :=
  ∃ line ∈ logText.splitlines, ∃ failure, goModuleFetch.fullmatch line.strip = some failure ∧
    (failure.group 2, failure.group 3) ∈
      addedModules ((proof.get "candidate_added_go_modules").asList.getD []) ∧
    normalized (failure.group 1) ∈ sources

/-- The cause of a package that fails. A missing dependency counts next to a declared test that fails
in another package. -/
inductive Covered (depth : Nat) (logText : Str) (declared sources : List Str)
    (bindings : List Binding) (package : Str) : Prop
  | exact {event : Obj} (failure : ExactFailure depth logText declared event)
      (here : event.get "Package" = .str package)
  | runtime {test : Str} (mem : test ∈ declared) (failure : RuntimeFailure rt log package test)
  | build (failure : BuildFailure rt log sources package)
  | missing (missing : MissingDependency rt log bindings package) {event : Obj} {other : Str}
      (failure : ExactFailure depth logText declared event)
      (there : event.get "Package" = .str other) (elsewhere : other ≠ package)

/-- Some cause in the log. -/
inductive Caused (depth : Nat) (logText : Str) (declared sources : List Str) : Prop
  | exact {event : Obj} (failure : ExactFailure depth logText declared event)
  | runtime {package test : Str} (mem : test ∈ declared) (failure : RuntimeFailure rt log package test)
  | build {package : Str} (failure : BuildFailure rt log sources package)

end Causes

variable {rt : Runtime} {depth : Nat} {logText : Str} {log : GoLog} {declared sources : List Str}
variable {bindings : List Binding} {package : Str}

/-- The cause of a package is a cause in the log. -/
theorem Covered.caused (h : Covered rt log depth logText declared sources bindings package) :
    Caused rt log depth logText declared sources := by
  cases h with
  | exact failure => exact .exact failure
  | runtime mem failure => exact .runtime mem failure
  | build failure => exact .build failure
  | missing _ failure => exact .exact failure

/-! ## Declared tests -/

/-- A discovered binding lists expected tests only. -/
theorem tests_of_readDiscovery {seen : List Binding} {discovery : Obj} {binding : Binding}
    (h : readDiscovery declared seen discovery = some binding) :
    ∀ test ∈ binding.tests, test ∈ declared := by
  simp only [readDiscovery, Option.bind_eq_bind, Option.bind_eq_some_iff] at h
  obtain ⟨package, -, items, -, tests, -, files, -, testFiles, -, h⟩ := h
  split_ifs at h with hrejected
  obtain rfl := Option.some.inj h
  simp only [Bool.or_eq_true, not_or, List.any_eq_true, not_exists, not_and] at hrejected
  intro test htest
  simpa using hrejected.1.1.1.2 test htest

theorem tests_of_readDiscoveries {seen found : List Binding} {discoveries : List Obj}
    (hseen : ∀ binding ∈ seen, ∀ test ∈ binding.tests, test ∈ declared)
    (h : readDiscoveries declared seen discoveries = some found) :
    ∀ binding ∈ found, ∀ test ∈ binding.tests, test ∈ declared := by
  induction discoveries generalizing seen with
  | nil =>
    obtain rfl : seen = found := by simpa [readDiscoveries] using h
    exact hseen
  | cons discovery rest ih =>
    simp only [readDiscoveries, Option.bind_eq_bind, Option.bind_eq_some_iff] at h
    obtain ⟨next, hnext, h⟩ := h
    refine ih (fun binding hbinding => ?_) h
    rcases List.mem_append.mp hbinding with hold | hnew
    · exact hseen binding hold
    · obtain rfl := List.mem_singleton.mp hnew
      exact tests_of_readDiscovery hnext

/-- The bindings of a plan list declared tests only. -/
theorem tests_of_proofBindings {proof : Obj} {discoveries : List Obj}
    (hbinding : binding ∈ proofBindings proof discoveries declared) :
    ∀ test ∈ binding.tests, test ∈ declared := by
  rcases hdynamic : (proof.get "dynamic_discovery").isTrue
  · rcases proofBindings_exact hdynamic discoveries declared with hnone | ⟨package, file, hone⟩
    · rw [hnone] at hbinding
      exact absurd hbinding List.not_mem_nil
    · rw [hone] at hbinding
      obtain rfl := List.mem_singleton.mp hbinding
      exact fun test htest => htest
  · rw [proofBindings, hdynamic, if_pos rfl, dynamicBindings] at hbinding
    rcases hread : readDiscoveries declared [] discoveries with _ | found
    · simp [hread] at hbinding
    · simp only [hread] at hbinding
      split_ifs at hbinding
      · exact tests_of_readDiscoveries (by simp) hread _ hbinding
      · exact absurd hbinding List.not_mem_nil

/-- The events that are kept as exact failures. -/
theorem exactFailure_of_mem (hparsed : parseGoLog depth logText = .ok (some log))
    {exactFailures : List Obj} (hexact : declaredEvents "fail" declared log.events = .ok exactFailures)
    {event : Obj} (hevent : event ∈ exactFailures) : ExactFailure depth logText declared event := by
  obtain ⟨hmem, haction, test, htest, hname⟩ := (mem_declaredEvents hexact event).mp hevent
  exact ⟨logged_of_mem hparsed hmem hname, haction, test, htest, hname⟩

/-! ## Panics and timeouts -/

theorem mem_wholeFailedPackages (h : package ∈ wholeFailedPackages rt log.events) :
    ∃ event, FailsIn rt log package event ∧ (event.get "Test").truthy = false := by
  rw [wholeFailedPackages, List.mem_dedup] at h
  obtain ⟨event, hevent, htext⟩ := List.mem_map.mp h
  obtain ⟨hmem, hkeep⟩ := List.mem_filter.mp hevent
  simp only [Bool.and_eq_true, Bool.not_eq_true', actionIs_iff] at hkeep
  exact ⟨event, ⟨hmem, hkeep.1.1, hkeep.1.2, htext⟩, hkeep.2⟩

/-- A target that has started and not ended, in a package that fails as a whole. -/
theorem mem_unterminatedTargets {test : Str}
    (h : (package, test) ∈ unterminatedTargets rt log.events bindings) :
    package ∈ wholeFailedPackages rt log.events ∧ (∃ binding ∈ bindings, test ∈ binding.tests) ∧
      isUnterminated rt log.events package test = true := by
  obtain ⟨binding, hbinding, hmem⟩ := List.mem_flatMap.mp h
  rcases hmatching : (wholeFailedPackages rt log.events).filter (packageMatches binding.package) with
    _ | ⟨found, _ | ⟨second, rest⟩⟩
  · simp [hmatching] at hmem
  · simp only [hmatching] at hmem
    obtain ⟨other, hother, heq⟩ := List.mem_map.mp hmem
    obtain ⟨rfl, rfl⟩ := Prod.mk.inj heq
    obtain ⟨htest, hopen⟩ := List.mem_filter.mp hother
    have hfound : found ∈ (wholeFailedPackages rt log.events).filter
        (packageMatches binding.package) := by simp [hmatching]
    exact ⟨(List.mem_filter.mp hfound).1, ⟨binding, hbinding, htest⟩, hopen⟩
  · simp [hmatching] at hmem

/-- An unterminated target that has panicked or timed out is a failure at run time. -/
theorem runtimeFailure_of_mem {test : Str}
    (h : (package, test) ∈ unterminatedTargets rt log.events bindings)
    (houtput : timesOut rt log.events package test = true ∨
      panics rt log.events package test = true) :
    RuntimeFailure rt log package test := by
  obtain ⟨hfailed, -, hopen⟩ := mem_unterminatedTargets h
  rw [isUnterminated, Bool.and_eq_true] at hopen
  obtain ⟨hrun, hended⟩ := hopen
  refine ⟨mem_wholeFailedPackages hfailed, ?_, ?_, ?_⟩
  · obtain ⟨event, hevent, haction⟩ := List.mem_map.mp (List.contains_iff_mem.mp hrun)
    obtain ⟨hmem, hof⟩ := List.mem_filter.mp hevent
    exact ⟨event, hmem, hof, haction⟩
  · intro event hmem hof hended'
    have haction := List.mem_map_of_mem (f := fun event : Obj => rt.strOrEmpty (event.get "Action"))
      (List.mem_filter.mpr ⟨hmem, hof⟩)
    have hany := List.any_eq_true.mpr ⟨_, hended', List.contains_iff_mem.mpr haction⟩
    simp [hany] at hended
  · rcases houtput with htimeout | hpanic
    · rw [timesOut, Bool.and_eq_true] at htimeout
      exact .inl htimeout.1
    · obtain ⟨line, hline, hstarts⟩ := List.any_eq_true.mp hpanic
      exact .inr ⟨line, hline, (Bool.and_eq_true_iff.mp hstarts).1⟩

/-- The packages of timeouts and panics hold a declared test that failed at run time. -/
theorem runtimeFailure_of_package (hdeclared : ∀ binding ∈ bindings, ∀ test ∈ binding.tests,
      test ∈ declared)
    (h : package ∈ (targetRuntimeFailurePackages rt log.events bindings).1 ∨
      package ∈ (targetRuntimeFailurePackages rt log.events bindings).2) :
    ∃ test ∈ declared, RuntimeFailure rt log package test := by
  simp only [targetRuntimeFailurePackages, List.mem_map, List.mem_filter] at h
  obtain ⟨test, hmem, houtput⟩ : ∃ test, (package, test) ∈ unterminatedTargets rt log.events bindings ∧
      (timesOut rt log.events package test = true ∨ panics rt log.events package test = true) := by
    rcases h with ⟨⟨_, test⟩, ⟨hmem, htimeout⟩, rfl⟩ | ⟨⟨_, test⟩, ⟨hmem, hpanic⟩, rfl⟩
    · exact ⟨test, hmem, .inl htimeout⟩
    · exact ⟨test, hmem, .inr hpanic⟩
  obtain ⟨-, ⟨binding, hbinding, htest⟩, -⟩ := mem_unterminatedTargets hmem
  exact ⟨test, hdeclared binding hbinding test htest, runtimeFailure_of_mem hmem houtput⟩

/-! ## Builds that fail -/

/-- A diagnostic that belongs to a package is in a test file. -/
theorem ownFile_of_diagnostic {path declaredPackage : Str}
    (h : diagnosticBelongsToPackage path declaredPackage = true) : OwnFile sources path := by
  rw [diagnosticBelongsToPackage] at h
  split_ifs at h with hrejected
  · simp only [Bool.or_eq_true, not_or, Bool.not_eq_true', Bool.not_eq_false] at hrejected
    exact .inl hrejected.2
  · simp only [Bool.or_eq_true, not_or, Bool.not_eq_true', Bool.not_eq_false] at hrejected
    exact .inl hrejected.2

theorem ownFile_of_candidateDiagnostic {path declaredPackage : Str}
    (h : candidateDiagnosticBelongsToPackage path declaredPackage sources = true) :
    OwnFile sources path := by
  rw [candidateDiagnosticBelongsToPackage] at h
  rcases hfound : sources.filter (namesSource (normalized path)) with _ | ⟨source, rest⟩
  · simp [hfound] at h
  · have hmem : source ∈ sources.filter (namesSource (normalized path)) := by simp [hfound]
    obtain ⟨hsource, hnames⟩ := List.mem_filter.mp hmem
    exact .inr ⟨source, hsource, .inr hnames⟩

theorem ownFile_of_legacyDiagnostic {path declaredPackage : Str}
    (h : legacyDiagnosticBelongsToPackage path declaredPackage sources = true) :
    OwnFile sources path := by
  rw [legacyDiagnosticBelongsToPackage] at h
  split_ifs at h
  rcases Bool.or_eq_true_iff.mp h with htest | hsource
  · exact .inl htest
  · obtain ⟨source, hmem, hnames⟩ := List.any_eq_true.mp hsource
    exact .inr ⟨source, hmem, .inr hnames⟩

theorem mem_of_failedBuild {dependency : Str} {events : List Obj}
    (h : (events.filterMap (failedBuildOf package)).dedup = [dependency]) :
    ∃ event ∈ events, failedBuildOf package event = some dependency := by
  have hmem : dependency ∈ (events.filterMap (failedBuildOf package)).dedup := by simp [h]
  exact List.mem_filterMap.mp (List.mem_dedup.mp hmem)

/-- A dependency that does not build has a diagnostic in a source file of the candidate. -/
theorem buildFailure_of_dependency
    (h : candidateDependencyBuildFailed rt log.events bindings package sources = true) :
    BuildFailure rt log sources package := by
  rw [candidateDependencyBuildFailed] at h
  split at h
  · rename_i dependency root hlinks hroots
    obtain ⟨event, hevent, hnamed⟩ := mem_of_failedBuild hlinks
    simp only [Bool.and_eq_true] at h
    obtain ⟨⟨-, hnonempty⟩, hall⟩ := h
    obtain ⟨found, hfound⟩ : ∃ found, found ∈ dependencyDiagnostic.finditer
        (dependencyOutput rt log.events dependency) := by
      apply List.exists_mem_of_ne_nil
      rintro hnil
      simp [hnil] at hnonempty
    have hsource := List.all_eq_true.mp hall _ (List.mem_map_of_mem hfound)
    rw [Bool.and_eq_true, List.contains_iff_mem] at hsource
    exact ⟨found.group 1, .dependency hevent hnamed hfound, .inr ⟨_, hsource.1, .inl rfl⟩⟩
  · cases h

/-- The diagnostics that are read for a package are diagnostics of its build. -/
theorem diagnosed_of_buildDiagnostics {diagnostics : List Str}
    (h : buildDiagnostics rt log package = some diagnostics) {path : Str}
    (hpath : path ∈ diagnostics) : Diagnosed rt log package path := by
  rw [buildDiagnostics] at h
  split_ifs at h
  · rcases hheaders : log.buildHeaders.filter (packageMatches package) with
      _ | ⟨header, _ | ⟨second, rest⟩⟩
    · simp [hheaders] at h
    · simp only [hheaders, Option.some.injEq] at h
      obtain ⟨⟨found, path⟩, hfound, rfl⟩ := List.mem_map.mp (h ▸ hpath)
      obtain ⟨hmem, hheader⟩ := List.mem_filter.mp hfound
      have hmatched : header ∈ log.buildHeaders.filter (packageMatches package) := by simp [hheaders]
      obtain rfl : found = header := by simpa using hheader
      exact .plain hmem (List.mem_filter.mp hmatched).2
    · simp [hheaders] at h
  · obtain rfl := Option.some.inj h
    obtain ⟨found, hfound, rfl⟩ := List.mem_map.mp hpath
    exact .build hfound

/-- A test file whose dependency is missing. -/
theorem missingDependency_of_unavailable {binding : Binding} (hbinding : binding ∈ bindings)
    (hmatches : packageMatches binding.package package = true)
    (h : boundTestDependencyUnavailable rt log.events package binding.testFiles = true) :
    MissingDependency rt log bindings package := by
  rw [boundTestDependencyUnavailable] at h
  split at h
  · rename_i dependency hlinks
    obtain ⟨event, hevent, hnamed⟩ : ∃ event ∈ log.events,
        failedBuildOf package event = some dependency := by
      have hmem : dependency ∈ log.events.filterMap fun event =>
        if (event.get "Test").truthy then none else failedBuildOf package event := by simp [hlinks]
      obtain ⟨event, hevent, hnamed⟩ := List.mem_filterMap.mp hmem
      split_ifs at hnamed
      exact ⟨event, hevent, hnamed⟩
    simp only [Bool.and_eq_true] at h
    obtain ⟨⟨⟨-, hnonempty⟩, -⟩, hall⟩ := h
    obtain ⟨found, hfound⟩ : ∃ found, found ∈ missingModule.finditer
        (dependencyOutput rt log.events dependency) := by
      apply List.exists_mem_of_ne_nil
      rintro hnil
      simp [hnil] at hnonempty
    have hfile := List.all_eq_true.mp hall found hfound
    rw [Bool.and_eq_true, beq_iff_eq, List.contains_iff_mem] at hfile
    obtain ⟨file, hfile', hname⟩ := List.mem_map.mp hfile.2
    exact ⟨binding, hbinding, hmatches, dependency, event, hevent, hnamed, found, hfound, hfile.1,
      file, hfile', hname.symm⟩
  · cases h

/-! ## The packages of a log -/

/-- What is known of the packages in which tests have failed at run time. -/
structure RuntimeSpec (rt : Runtime) (log : GoLog) (depth : Nat) (logText : Str)
    (declared exactPackages runtimePackages : List Str) : Prop where
  exact : ∀ package ∈ exactPackages, ∃ event, ExactFailure depth logText declared event ∧
    event.get "Package" = .str package
  runtime : ∀ package ∈ runtimePackages, package ∈ exactPackages ∨
    ∃ test ∈ declared, RuntimeFailure rt log package test
  subset : ∀ package ∈ exactPackages, package ∈ runtimePackages

/-- A proven package has a cause. -/
theorem covered_of_isProven {exactPackages runtimePackages : List Str} {sameCommand : Bool}
    (hruntime : RuntimeSpec rt log depth logText declared exactPackages runtimePackages)
    (h : isProven rt log bindings sources exactPackages runtimePackages sameCommand package = true) :
    Covered rt log depth logText declared sources bindings package := by
  rw [isProven] at h
  by_cases hdependency : (candidateDependencyBuildFailed rt log.events bindings package sources &&
      sameCommand) = true
  · exact .build (buildFailure_of_dependency (Bool.and_eq_true_iff.mp hdependency).1)
  by_cases hfailed : runtimePackages.contains package = true
  · rcases hruntime.runtime package (List.contains_iff_mem.mp hfailed) with
      hexact | ⟨test, hmem, hfails⟩
    · obtain ⟨event, hevent, hpackage⟩ := hruntime.exact package hexact
      exact .exact hevent hpackage
    · exact .runtime hmem hfails
  rw [if_neg hdependency, if_neg hfailed] at h
  rcases hmatching : bindings.filter fun binding => packageMatches binding.package package with
    _ | ⟨binding, _ | ⟨second, rest⟩⟩
  · simp [hmatching] at h
  · have hmem : binding ∈ bindings.filter fun binding => packageMatches binding.package package := by
      simp [hmatching]
    obtain ⟨hbinding, hmatches⟩ := List.mem_filter.mp hmem
    simp only [hmatching] at h
    split_ifs at h with hmissing
    · -- a missing dependency, next to an exact failure in another package
      rw [Bool.and_eq_true, Bool.not_eq_true'] at hmissing
      obtain ⟨other, hother⟩ : ∃ other, other ∈ exactPackages := by
        apply List.exists_mem_of_ne_nil
        rintro rfl
        simp at hmissing
      obtain ⟨event, hevent, hpackage⟩ := hruntime.exact other hother
      refine .missing (missingDependency_of_unavailable hbinding hmatches hmissing.2) hevent hpackage ?_
      rintro rfl
      exact hfailed (List.contains_iff_mem.mpr (hruntime.subset other hother))
    · rcases hdiagnostics : buildDiagnostics rt log package with _ | diagnostics
      · simp [hdiagnostics] at h
      · simp only [hdiagnostics, Bool.and_eq_true, Bool.not_eq_true'] at h
        obtain ⟨path, hpath⟩ : ∃ path, path ∈ diagnostics := by
          apply List.exists_mem_of_ne_nil
          rintro rfl
          simp at h
        have hown := List.all_eq_true.mp h.2 path hpath
        refine .build ⟨path, diagnosed_of_buildDiagnostics hdiagnostics hpath, ?_⟩
        rcases Bool.or_eq_true_iff.mp hown with htest | hcandidate
        · exact ownFile_of_diagnostic htest
        · exact ownFile_of_candidateDiagnostic hcandidate
  · simp [hmatching] at h

/-- The package of a legacy command fails on its own files. -/
theorem buildFailure_of_legacy (h : legacyBuildFails rt log sources package = true) :
    BuildFailure rt log sources package := by
  simp only [legacyBuildFails, Bool.and_eq_true] at h
  obtain ⟨⟨-, hnonempty⟩, hall⟩ := h
  obtain ⟨found, hfound⟩ : ∃ found, found ∈ goProofDiagnostic.finditer
      (buildOutputForPackage rt log.events package) := by
    apply List.exists_mem_of_ne_nil
    rintro hnil
    simp [hnil] at hnonempty
  have hown := List.all_eq_true.mp hall _ (List.mem_map_of_mem hfound)
  exact ⟨found.group 1, .build hfound, ownFile_of_legacyDiagnostic hown⟩

theorem mem_failedPackages : package ∈ failedPackages rt log.events ↔
    ∃ event, FailsIn rt log package event := by
  simp only [failedPackages, List.mem_dedup, List.mem_map, List.mem_filter, Bool.and_eq_true,
    actionIs_iff, FailsIn, and_assoc]

/-- The packages of the exact failures, and those of panics and timeouts. -/
theorem runtimeSpec_of_exact {exactFailures : List Obj}
    (hexact : ∀ event ∈ exactFailures, ExactFailure depth logText declared event)
    (hdeclared : ∀ binding ∈ bindings, ∀ test ∈ binding.tests, test ∈ declared) :
    RuntimeSpec rt log depth logText declared
      (exactFailures.filterMap fun event => (event.get "Package").asStr)
      ((exactFailures.filterMap fun event => (event.get "Package").asStr) ++
        (targetRuntimeFailurePackages rt log.events bindings).1 ++
        (targetRuntimeFailurePackages rt log.events bindings).2) := by
  refine ⟨fun package hpackage => ?_, fun package hpackage => ?_, fun package hpackage => ?_⟩
  · obtain ⟨event, hevent, hname⟩ := List.mem_filterMap.mp hpackage
    exact ⟨event, hexact event hevent, asStr_eq_some_iff.mp hname⟩
  · rw [List.append_assoc] at hpackage
    rcases List.mem_append.mp hpackage with hmem | hmem
    · exact .inl hmem
    · exact .inr (runtimeFailure_of_package hdeclared (List.mem_append.mp hmem))
  · exact List.mem_append_left _ (List.mem_append_left _ hpackage)

/-- An explained log has a cause, and outside the legacy commands each failed package has one. -/
theorem caused_of_packagesExplained {proof : Obj} {exactFailures : List Obj}
    {legacyDynamic sameCommand : Bool}
    (hexact : ∀ event ∈ exactFailures, ExactFailure depth logText declared event)
    (hdeclared : ∀ binding ∈ bindings, ∀ test ∈ binding.tests, test ∈ declared)
    (h : packagesExplained rt proof log sources exactFailures bindings legacyDynamic sameCommand =
      true) :
    Caused rt log depth logText declared sources ∧ (legacyDynamic = false →
      ∀ package event, FailsIn rt log package event →
        Covered rt log depth logText declared sources bindings package) := by
  have hruntime : RuntimeSpec rt log depth logText declared _ _ :=
    runtimeSpec_of_exact hexact hdeclared
  simp only [packagesExplained] at h
  split_ifs at h with _ _ _ _ hlegacy
  · -- a legacy command has one failed package
    refine ⟨?_, fun hnot => by simp [hlegacy] at hnot⟩
    rcases hfailed : failedPackages rt log.events with _ | ⟨package, _ | ⟨second, rest⟩⟩
    · simp [hfailed] at h
    · simp only [hfailed] at h
      exact .build (buildFailure_of_legacy h)
    · simp [hfailed] at h
  · rw [Bool.and_eq_true] at h
    have hcovered : ∀ package ∈ failedPackages rt log.events,
        Covered rt log depth logText declared sources bindings package :=
      fun package hpackage => covered_of_isProven hruntime (List.all_eq_true.mp h.2 package hpackage)
    refine ⟨?_, fun _ package event hevent => hcovered package (mem_failedPackages.mpr ⟨event, hevent⟩)⟩
    obtain ⟨package, hpackage⟩ := List.exists_mem_of_ne_nil _ (List.isEmpty_eq_false_iff.mp
      (Bool.not_eq_true' _ ▸ h.1))
    rcases List.mem_append.mp hpackage with hfails | hfailed
    · rcases hruntime.runtime package hfails with hmem | ⟨test, htest, hfailure⟩
      · obtain ⟨event, hevent, -⟩ := hruntime.exact package hmem
        exact .exact hevent
      · exact .runtime htest hfailure
    · exact (hcovered package hfailed).caused

/-- A legacy command knows no package of its tests. -/
theorem not_legacy_of_plan {proof : Obj} {expectedCommand observedCommand : Str}
    (hplan : (proof.get "dynamic_discovery").isTrue = true ∨ (proof.get "package").truthy = true) :
    legacyDynamicCommandMatches proof expectedCommand observedCommand = false := by
  rw [legacyDynamicCommandMatches]
  rcases hplan with hdynamic | hpackage
  · simp [hdynamic]
  · simp [hpackage]

/-! ## Modules that cannot be fetched -/

/-- The failures that have been read are those of the lines. -/
theorem SetupLog.fetched_of_readLines {lines : List Str} {setup after : SetupLog}
    (h : readLines rt depth setup lines = .ok (some after)) {failure : ModuleFetch}
    (hfailure : failure ∈ after.failures) : failure ∈ setup.failures ∨ ∃ line ∈ lines, ∃ found,
      goModuleFetch.fullmatch line.strip = some found ∧
        failure = ⟨found.group 1, found.group 2, found.group 3⟩ := by
  -- by induction on the lines that are still to be read
  induction lines generalizing setup with
  | nil =>
    obtain rfl : setup = after := by simpa [readLines] using h
    exact .inl hfailure
  | cons line rest ih =>
    rw [readLines] at h
    obtain ⟨next, hline, h⟩ := bind_eq_ok_iff.mp h
    cases next with
    | none => cases h
    | some next =>
      rcases ih h with hnext | ⟨other, hother, hfound⟩
      · rw [readLine] at hline
        split_ifs at hline
        · obtain ⟨discovery, -, hline⟩ := bind_eq_ok_iff.mp hline
          have hread : ((discovery.bind Json.asDict).map fun discovery =>
              { setup with discoveries := setup.discoveries ++ [discovery] }) = some next :=
            Except.ok.inj hline
          obtain ⟨_, _, rfl⟩ := Option.map_eq_some_iff.mp hread
          exact .inl hnext
        · have hread : setup.readText rt line.strip = some next := Except.ok.inj hline
          rw [readText] at hread
          rcases hdownload : goDownload.fullmatch line.strip with _ | download
          · simp only [hdownload] at hread
            by_cases htoolchain : (goToolchainDownload.fullmatch line.strip).isSome = true
            · rw [if_pos htoolchain] at hread
              obtain rfl := Option.some.inj hread
              exact .inl hnext
            rw [if_neg htoolchain] at hread
            rcases hfetch : goModuleFetch.fullmatch line.strip with _ | found
            · simp only [hfetch] at hread
              split_ifs at hread
              obtain rfl := Option.some.inj hread
              exact .inl hnext
            · simp only [hfetch] at hread
              split_ifs at hread
              obtain rfl := Option.some.inj hread
              rcases List.mem_append.mp hnext with hold | hnew
              · exact .inl hold
              · exact .inr ⟨line, List.mem_cons_self, found, hfetch, List.mem_singleton.mp hnew⟩
          · simp only [hdownload, Option.some.injEq] at hread
            subst hread
            exact .inl hnext
      · exact .inr ⟨other, List.mem_cons_of_mem _ hother, hfound⟩

/-- A setup that fails has a module that cannot be fetched. -/
theorem fetchFailure_of_setup {proof : Obj} {expectedCommand observedCommand : Str}
    (h : candidateDependencySetupFailureMatches rt depth proof logText declared expectedCommand
      observedCommand = .ok true) :
    ∃ sources, candidateSourcePaths proof = .ok sources ∧ FetchFailure proof logText sources := by
  rw [candidateDependencySetupFailureMatches] at h
  obtain ⟨sources, hsources, h⟩ := bind_eq_ok_iff.mp h
  refine ⟨sources, hsources, ?_⟩
  simp only at h
  split_ifs at h
  · cases h
  obtain ⟨setup, hsetup, h⟩ := bind_eq_ok_iff.mp h
  cases setup with
  | none => cases h
  | some setup =>
    have hany := (Bool.and_eq_true_iff.mp (Except.ok.inj h)).2
    obtain ⟨failure, hfailure, hmatches⟩ := List.any_eq_true.mp hany
    simp only [fetchMatches, Bool.and_eq_true, List.contains_iff_mem] at hmatches
    rcases SetupLog.fetched_of_readLines hsetup hfailure with hnone | ⟨line, hline, found, hfound, rfl⟩
    · exact absurd hnone List.not_mem_nil
    · exact ⟨line, hline, found, hfound, hmatches.1.1.1, hmatches.1.2⟩

/-! ## The verdict -/

/-- A failed log names a cause: a module that cannot be fetched, or a cause among the events. Where the
plan knows the packages of its tests, each package that fails in such a log has a cause of its own. -/
def Attributable (rt : Runtime) (depth : Nat) (proof : Obj) (logText : Str) : Prop :=
  ∃ sources, candidateSourcePaths proof = .ok sources ∧
    (FetchFailure proof logText sources ∨
      ∃ log, parseGoLog depth logText = .ok (some log) ∧
        Caused rt log depth logText (declaredTests proof) sources ∧
        ((proof.get "dynamic_discovery").isTrue = true ∨ (proof.get "package").truthy = true →
          ∀ package event, FailsIn rt log package event →
            Covered rt log depth logText (declaredTests proof) sources
              (proofBindings proof log.discoveries (declaredTests proof)) package))

/-- **A Go failure proof is attributable**: whatever the plan, the log and the commands, an accepted
failure has a cause that the declared tests or the candidate's files explain. -/
theorem goFailureProofMatches_attributable {proof : Obj} {expectedCommand observedCommand : Str}
    (h : goFailureProofMatches rt depth proof logText expectedCommand observedCommand = .ok true) :
    Attributable rt depth proof logText := by
  rw [goFailureProofMatches] at h
  by_cases hempty : (declaredTests proof).isEmpty = true
  · -- no failure is accepted without a declared test
    simp only [hempty, if_true, pure_eq_ok, ok_bind, Bool.false_eq_true, if_false] at h
    obtain ⟨parsed, -, h⟩ := bind_eq_ok_iff.mp h
    cases parsed with
    | none => cases h
    | some log => cases h
  simp only [hempty, Bool.false_eq_true, if_false] at h
  obtain ⟨setupFails, hsetup, h⟩ := bind_eq_ok_iff.mp h
  cases setupFails with
  | true =>
    obtain ⟨sources, hsources, hfetch⟩ := fetchFailure_of_setup hsetup
    exact ⟨sources, hsources, .inl hfetch⟩
  | false =>
    simp only [Bool.false_eq_true, if_false] at h
    obtain ⟨parsed, hparsed, h⟩ := bind_eq_ok_iff.mp h
    rcases parsed with _ | log
    · cases h
    obtain ⟨sources, hsources, h⟩ := bind_eq_ok_iff.mp h
    obtain ⟨exactFailures, hfound, h⟩ := bind_eq_ok_iff.mp h
    have hexact : ∀ event ∈ exactFailures,
        ExactFailure depth logText (declaredTests proof) event :=
      fun event hevent => exactFailure_of_mem hparsed hfound hevent
    have h := Except.ok.inj h
    simp only [failuresExplained] at h
    refine ⟨sources, hsources, .inr ⟨log, hparsed, ?_⟩⟩
    split_ifs at h with hpackageless
    · -- a plan without packages: an exact failure decides
      simp only [Bool.and_eq_true, Bool.not_eq_true'] at hpackageless
      obtain ⟨⟨⟨hnonempty, hstatic⟩, -⟩, hpackage⟩ := hpackageless
      obtain ⟨event, hevent⟩ := List.exists_mem_of_ne_nil _ (List.isEmpty_eq_false_iff.mp hnonempty)
      refine ⟨.exact (hexact event hevent), fun hplan => ?_⟩
      rcases hplan with hdynamic | htruthy
      · simp [hstatic] at hdynamic
      · simp [hpackage] at htruthy
    · obtain ⟨hcaused, hcovered⟩ := caused_of_packagesExplained hexact
        (fun binding hbinding => tests_of_proofBindings hbinding) h
      exact ⟨hcaused, fun hplan => hcovered (not_legacy_of_plan hplan)⟩

section Sample

/-- A log in which the planned test fails in its package. -/
def failedLog : Str :=
  lit "\x7b\"Action\":\"fail\",\"Package\":\"m/pkg\",\"Test\":\"TestA\"\x7d\n"

/-- The failure of the planned test is attributable. -/
theorem failedLog_attributable : Attributable asciiEnv.toRuntime 10 samplePlan failedLog :=
  goFailureProofMatches_attributable (show goFailureProofMatches asciiEnv.toRuntime 10 samplePlan
    failedLog [] [] = .ok true by decide +kernel)

end Sample

end GoProof

end OpenCollabEval
