import OpenCollabEval.Evidence.GoPass
import OpenCollabEval.Evaluation.RuntimeDependencies
import OpenCollabEval.Python.JsonText

/-!
# Failing evidence of a Go test command

`go_failure_proof_matches` accepts a declared test that fails, a declared test that a panic or a timeout
has ended, a build that fails on a test file or on a source file of the candidate, and a module that the
candidate added and that cannot be fetched. Every package that fails in the log has to be explained.
-/

open Python

namespace OpenCollabEval

namespace GoProof

section Patterns

open Pattern

/-- `(?P<path>[^:\r\n]+\.go):[0-9]+(?::[0-9]+)?:` at the start of a line. -/
def linePosition : Pattern :=
  concat [lineStart, group 1 (seq (plus (notAmong ":\r\n")) (text ".go")), position]

/-- `_DIAGNOSTIC` of a dependency that does not build. -/
def dependencyDiagnostic : Pattern := linePosition

/-- `_MISSING_MODULE`, with the groups `path` and `module`. -/
def missingModule : Pattern :=
  concat [linePosition, text " no required module provides package ",
    group 2 (plus (chars fun c => !(c == 59 || Str.isSpace c))), text ";"]

/-- `_DIAGNOSTIC` of a test that lacks a dependency. -/
def messageDiagnostic : Pattern := seq linePosition (plus (notAmong "\r\n"))

end Patterns

/-! ## Paths -/

/-- A path is a source path, or ends in one. -/
def namesSource (path source : Str) : Bool := path == source || path.endsWith (lit "/" ++ source)

/-- `parent in {"", "."}`. -/
def isHere (directory : Str) : Bool := directory.isEmpty || directory == lit "."

/-- A directory is a package path, or ends in one. -/
def directoryIs (directory package : Str) : Bool :=
  directory == package || directory.endsWith (lit "/" ++ package)

/-- `pathlib.PurePosixPath(path).parent.as_posix()`. -/
def parentOf (path : Str) : Str := (PosixPath.ofStr path).parent.asPosix

/-- `_diagnostic_belongs_to_package(observed, package)`. -/
def diagnosticBelongsToPackage (observed package : Str) : Bool :=
  let observedPath := normalized observed
  let packagePath := stripSlashes (normalized package)
  if observedPath.isEmpty || !observedPath.endsWith "_test.go" then false
  else
    let observedParent := (parentOf observedPath).rstripOf (· == 47)
    if isHere packagePath then isHere observedParent else directoryIs observedParent packagePath

/-- `_candidate_diagnostic_belongs_to_package(observed, package, candidate_source_paths)`. -/
def candidateDiagnosticBelongsToPackage (observed package : Str) (sources : List Str) : Bool :=
  match sources.filter (namesSource (normalized observed)) with
  | [path] =>
    let parent := parentOf path
    let packagePath := stripSlashes (normalized package)
    path.endsWith ".go" &&
      (isHere packagePath && isHere parent || !packagePath.isEmpty && directoryIs parent packagePath)
  | _ => false

/-- `_legacy_diagnostic_belongs_to_package(observed, package, candidate_source_paths)`. -/
def legacyDiagnosticBelongsToPackage (observed package : Str) (sources : List Str) : Bool :=
  let path := normalized observed
  let parent := stripSlashes (parentOf path)
  let packagePath := stripSlashes (normalized package)
  if !isHere parent && !directoryIs packagePath parent then false
  else path.endsWith "_test.go" || sources.any (namesSource path)

/-- The candidate's source paths that a proof lists. -/
def candidateSourcePaths (proof : Obj) : Except PyErr (List Str) := do
  let items ← iterOrEmpty (proof.get "candidate_source_paths")
  return (items.filterMap Json.asStr).map normalized

/-! ## Modules that cannot be fetched -/

/-- A module that could not be fetched, and the file that imports it. -/
structure ModuleFetch where
  path : Str
  module : Str × Str

/-- What has been read of a log that holds the setup of a command only. -/
structure SetupLog where
  discoveries : List Obj := []
  downloads : List (Str × Str) := []
  failures : List ModuleFetch := []

namespace SetupLog

/-- `("unknown revision", "invalid version", "unrecognized import path")`. -/
def semanticErrors : List Str :=
  lits ["unknown revision", "invalid version", "unrecognized import path"]

/-- A line that is no discovery record. -/
def readText (rt : Runtime) (log : SetupLog) (line : Str) : Option SetupLog :=
  match goDownload.fullmatch line with
  | some download =>
    some { log with downloads := log.downloads ++ [(download.group 1, download.group 2)] }
  | none =>
    if (goToolchainDownload.fullmatch line).isSome then some log
    else match goModuleFetch.fullmatch line with
    | some failure =>
      if semanticErrors.any (Str.contains (rt.lower line)) then
        some { log with
          failures := log.failures ++ [⟨failure.group 1, failure.group 2, failure.group 3⟩] }
      else none
    | none => if line.isEmpty then some log else none

/-- One line of the log, stripped. -/
def readLine (rt : Runtime) (depth : Nat) (log : SetupLog) (line : Str) :
    Except PyErr (Option SetupLog) :=
  if line.startsWith goTargetDiscoveryPrefix then do
    let discovery ← GoLog.loadsOrNone depth (line.drop goTargetDiscoveryPrefix.length)
    return (discovery.bind Json.asDict).map fun discovery =>
      { log with discoveries := log.discoveries ++ [discovery] }
  else return log.readText rt line

/-- The lines of a log after some of it has been read. -/
def readLines (rt : Runtime) (depth : Nat) : SetupLog → List Str → Except PyErr (Option SetupLog)
  | log, [] => .ok (some log)
  | log, line :: rest => do
    match ← readLine rt depth log line.strip with
    | some log => readLines rt depth log rest
    | none => return none

end SetupLog

/-- The modules that the candidate added, with their versions. -/
def addedModules (modules : List Json) : List (Str × Str) :=
  modules.filterMap fun item => do
    let item ← item.asDict
    return (← (item.get "module").asStr, ← (item.get "version").asStr)

/-- A module that the candidate added and that a source file of a target package imports. -/
def fetchMatches (added : List (Str × Str)) (sources : List Str) (bindings : List Binding)
    (log : SetupLog) (failure : ModuleFetch) : Bool :=
  let path := normalized failure.path
  added.contains failure.module && log.downloads.contains failure.module && sources.contains path &&
    bindings.any fun binding => candidateDiagnosticBelongsToPackage path binding.package sources

/-- `_candidate_dependency_setup_failure_matches(proof, log_text, declared_tests, …)`. -/
def candidateDependencySetupFailureMatches (rt : Runtime) (depth : Nat) (proof : Obj) (logText : Str)
    (declared : List Str) (expectedCommand observedCommand : Str) : Except PyErr Bool := do
  let sources ← candidateSourcePaths proof
  let modules := (proof.get "candidate_added_go_modules").asList.getD []
  if modules.isEmpty || !sources.contains (lit "go.mod") || expectedCommand.isEmpty ||
      expectedCommand != observedCommand then
    return false
  else
    match ← SetupLog.readLines rt depth {} logText.splitlines with
    | none => return false
    | some log =>
      let bindings := proofBindings proof log.discoveries declared
      return !bindings.isEmpty &&
        log.failures.any (fetchMatches (addedModules modules) sources bindings log)

/-! ## Failures of packages -/

section Packages

variable (rt : Runtime)

/-- `json.dumps(test)`. -/
def dumpsStr (s : Str) : Str := DumpFormat.plain.dumps (.str s)

/-- `_legacy_dynamic_command_matches(proof, expected_command, observed_command)`. -/
def legacyDynamicCommandMatches (proof : Obj) (expectedCommand observedCommand : Str) : Bool :=
  let declared := declaredTests proof
  if (proof.get "dynamic_discovery").isTrue || (proof.get "package").truthy ||
      expectedCommand != observedCommand ||
      !(expectedCommand.startsWith "python3 -c " || expectedCommand.startsWith "python3 -I -c ") then
    false
  else
    !declared.isEmpty &&
      (lits ["for path in pathlib.Path(\".\").rglob(\"*_test.go\")",
        "if re.search(r\"(?m)^func\\s+\" + re.escape(name) + r\"\\s*\\(\", text)",
        "print(\"unable to map Go tests to packages: \"",
        "subprocess.run([\"go\", \"test\", \"-count=1\", \"-json\", package, \"-run\", pattern])"]).all
          (Str.contains expectedCommand) &&
      declared.all fun test => Str.contains expectedCommand (dumpsStr test)

/-- `str(event.get("Output") or "")` of the events of a class, joined. -/
def outputOf (events : List Obj) (keep : Obj → Bool) : Str :=
  (events.filter keep).flatMap fun event => rt.strOrEmpty (event.get "Output")

/-- `event.get("Package") == package`. -/
def packageIs (package : Str) (event : Obj) : Bool := (event.get "Package").eqStr package

/-- What the tests of a package print. -/
def packageOutput (events : List Obj) (package : Str) : Str :=
  outputOf rt events fun event => packageIs package event && actionIs "output" event

/-- `str(event.get("ImportPath") or "")`. -/
def importPath (event : Obj) : Str := rt.strOrEmpty (event.get "ImportPath")

/-- `s.removesuffix(suffix)`. -/
def removeSuffix (s suffix : Str) : Str :=
  if s.endsWith suffix then s.take (s.length - suffix.length) else s

/-- `_build_unit_matches(package, import_path)`. -/
def buildUnitMatches (package importPath : Str) : Bool :=
  let buildPackage := importPath.before " ["
  packageMatches package buildPackage ||
    buildPackage.endsWith "_test" && packageMatches package (removeSuffix buildPackage "_test")

/-- `_build_output_for_package(events, package)`. -/
def buildOutputForPackage (events : List Obj) (package : Str) : Str :=
  outputOf rt events fun event =>
    actionIs "build-output" event && buildUnitMatches package (importPath rt event)

/-- The packages of the events that fail. -/
def failedPackages (events : List Obj) : List Str :=
  ((events.filter fun event => actionIs "fail" event && (event.get "Package").truthy).map
    (packageText rt)).dedup

/-- The packages that fail as a whole. -/
def wholeFailedPackages (events : List Obj) : List Str :=
  ((events.filter fun event => actionIs "fail" event && (event.get "Package").truthy &&
    !(event.get "Test").truthy).map (packageText rt)).dedup

/-- An event of one test in one package. -/
def isOf (package test : Str) (event : Obj) : Bool :=
  packageIs package event && (event.get "Test").eqStr test

/-- The test of a package has started and has not ended. -/
def isUnterminated (events : List Obj) (package test : Str) : Bool :=
  let actions := (events.filter (isOf package test)).map fun event =>
    rt.strOrEmpty (event.get "Action")
  actions.contains (lit "run") && !(lits ["pass", "fail", "skip"]).any actions.contains

/-- What a test of a package prints. -/
def targetOutput (events : List Obj) (package test : Str) : Str :=
  outputOf rt (events.filter (isOf package test)) (actionIs "output")

/-- `"panic: test timed out after "`. -/
def timeoutMarker : Str := "panic: test timed out after "

/-- The package has timed out, and the output of the test names it. -/
def timesOut (events : List Obj) (package test : Str) : Bool :=
  (packageOutput rt events package).contains timeoutMarker &&
    (targetOutput rt events package test).contains test

/-- The test has printed a panic other than a timeout. -/
def panics (events : List Obj) (package test : Str) : Bool :=
  (targetOutput rt events package test).splitlines.any fun line =>
    line.strip.startsWith "panic: " && !line.strip.startsWith timeoutMarker

/-- The targets that have started and not ended in the failed package of their binding. -/
def unterminatedTargets (events : List Obj) (bindings : List Binding) : List (Str × Str) :=
  bindings.flatMap fun binding =>
    match (wholeFailedPackages rt events).filter (packageMatches binding.package) with
    | [package] => (binding.tests.filter (isUnterminated rt events package)).map fun test =>
        (package, test)
    | _ => []

/-- `_target_runtime_failure_packages(events, bindings)`: the packages of timeouts and of panics. -/
def targetRuntimeFailurePackages (events : List Obj) (bindings : List Binding) :
    List Str × List Str :=
  let targets := unterminatedTargets rt events bindings
  ((targets.filter fun target => timesOut rt events target.1 target.2).map Prod.fst,
    (targets.filter fun target => panics rt events target.1 target.2).map Prod.fst)

/-- The build of an import path has failed. -/
def buildFails (events : List Obj) (dependency : Str) : Bool :=
  events.any fun event => actionIs "build-fail" event && (event.get "ImportPath").eqStr dependency

/-- What the build of an import path prints. -/
def dependencyOutput (events : List Obj) (dependency : Str) : Str :=
  outputOf rt events fun event =>
    actionIs "build-output" event && (event.get "ImportPath").eqStr dependency

/-- The failed build that an event of a package names. -/
def failedBuildOf (package : Str) (event : Obj) : Option Str :=
  if actionIs "fail" event && packageIs package event then (event.get "FailedBuild").asStr else none

/-- Where the module of a target starts, as the binding of the target's package says. -/
def moduleRoot (target : Str) (binding : Binding) : Option Str :=
  let relative := (binding.package.removePrefix "./").rstripOf (· == 47)
  if isHere relative then some target
  else if target.endsWith (lit "/" ++ relative) then
    some (target.take (target.length - relative.length - 1))
  else none

/-- `candidate_dependency_build_failed(events, bindings, target, candidate_paths)`. -/
def candidateDependencyBuildFailed (events : List Obj) (bindings : List Binding) (target : Str)
    (sources : List Str) : Bool :=
  match (events.filterMap (failedBuildOf target)).dedup, bindings.filterMap (moduleRoot target) with
  | [dependency], [root] =>
    let directory := dependency.drop (root.length + 1)
    let diagnostics := (dependencyDiagnostic.finditer (dependencyOutput rt events dependency)).map
      fun found => (found.group 1).removePrefix "./"
    dependency != target && dependency.startsWith (root ++ lit "/") && buildFails events dependency &&
      !diagnostics.isEmpty &&
      diagnostics.all fun path => sources.contains path && parentOf path == directory
  | _, _ => false

/-- `bound_test_dependency_unavailable(events, package, test_files)`. -/
def boundTestDependencyUnavailable (events : List Obj) (package : Str) (testFiles : List Str) :
    Bool :=
  match events.filterMap fun event =>
    if (event.get "Test").truthy then none else failedBuildOf package event with
  | [dependency] =>
    let output := dependencyOutput rt events dependency
    let found := missingModule.finditer output
    buildFails events dependency && !found.isEmpty &&
      found.length == (messageDiagnostic.finditer output).length &&
      found.all fun found => found.group 2 == dependency &&
        (testFiles.map fun path => path.removePrefix "./").contains
          ((found.group 1).removePrefix "./")
  | _ => false

/-- The paths of the diagnostics of a package's build, when the build has failed. -/
def buildDiagnostics (log : GoLog) (package : Str) : Option (List Str) :=
  if !log.plainDiagnostics.isEmpty then
    match log.buildHeaders.filter (packageMatches package) with
    | [header] => some ((log.plainDiagnostics.filter fun found => found.1 == header).map Prod.snd)
    | _ => none
  else if log.events.any fun event =>
      actionIs "build-fail" event && buildUnitMatches package (importPath rt event) then
    some ((goProofDiagnostic.finditer (buildOutputForPackage rt log.events package)).map (·.group 1))
  else none

/-- A failed package is explained: by a test that failed in it, or by what its build prints. -/
def isProven (log : GoLog) (bindings : List Binding) (sources exactPackages runtimePackages : List Str)
    (sameCommand : Bool) (package : Str) : Bool :=
  if candidateDependencyBuildFailed rt log.events bindings package sources && sameCommand then true
  else if runtimePackages.contains package then true
  else match bindings.filter fun binding => packageMatches binding.package package with
  | [binding] =>
    if !exactPackages.isEmpty &&
        boundTestDependencyUnavailable rt log.events package binding.testFiles then true
    else if log.events.any fun event =>
        (event.get "Test").asStr.any binding.tests.contains &&
          (event.get "Package").asStr.any (packageMatches binding.package) then false
    else if !((packageOutput rt log.events package).contains "[build failed]" ||
        (packageOutput rt log.events package).contains "[setup failed]") then false
    else match buildDiagnostics rt log package with
    | some diagnostics =>
      !diagnostics.isEmpty && diagnostics.all fun path =>
        diagnosticBelongsToPackage path binding.package ||
          candidateDiagnosticBelongsToPackage path binding.package sources
    | none => false
  | _ => false

/-- Every header belongs to one failed build, and every failed build to one header. -/
def headersMatch (headers buildFailed : List Str) : Bool :=
  let headers := headers.dedup
  headers.length == buildFailed.length &&
    (buildFailed.all fun package => headers.countP (packageMatches package) == 1) &&
    headers.all fun header => buildFailed.countP (fun package => packageMatches package header) == 1

/-- The only package of a legacy command fails on its own files. -/
def legacyBuildFails (log : GoLog) (sources : List Str) (package : Str) : Bool :=
  let diagnostics := (goProofDiagnostic.finditer (buildOutputForPackage rt log.events package)).map
    (·.group 1)
  (packageOutput rt log.events package).contains "[build failed]" &&
    (log.events.any fun event => actionIs "build-fail" event &&
      packageMatches package ((importPath rt event).before " [")) &&
    !diagnostics.isEmpty &&
    diagnostics.all fun path => legacyDiagnosticBelongsToPackage path package sources

/-- The binding that owns the test of an event. -/
def isOwned (bindings : List Binding) (event : Obj) : Bool :=
  (bindingOf bindings event).any fun binding => (event.get "Test").asStr.any binding.tests.contains

/-- The packages that fail in the log are explained, once the exact failures are known to be owned. -/
def packagesExplained (proof : Obj) (log : GoLog) (sources : List Str) (exactFailures : List Obj)
    (bindings : List Binding) (legacyDynamic sameCommand : Bool) : Bool :=
  let exactPackages := exactFailures.filterMap fun event => (event.get "Package").asStr
  let (timeouts, panics) := targetRuntimeFailurePackages rt log.events bindings
  let runtimePackages := exactPackages ++ timeouts ++ panics
  let failed := failedPackages rt log.events
  let buildFailed := failed.filter fun package => !runtimePackages.contains package
  let dynamic := (proof.get "dynamic_discovery").isTrue
  if dynamic && !runtimePackages.isEmpty && !dynamicTestEventsMatchOwners log.events bindings then
    false
  else if dynamic && !(timeouts.isEmpty && panics.isEmpty && buildFailed.isEmpty &&
      log.plainDiagnostics.isEmpty && log.buildHeaders.isEmpty) && !sameCommand then false
  else if !log.plainDiagnostics.isEmpty && !sameCommand then false
  else if !log.buildHeaders.isEmpty && !headersMatch log.buildHeaders buildFailed then false
  else if legacyDynamic then
    match failed with
    | [package] => legacyBuildFails rt log sources package
    | _ => false
  else
    -- each failed package is proven or refused, so that the proven packages are all of them
    !(runtimePackages ++ failed).isEmpty &&
      failed.all (isProven rt log bindings sources exactPackages runtimePackages sameCommand)

/-- The exact failures of a log are owned, and the packages that fail are explained. -/
def failuresExplained (proof : Obj) (log : GoLog) (sources : List Str) (exactFailures : List Obj)
    (expectedCommand observedCommand : Str) : Bool :=
  if !exactFailures.isEmpty && !(proof.get "dynamic_discovery").isTrue && log.discoveries.isEmpty &&
      !(proof.get "package").truthy then
    log.plainDiagnostics.isEmpty && log.buildHeaders.isEmpty
  else
    let legacyDynamic := legacyDynamicCommandMatches proof expectedCommand observedCommand
    let bindings := proofBindings proof log.discoveries (declaredTests proof)
    let sameCommand := !expectedCommand.isEmpty && expectedCommand == observedCommand
    if bindings.isEmpty && (!legacyDynamic || !log.discoveries.isEmpty) then false
    else if !bindings.isEmpty && !eventsMatchBindings rt log.events bindings then false
    else if !exactFailures.all (isOwned bindings) then false
    else packagesExplained rt proof log sources exactFailures bindings legacyDynamic sameCommand

/-- `go_failure_proof_matches(proof, log_text, expected_command=…, observed_command=…)`. -/
def goFailureProofMatches (depth : Nat) (proof : Obj) (logText expectedCommand observedCommand : Str) :
    Except PyErr Bool := do
  let declared := declaredTests proof
  let setup := candidateDependencySetupFailureMatches rt depth proof logText declared expectedCommand
    observedCommand
  let setupFails ← if declared.isEmpty then pure false else setup
  if setupFails then return true
  else
    match ← parseGoLog depth logText with
    | none => return false
    | some log =>
      if declared.isEmpty then return false
      else
        let sources ← candidateSourcePaths proof
        let exactFailures ← declaredEvents "fail" declared log.events
        return failuresExplained rt proof log sources exactFailures expectedCommand observedCommand

end Packages

end GoProof

end OpenCollabEval
