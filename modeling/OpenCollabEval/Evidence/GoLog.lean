import OpenCollabEval.Python.JsonLoads
import OpenCollabEval.Python.Lines
import OpenCollabEval.Python.Path
import OpenCollabEval.Python.Pattern
import OpenCollabEval.Python.Runtime

/-!
# The log of a Go test command

A Go command leaves JSON events, discovery records, and what the compiler prints. `_parse_go_log` sorts
the lines of the log; the packages that a plan declares are compared with the observed import paths by
their suffix.
-/

open Python

namespace OpenCollabEval

namespace GoProof

/-- `GO_TARGET_DISCOVERY_PREFIX`. -/
def goTargetDiscoveryPrefix : Str := "OPENCOLLAB_GO_TARGET_DISCOVERY "

section Patterns

open Pattern

/-- `[0-9]+`. -/
def digits : Pattern := plus (chars Str.isDigit)

/-- `\S+`. -/
def word : Pattern := plus (chars fun c => !Str.isSpace c)

/-- `\s+`. -/
def spaces : Pattern := plus (chars Str.isSpace)

/-- `[A-Za-z]`. -/
def isLetter (c : Nat) : Bool := Str.isAsciiAlnum c && !Str.isDigit c

/-- Every code point but the given ones. -/
def notAmong (s : String) : Pattern := chars fun c => !(Python.lit s).elem c

/-- `(?P<path>(?:[A-Za-z]:)?[^:\r\n]*?[^/\\:\r\n]+\.go)`. -/
def goPath : Pattern :=
  group 1 (concat [opt (seq (chars isLetter) (text ":")), star false (notAmong ":\r\n"),
    plus (notAmong "/\\:\r\n"), text ".go"])

/-- `:[0-9]+(?::[0-9]+)?:`. -/
def position : Pattern := concat [text ":", digits, opt (seq (text ":") digits), text ":"]

/-- `_GO_PROOF_DIAGNOSTIC_RE`. -/
def goProofDiagnostic : Pattern := seq goPath position

/-- `_PLAIN_GO_DIAGNOSTIC_RE`. -/
def plainGoDiagnostic : Pattern := concat [goPath, position, plus (notAmong "\r\n")]

/-- `_GO_BUILD_HEADER_RE`, with the groups `package` and `test_package`. -/
def goBuildHeader : Pattern :=
  concat [text "# ", group 1 word, text " [", group 2 word, text ".test]"]

/-- `_GO_DEPENDENCY_BUILD_HEADER_RE`, with the group `package`. -/
def goDependencyBuildHeader : Pattern := seq (text "# ") (group 1 word)

/-- `_PLAIN_PACKAGE_FAILURE_RE`, with the group `package`. -/
def plainPackageFailure : Pattern :=
  concat [text "FAIL", spaces, group 1 word, spaces, text "[", alt (text "build") (text "setup"),
    text " failed]"]

/-- `_GO_DOWNLOAD_RE`, with the groups `module` and `version`. -/
def goDownload : Pattern :=
  concat [text "go: downloading ", group 1 word, text " ", group 2 (seq (text "v") word)]

/-- `[A-Za-z0-9_.-]+`. -/
def platformName : Pattern :=
  plus (chars fun c => Str.isAsciiAlnum c || (Python.lit "_.-").elem c)

/-- `_GO_TOOLCHAIN_DOWNLOAD_RE`. -/
def goToolchainDownload : Pattern :=
  concat [text "go: downloading go", digits, text ".", digits, opt (seq (text ".") digits),
    opt (oneOf [seq (text "alpha") digits, seq (text "beta") digits, seq (text "rc") digits]),
    opt (concat [text " (", platformName, text "/", platformName, text ")"])]

/-- `_GO_MODULE_FETCH_RE`, with the groups `path`, `module`, `version` and `detail`. -/
def goModuleFetch : Pattern :=
  concat [goPath, position, spaces, group 2 (plus (chars fun c => !(c == 64 || c == 58 || Str.isSpace c))),
    text "@", group 3 (plus (chars fun c => !(c == 58 || Str.isSpace c))), text ":", spaces,
    text "Get \"http", opt (text "s"), text "://", plus (notAmong "\""), text "\":", spaces,
    group 4 (plus dot)]

end Patterns

/-- `_declared_tests(proof)`. -/
def declaredTests (proof : Obj) : List Str :=
  let values := match proof.get "tests" with
    | .null => Json.list [proof.get "test"]
    | values => values
  match values.asList.bind Json.asStrs with
  | some tests => if tests.isEmpty || tests.any List.isEmpty then [] else tests
  | none => []

/-- What has been read of a log. -/
structure GoLog where
  events : List Obj := []
  discoveries : List Obj := []
  /-- The diagnostics in plain text: the package of the last header, and the path. -/
  plainDiagnostics : List (Str × Str) := []
  buildHeaders : List Str := []
  currentBuildHeader : Str := []
  dependencyOutput : Bool := false

namespace GoLog

/-- The packages that a header of a test build names: itself, or its external test package. -/
def testPackage (line : Str) : Option Str := do
  let header ← goBuildHeader.fullmatch line
  if header.group 1 = header.group 2 ∨ header.group 1 = header.group 2 ++ lit "_test" then
    some (header.group 2)
  else none

/-- The events that stand for a line `FAIL package [build failed]`. -/
def failureEvents (package line : Str) : List Obj :=
  [Obj.of [("Action", .str "output"), ("Package", .str package), ("Output", .str (line ++ [10]))],
    Obj.of [("Action", .str "fail"), ("Package", .str package)]]

/-- A line that is no JSON: progress of the module cache, a diagnostic, a header, a failed package, or
output of a build that a header has announced. -/
def readText (log : GoLog) (line : Str) : Option GoLog :=
  if (goDownload.fullmatch line).isSome || (goToolchainDownload.fullmatch line).isSome then some log
  else match plainGoDiagnostic.fullmatch line with
  | some diagnostic =>
    let header := log.currentBuildHeader
    some { log with
      plainDiagnostics := log.plainDiagnostics ++ [(header, diagnostic.group 1)]
      buildHeaders :=
        if header.isEmpty || log.buildHeaders.contains header then log.buildHeaders
        else log.buildHeaders ++ [header] }
  | none => match testPackage line with
  | some package =>
    some { log with
      currentBuildHeader := package
      buildHeaders := log.buildHeaders ++ [package]
      dependencyOutput := true }
  | none => match goDependencyBuildHeader.fullmatch line with
  | some header => some { log with currentBuildHeader := header.group 1, dependencyOutput := true }
  | none => match plainPackageFailure.fullmatch line with
  | some failure =>
    some { log with
      events := log.events ++ failureEvents (failure.group 1) line
      dependencyOutput := false }
  | none => if log.dependencyOutput then some log else none

/-- `json.loads`, with a syntax error as no value. -/
def loadsOrNone (depth : Nat) (text : Str) : Except PyErr (Option Json) :=
  match loads depth text with
  | .ok v => .ok (some v)
  | .error .jsonDecodeError => .ok none
  | .error err => .error err

/-- One line of the log, stripped. -/
def readLine (depth : Nat) (log : GoLog) (line : Str) : Except PyErr (Option GoLog) :=
  if line.isEmpty then .ok (some log)
  else if line.startsWith goTargetDiscoveryPrefix then do
    let discovery ← loadsOrNone depth (line.drop goTargetDiscoveryPrefix.length)
    return discovery.bind Json.asDict |>.map fun discovery =>
      { log with discoveries := log.discoveries ++ [discovery] }
  else do
    match ← loadsOrNone depth line with
    | some event =>
      return event.asDict.map fun event => { log with events := log.events ++ [event] }
    | none => return readText log line

/-- The lines of a log after some of it has been read. -/
def readLines (depth : Nat) : GoLog → List Str → Except PyErr (Option GoLog)
  | log, [] => .ok (some log)
  | log, line :: rest => do
    match ← readLine depth log line.strip with
    | some log => readLines depth log rest
    | none => return none

end GoLog

/-- `_parse_go_log(log_text)`. -/
def parseGoLog (depth : Nat) (logText : Str) : Except PyErr (Option GoLog) :=
  GoLog.readLines depth {} logText.splitlines

/-- `str(path or "").replace("\\", "/").removeprefix("./")`. -/
def normalized (path : Str) : Str := (Str.replaceChar 92 "/" path).removePrefix "./"

/-- `.strip("/")`. -/
def stripSlashes (s : Str) : Str := s.stripOf (· == 47)

/-- `_package_matches(declared, observed)`. -/
def packageMatches (declared observed : Str) : Bool :=
  let declared := (Str.replaceChar 92 "/" declared).strip
  let observed := (Str.replaceChar 92 "/" observed).strip.rstripOf (· == 47)
  if declared.isEmpty || observed.isEmpty then false
  else if declared == lit "." || declared == lit "./" then true
  else
    let suffix := stripSlashes (declared.removePrefix "./")
    !suffix.isEmpty && (observed == suffix || observed.endsWith (lit "/" ++ suffix))

/-- The tests and the test files that a plan expects in one package. -/
structure Binding where
  package : Str
  tests : List Str
  testFiles : List Str
  deriving DecidableEq

/-- A discovery record that may extend a list of bindings: its package is new, and it lists expected
tests only. -/
def readDiscovery (expected : List Str) (bindings : List Binding) (discovery : Obj) :
    Option Binding := do
  let package ← (discovery.get "package").asStr
  let tests ← (discovery.get "tests").asList
  let tests ← Json.asStrs tests
  let testFiles ← (discovery.get "test_files").asList
  let testFiles ← Json.asStrs testFiles
  if package.isEmpty || tests.isEmpty || tests.any (fun test => !expected.contains test) ||
      testFiles.isEmpty || testFiles.any (fun path => !path.endsWith "_test.go") ||
      bindings.any (fun binding => binding.package == package) then none
  else some ⟨package, tests, testFiles⟩

/-- The bindings of a list of discovery records, after some that have been read. -/
def readDiscoveries (expected : List Str) : List Binding → List Obj → Option (List Binding)
  | bindings, [] => some bindings
  | bindings, discovery :: rest => do
    let binding ← readDiscovery expected bindings discovery
    readDiscoveries expected (bindings ++ [binding]) rest

/-- `_dynamic_bindings(discoveries, declared_tests)`. -/
def dynamicBindings (discoveries : List Obj) (declared : List Str) : List Binding :=
  match readDiscoveries declared [] discoveries with
  | some bindings =>
    if declared.all fun test => bindings.any fun binding => binding.tests.contains test then bindings
    else []
  | none => []

/-- `_proof_bindings(proof, discoveries, declared_tests)`. -/
def proofBindings (proof : Obj) (discoveries : List Obj) (declared : List Str) : List Binding :=
  if (proof.get "dynamic_discovery").isTrue then dynamicBindings discoveries declared
  else if !discoveries.isEmpty then []
  else match proof.get "package", proof.get "test_file" with
  | .str package, .str testFile =>
    if package.isEmpty || !testFile.endsWith "_test.go" then [] else [⟨package, declared, [testFile]⟩]
  | _, _ => []

/-- `_matching_binding(bindings, observed_package)`: the only binding that matches. -/
def matchingBinding (bindings : List Binding) (observed : Str) : Option Binding :=
  match bindings.filter fun binding => packageMatches binding.package observed with
  | [binding] => some binding
  | _ => none

section Events

variable (rt : Runtime)

/-- `str(event.get("Package") or "")`. -/
def packageText (event : Obj) : Str := rt.strOrEmpty (event.get "Package")

/-- `_events_match_bindings(events, bindings)`. -/
def eventsMatchBindings (events : List Obj) (bindings : List Binding) : Bool :=
  let observed := (events.filter fun event => (event.get "Package").truthy).map (packageText rt)
  !observed.isEmpty && observed.all fun package => (matchingBinding bindings package).isSome

/-- The only binding that matches the package of an event, when that is a string. -/
def bindingOf (bindings : List Binding) (event : Obj) : Option Binding :=
  (event.get "Package").asStr.bind (matchingBinding bindings)

/-- `_dynamic_test_events_match_owners(events, bindings)`. -/
def dynamicTestEventsMatchOwners (events : List Obj) (bindings : List Binding) : Bool :=
  let owned := events.filter fun event =>
    (event.get "Test").asStr.any fun test => bindings.any fun binding => binding.tests.contains test
  !owned.isEmpty && owned.all fun event =>
    (event.get "Test").asStr.any fun test =>
      (bindingOf bindings event).any fun binding => binding.tests.contains test

/-- `event.get("Action") == action`. -/
def actionIs (action : String) (event : Obj) : Bool := (event.get "Action").eqStr (lit action)

/-- The binding and the test of an event that passes a test of its package. -/
def passedTarget (bindings : List Binding) (event : Obj) : Option (Str × Str) := do
  let test ← (event.get "Test").asStr
  let binding ← bindingOf bindings event
  if actionIs "pass" event && binding.tests.contains test then some (binding.package, test) else none

/-- `_dynamic_passes_cover_bindings(events, bindings)`. -/
def dynamicPassesCoverBindings (events : List Obj) (bindings : List Binding) : Bool :=
  let expected := bindings.flatMap fun binding => binding.tests.map fun test => (binding.package, test)
  let passed := events.filterMap (passedTarget bindings)
  (passed.all fun target => expected.contains target) &&
    expected.all fun target => passed.contains target

end Events

end GoProof

end OpenCollabEval
