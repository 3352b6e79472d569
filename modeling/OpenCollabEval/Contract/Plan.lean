import OpenCollabEval.Contract.Commands

/-!
# Structural trust contract of test plans

Which plans the evaluator runs and the report reader accepts. A plan is read as a JSON document;
each adapter then derives the commands and proofs its declared targets call for and compares them
with the plan's own.
-/

open Python

namespace OpenCollabEval

/-- The schema of a plan. -/
def planSchema : Str := "opencollab.prolite_test_plan.v2"

/-- The kind of the plan that runs nothing. -/
def emptyPlanKind : Str := "empty"

/-- Commands that run no test. -/
def noopTestCommands : List Str := ["", "true", ":", "/bin/true"]

/-- The keys of a plan. -/
def planKeys : List Str :=
  ["schema", "adapter", "coverage", "coverage_verified", "declared_targets", "target_batches",
    "commands", "proofs", "runtime_dependencies"]

/-- The coverage that each adapter claims. -/
def adapterCoverage : List (Str × Str) :=
  [("go-test-json", "exact_test_events"),
    ("go-test-json-discovery", "runtime_discovered_exact_test_events"),
    ("jest-json-verbose", "parser_backed_exact_targets"),
    ("mocha-json-stream", "parser_backed_exact_targets"),
    ("ospec-structured-results", "parser_backed_exact_targets"),
    ("pytest", "exact_targets")]

/-- The languages a JavaScript proof may name. -/
def javascriptLanguages : List Str := ["js", "javascript", "ts", "typescript"]

/-- One runtime dependency of a plan. -/
def runtimeDependency (root requiredPath kind : Str) (candidateProtected : Bool) : Json :=
  .dict [("root", .str root), ("required_paths", Json.strs [requiredPath]), ("kind", .str kind),
    ("candidate_protected", .bool candidateProtected)]

/-- The runner whose presence shows that `node_modules` was restored. -/
def javascriptRunner (adapter : Str) : Str :=
  if adapter = lit "jest-json-verbose" then "node_modules/.bin/jest"
  else if adapter = lit "mocha-json-stream" then "node_modules/.bin/mocha"
  else "node_modules"

/-- The files and directories that a JavaScript plan needs restored. -/
def javascriptRuntimeDependencies (adapter : Str) : List Json :=
  [runtimeDependency "node_modules" (javascriptRunner adapter) "directory" true,
    runtimeDependency "package.json" "package.json" "file" false,
    runtimeDependency "config.json" "config.json" "file" false] ++
  if adapter = lit "mocha-json-stream" then
    [runtimeDependency "build/public" "build/public/templates" "directory" true,
      runtimeDependency "build/cache-buster" "build/cache-buster" "file" true,
      runtimeDependency "build/active_plugins.json" "build/active_plugins.json" "file" true]
  else []

/-- The file-aware dependency shape emitted before config preservation. -/
def previousJavascriptRuntimeDependencies (adapter : Str) : List Json :=
  (javascriptRuntimeDependencies adapter).take 2

/-- The runtime dependency shape emitted by the original plan. -/
def legacyJavascriptRuntimeDependencies (adapter : Str) : List Json :=
  [.dict [("root", "node_modules"), ("required_paths", Json.strs [javascriptRunner adapter])]]

/-- A class of name characters `[A-Za-z0-9_]`. -/
def isNameChar (c : Nat) : Bool := Str.isAsciiAlnum c || c == 95

/-- `(?:Test|Fuzz)[A-Za-z0-9_]*`, matched in full. -/
def isGoTestRoot (s : Str) : Bool :=
  (s.startsWith "Test" || s.startsWith "Fuzz") && s.all isNameChar

/-- `\S+`, matched in full. -/
def isWordRun (s : Str) : Bool := !s.isEmpty && s.all (!Str.isSpace ·)

/-- `\S(?:.*\S)?`, matched in full. -/
def isArgumentText (s : Str) : Bool :=
  (s.head?.any (!Str.isSpace ·)) && (s.getLast?.any (!Str.isSpace ·)) && s.all (· != 10)

/-- `go test -count=1 -json \S+ -run \S+`, matched in full. -/
def isGoTestCommand (command : Str) : Bool :=
  let start := lit "go test -count=1 -json "
  let rest := command.drop start.length
  let package := rest.takeWhile (!Str.isSpace ·)
  let selector := rest.drop package.length
  let run := lit " -run "
  command.startsWith start && !package.isEmpty && Str.startsWith selector run &&
    isWordRun (selector.drop run.length)

/-- The two ways a pytest command of a plan starts. -/
def pytestPrefixes : List Str :=
  ["pytest -p opencollab_pytest_proof -q -rA -o addopts= ",
    "xvfb-run -a python -m pytest --no-xvfb -p opencollab_pytest_proof -q -rA -o addopts= "]

/-- A command family backed by an independent parser. -/
def isRunnableTestCommand (command : Str) : Bool :=
  !noopTestCommands.contains command.strip &&
    (pytestPrefixes.any (fun start =>
        command.startsWith start && isArgumentText (command.drop start.length)) ||
      isGoTestCommand command ||
      command.startsWith "if [ -x ./node_modules/.bin/jest ]; then\n" ||
      command.startsWith "if [ -x ./node_modules/.bin/mocha ]; then\n" ||
      (command.startsWith "python3 -I -c " && command.contains "npm run test:app") ||
      (command.startsWith "python3 -I -c " && command.contains "missing declared Mocha titles" &&
        command.contains "json-stream") ||
      (command.startsWith "python3 -I -c " &&
        command.contains "unable to map Go tests to packages" &&
        command.contains "\"go\", \"test\", \"-count=1\", \"-json\""))

/-- The node without the parameters in brackets at its end, empty when there are none. -/
def pytestParameterParent (target : Str) : Str :=
  match Str.rfind "::" target with
  | none => []
  | some i =>
    match Str.find "[" (target.drop (i + 2)) with
    | none => []
    | some j => if j = 0 || !target.endsWith "]" then [] else target.take (i + 2 + j)

/-- The parameter parents of a batch, in order. -/
def parameterParents (batch : List Str) : List Str :=
  dedupKeys ((batch.map pytestParameterParent).filter (!·.isEmpty))

/-- The nodes that a batch runs: a parameterized target by its parent. -/
def executionTargets (batch : List Str) : List Str :=
  dedupKeys (batch.map fun target =>
    let parent := pytestParameterParent target
    if parent.isEmpty then target else parent)

/-- The digest of the words of a command. -/
def commandSha256 (rt : Runtime) (command : Str) : Except PyErr Str := do
  let words ← Shlex.split command
  return rt.sha256 (← Str.encode (Str.join [0] words))

/-- The file part of a pytest node. -/
def pytestTargetFile (target : Str) : Str :=
  (Str.replaceChar 92 "/" (target.before "::")).removePrefix "./"

/-- Directories whose files are tests. -/
def evalTestDirectoryNames : List Str :=
  ["test", "tests", "testing", "__tests__", "spec", "specs"]

section Contract

variable (env : Env)

/-- A name that a Go test event may carry. -/
def isGoTestName (value : Str) : Bool :=
  !value.isEmpty && value.all env.isPrintable &&
    (match value.encode with
      | .ok bytes => decide (bytes.length ≤ 4096)
      | .error _ => false) &&
    isGoTestRoot (value.before "/")

/-- A subtest is declared with its root, or names every one of its components. -/
def dynamicGoTargetsSupported (values : List Str) : Bool :=
  values.all fun target =>
    values.contains (target.before "/") ||
      ((Str.splitChar 47 target).drop 1).all (!·.isEmpty)

/-- A path that only tests live under. -/
def isEvalTestPath (path : Str) : Bool :=
  let normalized := env.normalizePatchPath path
  let parts := (Str.splitChar 47 normalized).filter (!·.isEmpty)
  let name := parts.getLastD normalized
  parts.any evalTestDirectoryNames.contains || name == lit "conftest.py" ||
    name.endsWith "_test.go" || name == lit "test.py" ||
    (name.startsWith "test_" && name.endsWith ".py") || name.endsWith "_test.py" ||
    name.contains ".test." || name.contains ".spec."

/-- The number of bytes of some strings together. -/
def byteCount : List Str → Except PyErr Nat
  | [] => .ok 0
  | s :: rest => do return (← s.encode).length + (← byteCount rest)

/-- One candidate source path: relative, normalized, printable and no test. -/
def validCandidateSourcePath (path : Str) : Bool :=
  let pure := PosixPath.ofStr path
  !path.isEmpty && env.normalizePatchPath path == path && !path.contains "\\" &&
    !pure.isAbsolute && !pure.parts.isEmpty && Str.join "/" pure.parts == path &&
    !pure.parts.any (fun part => part.isEmpty || part == lit "." || part == lit "..") &&
    !path.any env.isControl && !isEvalTestPath env path

/-- The source paths that a candidate changes. -/
def validCandidateSourcePaths (value : Json) : Except PyErr Bool :=
  match value.asList.bind Json.asStrs with
  | none => .ok false
  | some paths =>
    if paths.isEmpty || 1024 < paths.length || !decide paths.Nodup then .ok false
    else do
      if 128 * 1024 < (← byteCount paths) then return false
      return paths.all (validCandidateSourcePath env)

/-- One module name of a binding. -/
def validModuleName (module : Str) : Except PyErr Bool :=
  if module.isEmpty then .ok false
  else do
    if 4096 < (← module.encode).length then return false
    return !module.any env.isControl

/-- All module names of a binding, in order. -/
def validModuleNames : List Json → Except PyErr Bool
  | [] => .ok true
  | .str module :: rest => do
    if ← validModuleName env module then validModuleNames rest else return false
  | _ :: _ => .ok false

/-- The bindings after those of the paths `seen`. -/
def validModuleBindings (candidatePaths : List Json) (seen : List Json) :
    List Json → Except PyErr Bool
  | [] => .ok true
  | .dict binding :: rest =>
    if !Obj.keysAre binding ["path", "modules"] then .ok false
    else
      let path := Obj.get binding "path"
      match (Obj.get binding "modules").asList with
      | none => .ok false
      | some modules =>
        if !path.elem candidatePaths || path.elem seen || modules.isEmpty || 256 < modules.length
          then .ok false
        else do
          if !(← Json.setIsFaithful modules) then return false
          if !(← validModuleNames env modules) then return false
          validModuleBindings candidatePaths (seen ++ [path]) rest
  | _ :: _ => .ok false

/-- The module names of changed files, one entry for each file. -/
def validCandidateModuleBindings (value candidatePaths : Json) : Except PyErr Bool :=
  match value.asList, candidatePaths.asList with
  | some bindings, some paths =>
    if bindings.isEmpty || 1024 < bindings.length then .ok false
    else validModuleBindings env paths [] bindings
  | _, _ => .ok false

/-- `[A-Za-z_]\w*`, matched in full. -/
def isIdentifierText (s : Str) : Bool :=
  match s with
  | [] => false
  | c :: cs => ((65 ≤ c && c ≤ 90) || (97 ≤ c && c ≤ 122) || c == 95) && cs.all env.isWord

/-- The name under which a Python source file is imported. -/
def pythonAlias (path : Str) : Str :=
  let pure := PosixPath.ofStr path
  if pure.name == lit "__init__.py" then pure.parent.name else pure.stem

/-- The number of changed files that an alias names. -/
def aliasCount (paths : List Str) (name : Str) : Nat := (paths.map pythonAlias).count name

/-- `sorted(set(items))` of strings. -/
def sortedSet (items : List Str) : List Str := (dedupKeys items).insertionSort (Str.le · ·)

/-- `items == sorted(set(items))`, then that every item is an identifier. Only strings pass both
tests: other items are unhashable, cannot be ordered, are out of order, or are no text to match. -/
def validMethodNames (items : List Json) : Except PyErr (Option (List Str)) :=
  match Json.asStrs items, items.mapM Json.asNumber with
  | some methods, _ =>
    .ok (if methods = sortedSet methods ∧ methods.all (isIdentifierText env) then some methods
      else none)
  | none, some numbers =>
    if numbers.Pairwise (· < ·) then .error .typeError else .ok none
  | none, none =>
    if items.all Json.hashable && 1 < items.length && !(items.drop 1).any (!·.elem (items.take 1))
      then .ok none else .error .typeError

/-- The calls of a source line, those through something else than a name left out. -/
def namedCalls (calls : List (Option (Str × Str))) : List (Str × Str) := calls.filterMap id

/-- The calls of a line bind one alias, with exactly the named methods. -/
def callsBind (paths : List Str) (name : Str) (methods : List Str) (calls : List (Str × Str)) :
    Bool :=
  let bound := (calls.map (·.1)).filter (aliasCount paths · == 1)
  sortedSet ((calls.filter (·.1 == name)).map (·.2)) == methods &&
    !bound.isEmpty && bound.all (· == name)

/-- One call site of a candidate in a test, with the number of bytes it takes. -/
def validCallsite (targetFiles paths : List Str) (binding : Obj) :
    Except PyErr (Option (List Str × Nat)) := do
  if !Obj.keysAre binding ["test_file", "source", "candidate_alias", "methods"] then return none
  if !(← (Obj.get binding "test_file").inStrSet targetFiles) then return none
  let some source := (Obj.get binding "source").asStr | return none
  if source.isEmpty || source != source.strip then return none
  if 4096 < (← source.encode).length || source.any env.isControl then return none
  let some name := (Obj.get binding "candidate_alias").asStr | return none
  if aliasCount paths name != 1 then return none
  let some items := (Obj.get binding "methods").asList | return none
  if items.isEmpty then return none
  let some methods ← validMethodNames env items | return none
  let some calls := env.callFunctions source | return none
  if !callsBind paths name methods (namedCalls calls) then return none
  let some file := (Obj.get binding "test_file").asStr | return none
  return some (file :: source :: name :: methods,
    ← byteCount (file :: source :: name :: methods))

/-- The call sites after those `seen`, which take `total` bytes. -/
def validCallsites (targetFiles paths : List Str) (seen : List (List Str)) (total : Nat) :
    List Json → Except PyErr Bool
  | [] => .ok true
  | .dict binding :: rest => do
    let some (identity, size) ← validCallsite env targetFiles paths binding | return false
    if seen.contains identity || 128 * 1024 < total + size then return false
    validCallsites targetFiles paths (identity :: seen) (total + size) rest
  | _ :: _ => .ok false

/-- The call sites through which a fixed test reaches a changed file. -/
def validCandidateTestCallsites (value : Json) (targets : List Str) (paths : Json) :
    Except PyErr Bool := do
  if !(← validCandidateSourcePaths env paths) then return false
  let some bindings := value.asList | return false
  if bindings.isEmpty || 1024 < bindings.length then return false
  let some paths := paths.asList.bind Json.asStrs | return false
  if !(paths.map pythonAlias).all (isIdentifierText env) then return false
  validCallsites env (targets.map pytestTargetFile) paths [] 0 bindings

/-- The part of a plan that every adapter reads. -/
structure PlanParts where
  coverage : Json
  declaredTargets : List Str
  targetBatches : List (List Str)
  commands : List Str
  proofs : List Obj
  runtimeDependencies : List Json

/-- The keys a pytest proof may have. -/
def pytestProofKeys : List Str :=
  ["kind", "targets", "parameter_fallback_parents", "candidate_source_paths",
    "candidate_test_callsites", "target_imports", "repo", "command_sha256"]

/-- One batch of a pytest plan. -/
def validPytestBatch (batch : List Str) (command : Str) (proof : Obj) : Except PyErr Bool := do
  if !(proof.get "kind").eqStr "pytest_structured_reports" ||
      !(proof.get "targets").pyEq (Json.strs batch) then return false
  if proof.any fun entry => !pytestProofKeys.contains entry.1 then return false
  if !(Obj.getOr proof "parameter_fallback_parents" (.list [])).pyEq
      (Json.strs (parameterParents batch)) then return false
  let arguments := Str.join " " ((executionTargets batch).map Shlex.quote)
  if !(pytestPrefixes.map (· ++ arguments)).contains command then return false
  if !(proof.get "command_sha256").eqStr (← commandSha256 env.toRuntime command) then return false
  let callsites := proof.get "candidate_test_callsites"
  if callsites matches .null then return true
  validCandidateTestCallsites env callsites batch (proof.get "candidate_source_paths")

/-- The batches of a pytest plan, in order. -/
def validPytestBatches : List (List Str) → List Str → List Obj → Except PyErr Bool
  | batch :: batches, command :: commands, proof :: proofs => do
    if ← validPytestBatch env batch command proof then validPytestBatches batches commands proofs
    else return false
  | _, _, _ => .ok true

/-- A pytest plan, which names its coverage by whether a target has parameters. -/
def validPytestPlan (plan : PlanParts) : Except PyErr Bool := do
  if !(← plan.coverage.inStrSet ["exact_targets", "parameter_parent_targets"]) then return false
  if !(← validPytestBatches env plan.targetBatches plan.commands plan.proofs) then return false
  let fallback := plan.targetBatches.any fun batch => !(parameterParents batch).isEmpty
  return fallback == plan.coverage.eqStr "parameter_parent_targets"

/-- The event, package, file and command of one exact Go target. -/
structure GoBinding where
  test : Str
  package : Str
  testFile : Str
  command : Str

/-- The Go package of a directory. -/
def goPackage (directory : Str) : Str :=
  if directory.isEmpty || directory == lit "." then "."
  else lit "./" ++ Str.stripOf (· == 47) directory

/-- The command that runs one test of a package. -/
def goExactCommand (package test : Str) : Str :=
  lit "go test -count=1 -json " ++ Shlex.quote package ++ lit " -run " ++
    Shlex.quote (lit "^" ++ reEscape test ++ lit "$")

/-- The binding of a declared Go target, as the contract derives it. -/
def exactGoBinding (target : Str) : Option GoBinding :=
  let declared := (targetHead target).strip
  match declared.splitOnce "::" with
  | (_, none) => none
  | (rawPath, some rawTest) =>
    let test := rawTest.strip
    let path := (Str.replaceChar 92 "/" rawPath.strip).removePrefix "./"
    if !declared.occursOnce "::" || !path.endsWith "_test.go" || !isGoTestName env test then none
    else
      let package := goPackage (PosixPath.ofStr path).parent.asPosix
      some ⟨test, package, path, goExactCommand package test⟩

/-- `[A-Za-z0-9._~+/\-]`. -/
def isModuleChar (c : Nat) : Bool :=
  Str.isAsciiAlnum c || c ∈ lit "._~+-/"

/-- `[A-Za-z0-9][A-Za-z0-9._~+/\-]*`, matched in full. -/
def isGoModulePath (s : Str) : Bool := s.head?.any Str.isAsciiAlnum && s.all isModuleChar

/-- `v[^\s]+`, matched in full. -/
def isGoVersion (s : Str) : Bool :=
  s.head? == some 118 && isWordRun (s.drop 1)

/-- The module and version of one entry of an added-module list. -/
def goModuleEntry (item : Json) : Option (Str × Str) := do
  let entry ← item.asDict
  let module ← (Obj.get entry "module").asStr
  let version ← (Obj.get entry "version").asStr
  if Obj.keysAre entry ["module", "version"] && isGoModulePath module && isGoVersion version then
    some (module, version)
  else none

/-- The entries of an added-module list with the number of bytes they take. -/
def goModuleEntries : List Json → Except PyErr (Option (List (Str × Str) × Nat))
  | [] => .ok (some ([], 0))
  | item :: rest =>
    match goModuleEntry item with
    | none => .ok none
    | some (module, version) => do
      let size := (← module.encode).length + (← version.encode).length
      match ← goModuleEntries rest with
      | none => return none
      | some (entries, total) => return some ((module, version) :: entries, size + total)

/-- The bounded list of modules that a candidate adds. -/
def validCandidateAddedGoModules (value : Json) : Except PyErr Bool :=
  match value.asList with
  | none => .ok false
  | some items =>
    if items.isEmpty || 256 < items.length then .ok false
    else do
      match ← goModuleEntries items with
      | none => return false
      | some (entries, total) => return decide entries.Nodup && total ≤ 64 * 1024

/-- The candidate fields of a Go proof: each is absent, or valid and part of what is expected. -/
def goCandidateFields (proof : Obj) : Except PyErr (Option Obj) := do
  let paths := proof.get "candidate_source_paths"
  let modules := proof.get "candidate_added_go_modules"
  let withPaths : Obj := if paths matches .null then [] else [("candidate_source_paths", paths)]
  if !(paths matches .null) && !(← validCandidateSourcePaths env paths) then return none
  let withModules : Obj :=
    if modules matches .null then [] else [("candidate_added_go_modules", modules)]
  if !(modules matches .null) && !(← validCandidateAddedGoModules modules) then return none
  return some (withPaths ++ withModules)

/-- One target of an exact Go plan. -/
def validExactGoBatch (target command : Str) (proof : Obj) : Except PyErr Bool := do
  let some binding := exactGoBinding env target | return false
  let some candidate ← goCandidateFields env proof | return false
  let expected : Obj := [("kind", "go_json_test_pass"), ("test", .str binding.test),
    ("package", .str binding.package), ("test_file", .str binding.testFile)]
  return command == binding.command && (Json.dict proof).pyEq (.dict (expected ++ candidate))

/-- The targets of an exact Go plan, in order. -/
def validExactGoBatches : List Str → List Str → List Obj → Except PyErr Bool
  | target :: targets, command :: commands, proof :: proofs => do
    if ← validExactGoBatch env target command proof then
      validExactGoBatches targets commands proofs
    else return false
  | _, _, _ => .ok true

/-- A Go plan whose targets name their files. -/
def validExactGoPlan (plan : PlanParts) : Except PyErr Bool :=
  if plan.targetBatches.any (·.length != 1) then .ok false
  else validExactGoBatches env plan.declaredTargets plan.commands plan.proofs

/-- A Go plan whose packages are discovered when it runs. -/
def validDynamicGoPlan (plan : PlanParts) : Except PyErr Bool :=
  match plan.targetBatches, plan.commands, plan.proofs with
  | [batch], [command], [proof] =>
    if batch != plan.declaredTargets || !plan.declaredTargets.all (isGoTestName env) ||
        !dynamicGoTargetsSupported plan.declaredTargets then .ok false
    else do
      let some candidate ← goCandidateFields env proof | return false
      let expected : Obj := [("kind", "go_json_test_pass"),
        ("tests", Json.strs plan.declaredTargets), ("dynamic_discovery", .bool true)]
      return (Json.dict proof).pyEq (.dict (expected ++ candidate)) &&
        command == goTestCommand env plan.declaredTargets
  | _, _, _ => .ok false

/-- The keys a JavaScript proof may have. -/
def javascriptProofKeys : List Str :=
  ["kind", "targets", "repo_language", "repo", "suite_module_mocks", "selected_test_files",
    "test_patch_files", "test_files", "target_file", "candidate_source_paths",
    "candidate_module_bindings"]

/-- A list of nonempty strings without duplicates. -/
def distinctFiles (value : Json) : Option (List Str) := do
  let files ← value.asList.bind Json.asStrs
  if files.all (!·.isEmpty) && decide files.Nodup then some files else none

/-- The commands that an adapter runs for its test files. -/
def javascriptCommandsMatch (adapter repo : Str) (plan : PlanParts) (proof : Obj)
    (testFiles : List Str) : Except PyErr Bool :=
  if adapter = lit "jest-json-verbose" then
    if repo == lit "nodebb/nodebb" || repo == lit "tutao/tutanota" || proof.has "target_file" then
      .ok false
    else do return plan.commands == [← jestTestCommand testFiles]
  else if adapter = lit "mocha-json-stream" then
    match (Obj.getOr proof "target_file" "").asStr with
    | some targetFile =>
      if repo != lit "nodebb/nodebb" then .ok false
      else do return plan.commands == [← mochaTestCommand env plan.declaredTargets testFiles targetFile]
    | none => .ok false
  else
    .ok (repo == lit "tutao/tutanota" && !proof.has "target_file" &&
      plan.commands == [tutanotaTestCommand env plan.declaredTargets])

/-- The fields of a JavaScript proof that name its files, resolved from the declared targets. -/
def validJavascriptFiles (plan : PlanParts) (proof : Obj) : Option (List Str) := do
  let testFiles ← distinctFiles (proof.get "test_files")
  let selectedFiles ← distinctFiles (Obj.getOr proof "selected_test_files" (.list []))
  let testPatchFiles ← distinctFiles (Obj.getOr proof "test_patch_files" (.list []))
  let declaredFiles := declaredJsTestFiles plan.declaredTargets
  if declaredFiles.isEmpty || testFiles.isEmpty ||
      testFiles != verifiedJsTestFiles plan.declaredTargets selectedFiles testPatchFiles ||
      (testFiles == declaredFiles) !=
        (!proof.has "selected_test_files" && !proof.has "test_patch_files") then none
  else some testFiles

/-- The language and repository of a JavaScript proof. -/
def validJavascriptRepo (proof : Obj) : Option Str := do
  let language ← (proof.get "repo_language").asStr
  let repo ← (proof.get "repo").asStr
  if javascriptLanguages.contains language && repo == env.lower repo.strip then some repo else none

/-- A plan whose targets one JavaScript runner reports. -/
def validJavascriptPlan (adapter : Str) (plan : PlanParts) : Except PyErr Bool :=
  match plan.targetBatches, plan.commands, plan.proofs with
  | [batch], [_], [proof] =>
    if batch != plan.declaredTargets || !(proof.get "kind").eqStr "js_parser_backed_targets" ||
        !(proof.get "targets").pyEq (Json.strs plan.declaredTargets) ||
        proof.any (fun entry => !javascriptProofKeys.contains entry.1) then .ok false
    else
      match validJavascriptFiles plan proof, validJavascriptRepo env proof with
      | some testFiles, some repo => do
        let paths := proof.get "candidate_source_paths"
        let bindings := proof.get "candidate_module_bindings"
        if !(paths matches .null) && !(← validCandidateSourcePaths env paths) then return false
        if !(bindings matches .null) && !(← validCandidateModuleBindings env bindings paths) then
          return false
        if !([javascriptRuntimeDependencies adapter, previousJavascriptRuntimeDependencies adapter,
            legacyJavascriptRuntimeDependencies adapter].any
              (Json.pyEqList plan.runtimeDependencies)) then return false
        javascriptCommandsMatch env adapter repo plan proof testFiles
      | _, _ => .ok false
  | _, _, _ => .ok false

/-- A required path that lies at or below the root of its dependency. -/
def validRequiredPath (root : PosixPath) (value : Json) : Bool :=
  match value.asStr with
  | none => false
  | some text =>
    let path := PosixPath.ofStr text
    !path.isAbsolute && !path.parts.contains (lit "..") && (path == root || path.below root)

/-- `PurePosixPath(value or "")`. -/
def pathOrEmpty : Json → Except PyErr PosixPath
  | .str text => .ok (PosixPath.ofStr text)
  | value => if value.truthy then .error .typeError else .ok (PosixPath.ofStr [])

/-- One runtime dependency, in its current or its original shape. -/
def validRuntimeDependency : Json → Except PyErr Bool
  | .dict item =>
    let legacy := Obj.keysAre item ["root", "required_paths"]
    if !legacy && !Obj.keysAre item ["root", "required_paths", "kind", "candidate_protected"] then
      .ok false
    else do
      let root ← pathOrEmpty (Obj.get item "root")
      if root.parts.isEmpty || root.isAbsolute || root.parts.contains (lit "..") then return false
      let some required := (Obj.get item "required_paths").asList | return false
      if required.isEmpty || 16 < required.length then return false
      let kind := if legacy then (lit "directory" : Json) else Obj.get item "kind"
      if !(← kind.inStrSet ["directory", "file"]) then return false
      let candidateProtected := if legacy then .bool true else Obj.get item "candidate_protected"
      return (candidateProtected matches .bool _) && required.all (validRequiredPath root)
  | _ => .ok false

/-- The runtime dependencies of a plan, in order. -/
def validRuntimeDependencyList : List Json → Except PyErr Bool
  | [] => .ok true
  | item :: rest => do
    if ← validRuntimeDependency item then validRuntimeDependencyList rest else return false

/-- The runtime dependencies of a plan. -/
def validRuntimeDependencies (items : List Json) : Except PyErr Bool :=
  if 16 < items.length then .ok false else validRuntimeDependencyList items

/-- A list of nonempty strings. -/
def stringList (value : Json) : Option (List Str) := do
  let items ← value.asList.bind Json.asStrs
  if items.all (!·.isEmpty) then some items else none

/-- The items that a list of nonempty strings has. -/
theorem stringList_eq_some_iff (value : Json) (texts : List Str) :
    stringList value = some texts ↔
      value.asList = some (texts.map .str) ∧ ∀ text ∈ texts, text ≠ [] := by
  rcases hitems : value.asList with _ | items
  · simp [stringList, hitems]
  rcases hstrs : Json.asStrs items with _ | strs
  · have hne : items ≠ texts.map .str := by
      intro h
      rw [(Json.asStrs_eq_some_iff items texts).mpr h] at hstrs
      cases hstrs
    simp [stringList, hitems, hstrs, hne]
  · obtain rfl := (Json.asStrs_eq_some_iff items strs).mp hstrs
    have hinj : strs.map Json.str = texts.map Json.str ↔ strs = texts :=
      List.map_inj_right fun a b h => Json.str.inj h
    simp only [stringList, hitems, hstrs, Option.bind_eq_bind, Option.bind_some,
      Option.ite_none_right_eq_some, Option.some.injEq, hinj]
    constructor
    · rintro ⟨hall, rfl⟩
      exact ⟨rfl, by simpa using hall⟩
    · rintro ⟨rfl, hall⟩
      exact ⟨by simpa using hall, rfl⟩

/-- Batches of targets, none of them empty. -/
def targetBatchList (batches : List Json) : Option (List (List Str)) :=
  batches.mapM fun batch => (stringList batch).filter (!·.isEmpty)

/-- Proofs, none of them empty. -/
def proofList (proofs : List Json) : Option (List Obj) :=
  proofs.mapM fun proof => proof.asDict.filter (!·.isEmpty)

/-- The plan that runs nothing. -/
def emptyPlan : Obj :=
  [("schema", .str planSchema), ("adapter", "unsupported"), ("coverage", "none"),
    ("coverage_verified", .bool false), ("declared_targets", .list []),
    ("target_batches", .list []), ("commands", .list []), ("proofs", .list []),
    ("runtime_dependencies", .list [])]

/-- The parts of a plan whose shape every adapter shares. -/
def planParts (plan : Obj) (commands declared : List Str) (batches proofs deps : List Json) :
    Option PlanParts := do
  let targetBatches ← targetBatchList batches
  let proofs ← proofList proofs
  if !(plan.get "coverage_verified").isTrue || declared.isEmpty || !decide declared.Nodup ||
      commands.length != targetBatches.length || commands.length != proofs.length ||
      targetBatches.flatten != declared then none
  else some ⟨plan.get "coverage", declared, targetBatches, commands, proofs, deps⟩

/-- What the adapter of a plan asks of its parts. -/
def validAdapterPlan (adapter : Str) (plan : PlanParts) : Except PyErr Bool :=
  if adapter = lit "go-test-json" then
    if plan.runtimeDependencies.isEmpty then validExactGoPlan env plan else .ok false
  else if adapter = lit "go-test-json-discovery" then
    if plan.runtimeDependencies.isEmpty then validDynamicGoPlan env plan else .ok false
  else if adapter = lit "pytest" then
    if plan.runtimeDependencies.isEmpty then validPytestPlan env plan else .ok false
  else validJavascriptPlan env adapter plan

/-- The trusted plan kind, or `none` for any malformed plan. -/
def validatedTestPlanKind (plan : Json) (requireCommands : Bool) : Except PyErr (Option Str) :=
  match plan with
  | .dict plan => do
    if !Obj.keysAre plan planKeys || !(Obj.get plan "schema").eqStr planSchema then return none
    let some commands := stringList (Obj.get plan "commands") | return none
    let some declared := stringList (Obj.get plan "declared_targets") | return none
    let some batches := (Obj.get plan "target_batches").asList | return none
    let some proofs := (Obj.get plan "proofs").asList | return none
    let some deps := (Obj.get plan "runtime_dependencies").asList | return none
    if commands.isEmpty then
      return if !requireCommands && (Json.dict plan).pyEq (.dict emptyPlan) then some emptyPlanKind
        else none
    if !(← (Obj.get plan "adapter").inStrSet (adapterCoverage.map (·.1))) then return none
    let some adapter := (Obj.get plan "adapter").asStr | return none
    let some coverage := adapterCoverage.lookup adapter | return none
    if adapter != lit "pytest" && !(Obj.get plan "coverage").eqStr coverage then return none
    let some parts := planParts plan commands declared batches proofs deps | return none
    if !(← validRuntimeDependencies deps) || !commands.all isRunnableTestCommand then return none
    if ← validAdapterPlan env adapter parts then return some adapter else return none
  | _ => .ok none

end Contract

end OpenCollabEval
