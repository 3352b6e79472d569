import OpenCollabEval.Evidence.PytestSession
import OpenCollabEval.Python.Pattern

/-!
# Evidence of a failed pytest collection

When a candidate breaks the import of a test file, pytest collects nothing. The failure is the
candidate's when the log shows it: an import that the fixed test patch added is missing, or a traceback
through a test file ends in the candidate's own files, or a call that the test patch added does not
fit the candidate's function.
-/

open Python

namespace OpenCollabEval

namespace PytestProof

section Patterns

open Pattern

variable (env : Env)

/-- `[A-Za-z_]\w*`. -/
def identifierRe : Pattern :=
  seq (chars fun c => (65 ≤ c && c ≤ 90) || (97 ≤ c && c ≤ 122) || c == 95)
    (star true (chars env.isWord))

/-- `[A-Za-z_]\w*(?:\.[A-Za-z_]\w*)*`. -/
def dottedNameRe : Pattern :=
  seq (identifierRe env) (star true (seq (text ".") (identifierRe env)))

/-- `\s`. -/
def spaceRe : Pattern := chars Str.isSpace

/-- `[0-9]+`. -/
def digitsRe : Pattern := plus (chars Str.isDigit)

/-- `['\"]`. -/
def quoteRe : Pattern := chars fun c => c == 39 || c == 34

/-- `(?:.*?/)?`. -/
def leadingPathRe : Pattern := opt (seq (star false dot) (text "/"))

/-- A module that the log reports as missing. -/
def missingModuleRe : Pattern :=
  concat [lineStart, text "E", plus spaceRe, alt (text "ImportError") (text "ModuleNotFoundError"),
    text ":", plus spaceRe, text "No module named ", quoteRe,
    group 1 (plus (chars fun c => c != 39 && c != 34)), quoteRe, star true spaceRe, lineEnd]

/-- The import of a missing module, shown under the frame of a test file. -/
def importFrameRe (targetFile missing : Str) : Pattern :=
  concat [lineStart, leadingPathRe, lit targetFile, text ":", digitsRe, text ": in <module>",
    text "\n", star true spaceRe,
    alt (concat [text "from", plus spaceRe, lit missing, plus spaceRe, text "import",
        wordEdge env.isWord])
      (concat [text "import", plus spaceRe, lit missing, alt spaceRe lineEnd])]

/-- A module that lacks what is imported from it or read of it. -/
def brokenModuleRe : Pattern :=
  concat [lineStart, text "E", plus spaceRe,
    alt (concat [text "AttributeError:", plus spaceRe, opt (text "partially initialized "),
        text "module"])
      (concat [text "ImportError:", plus spaceRe, text "cannot import name ",
        seq dot (star false dot), text " from", opt (text " partially initialized module")]),
    plus spaceRe, quoteRe, group 1 (dottedNameRe env), quoteRe]

/-- `path:line`, as pytest shows a frame. -/
def colonFrameRe (path : Str) : Pattern :=
  concat [lineStart, leadingPathRe, lit path, text ":", digitsRe, alt (text ":") lineEnd]

/-- `File "path", line n`, as the interpreter shows a frame. -/
def fileFrameRe (path : Str) : Pattern :=
  concat [lineStart, star true spaceRe, opt (seq (text "E") (plus spaceRe)), text "File ", quoteRe,
    leadingPathRe, lit path, quoteRe, text ", line ", digitsRe, alt (text ",") lineEnd]

/-- The name of an exception at the start of a line. -/
def semanticExceptionRe : Pattern :=
  concat [lineStart, opt (seq (text "E") (plus spaceRe)),
    star true (seq (identifierRe env) (text ".")), identifierRe env,
    alt (text "Error") (text "Exception"), alt (text ":") lineEnd]

/-- A frame in a `conftest.py` under a test directory. -/
def bootstrapFrameRe : Pattern :=
  concat [lineStart, leadingPathRe, alt (text "test") (text "tests"),
    star true (seq (text "/") (plus (chars fun c => c != 47 && c != 58))), text "/conftest.py:",
    digitsRe, alt (text ":") lineEnd]

/-- A `TypeError` in a line of a test file. Group 1 is the file, group 2 the line, group 3 the message. -/
def callFrameRe (targetFiles : List Str) : Pattern :=
  concat [lineStart, leadingPathRe, group 1 (oneOf (targetFiles.map lit)), text ":", digitsRe,
    text ": in ", plus dot, text "\n", group 2 (seq (plus spaceRe) (plus dot)), text "\n",
    text "E", plus spaceRe, text "TypeError:", plus spaceRe, group 3 (plus dot), lineEnd]

/-- A call that does not fit the called function. Group 1 is the function. -/
def callBindingTypeErrorRe (decimal : Nat → Option Nat) : Pattern :=
  concat [group 1 (alt (text "__init__") (dottedNameRe env)), text "() ",
    oneOf [
      concat [text "missing ", plus (chars fun c => (decimal c).isSome),
        text " required positional argument", opt (text "s")],
      text "got an unexpected keyword argument",
      text "got multiple values for argument",
      concat [text "takes ", seq dot (star false dot), text " positional argument", opt (text "s"),
        text " but ", seq dot (star false dot), text " ", alt (text "was") (text "were"),
        text " given"]]]

end Patterns

section Imports

variable (env : Env)

/-- Directories whose files are tests. -/
def pythonTestRoots : List Str := ["spec", "specs", "test", "tests"]

/-- Directories that hold the packages of a repository. -/
def pythonSourceLayoutRoots : List Str :=
  ["application", "applications", "apps", "lib", "package", "packages", "src"]

/-- `[a-z_][a-z0-9_]*`, matched in full. -/
def isModuleRoot (s : Str) : Bool :=
  s.head?.any (fun c => (97 ≤ c && c ≤ 122) || c == 95) &&
    s.all fun c => (97 ≤ c && c ≤ 122) || Str.isDigit c || c == 95

/-- `part.replace("-", "_").lower()`. -/
def moduleSlug (part : Str) : Str := env.lower (Str.replaceChar 45 "_" part)

/-- `_python_repo_module_roots(repo, target_file)`. -/
def pythonRepoModuleRoots (repo : Json) (targetFile : Str) : List Str :=
  let slug := moduleSlug env ((Str.splitChar 47 (env.strOrEmpty repo)).getLastD [])
  let parts := (PosixPath.ofStr targetFile).parts.dropLast.map (moduleSlug env)
  let candidate :=
    match parts with
    | [] => []
    | first :: rest =>
      if pythonTestRoots.contains first then []
      else if pythonSourceLayoutRoots.contains first && !rest.isEmpty then rest.headD []
      else first
  [slug, candidate].filter isModuleRoot

/-- `_python_module_is_repo_local(module, repo, target_file)`. -/
def pythonModuleIsRepoLocal (module : Str) (repo : Json) (targetFile : Str) : Bool :=
  (Str.splitChar 46 module).all (isIdentifierText env) &&
    (pythonRepoModuleRoots env repo targetFile).contains (env.lower (module.before "."))

/-- The modules of an import binding: local to the repository and not too long. -/
def boundModules (repo : Json) (path : Str) : List Json → Except PyErr (Option (List Str))
  | [] => .ok (some [])
  | .str module :: rest => do
    if 4096 < (← module.encode).length || !pythonModuleIsRepoLocal env module repo path then
      return none
    return (← boundModules repo path rest).map (module :: ·)
  | _ :: _ => .ok none

/-- `str(binding.get("test_file") or "").replace("\\", "/").removeprefix("./")`. -/
def bindingPath (binding : Obj) : Str :=
  (Str.replaceChar 92 "/" (env.strOrEmpty (binding.get "test_file"))).removePrefix "./"

/-- The modules of the one binding of a target file among the remaining bindings. `none` when a binding
is malformed. -/
def matchedModules (repo : Json) (targetFile : Str) (matched : List Str) :
    List Json → Except PyErr (Option (List Str))
  | [] => .ok (some matched)
  | .dict binding :: rest =>
    let path := bindingPath env binding
    if path != targetFile && !path.endsWith (lit "/" ++ targetFile) then
      matchedModules repo targetFile matched rest
    else
      match (Obj.get binding "modules").asList with
      | none => .ok none
      | some modules =>
        if !matched.isEmpty || modules.isEmpty || 128 < modules.length then .ok none
        else do
          if !(← Json.setIsFaithful modules) then return none
          let some modules ← boundModules env repo path modules | return none
          matchedModules repo targetFile modules rest
  | _ :: _ => .ok none

/-- `_pytest_bound_import_failure_matches(target_file, target_imports, repo, log_text)`. -/
def boundImportFailureMatches (targetFile : Str) (targetImports repo : Json) (logText : Str) :
    Except PyErr Bool := do
  let some bindings := targetImports.asList | return false
  if bindings.isEmpty || 64 < bindings.length then return false
  let some modules ← matchedModules env repo targetFile [] bindings | return false
  match dedupKeys ((missingModuleRe.finditer logText).map (·.group 1)) with
  | [missing] =>
    return modules.contains missing && (importFrameRe env targetFile missing).search logText
  | _ => return false

end Imports

section Candidate

variable (env : Env)

/-- `_pytest_candidate_module_failure_matches(log_text, candidate_source_paths)`. -/
def candidateModuleFailureMatches (logText : Str) (candidateSourcePaths : List Str) : Bool :=
  match dedupKeys (((brokenModuleRe env).finditer logText).map (·.group 1)) with
  | [module] =>
    let stem := Str.replaceChar 46 "/" module
    let base := [stem ++ lit ".py", stem ++ lit "/__init__.py"]
    let expected := base ++ pythonSourceLayoutRoots.flatMap fun root =>
      base.map fun path => root ++ lit "/" ++ path
    candidateSourcePaths.any expected.contains
  | _ => false

/-- A call site that the fixed test patch added, with the calls of its line. -/
structure Callsite where
  testFile : Str
  source : Str
  candidateAlias : Str
  calls : List (Option (Str × Str))

/-- The names of the methods of a call site. A name that is no text cannot be matched. -/
def methodNames : List Json → Except PyErr (Option (List Str))
  | [] => .ok (some [])
  | .str method :: rest =>
    if !isIdentifierText env method then .ok none
    else do return (← methodNames rest).map (method :: ·)
  | _ :: _ => .error .typeError

/-- One call site of the list, `none` when it is malformed. -/
def readCallsite (targetFiles paths : List Str) (binding : Obj) :
    Except PyErr (Option Callsite) := do
  if !Obj.keysAre binding ["test_file", "source", "candidate_alias", "methods"] then return none
  if !(Obj.get binding "test_file").elem (targetFiles.map .str) then return none
  let some source := (Obj.get binding "source").asStr | return none
  if source.isEmpty || source != source.strip then return none
  if 4096 < (← source.encode).length then return none
  if !(← (Obj.get binding "candidate_alias").inStrSet
      ((paths.map pythonAlias).filter (aliasCount paths · == 1))) then return none
  let some name := (Obj.get binding "candidate_alias").asStr | return none
  let some items := (Obj.get binding "methods").asList | return none
  if items.isEmpty then return none
  if !(← Json.setIsFaithful items) then return none
  let some methods ← methodNames env items | return none
  let some calls := env.callFunctions source | return none
  if !callsBind paths name methods (namedCalls calls) then return none
  let some testFile := (Obj.get binding "test_file").asStr | return none
  return some ⟨testFile, source, name, calls⟩

/-- All call sites of the list. -/
def readCallsites (targetFiles paths : List Str) : List Json → Except PyErr (Option (List Callsite))
  | [] => .ok (some [])
  | .dict binding :: rest => do
    let some callsite ← readCallsite env targetFiles paths binding | return none
    return (← readCallsites targetFiles paths rest).map (callsite :: ·)
  | _ :: _ => .ok none

/-- The called function belongs to the candidate: each call of the line is made through its alias. -/
def callsiteBound (callableParts : List Str) (callsite : Callsite) : Bool :=
  let calls := namedCalls callsite.calls
  let callableName := callableParts.getLastD []
  if callsite.calls.isEmpty || callsite.calls.any (·.isNone) then false
  else if callableName == lit "__init__" && callableParts.length == 1 then
    calls.all (·.1 == callsite.candidateAlias)
  else
    let expectedMethod :=
      if callableName == lit "__init__" then callableParts.dropLast.getLastD [] else callableName
    calls.filter (·.2 == expectedMethod) == [(callsite.candidateAlias, expectedMethod)]

/-- The call sites that one frame of the log points at. -/
def frameCallsites (decimal : Nat → Option Nat) (callsites : List Callsite) (frame : Cursor) :
    List Callsite :=
  match (callBindingTypeErrorRe env decimal).matchStart (frame.group 3).strip with
  | none => []
  | some error =>
    callsites.filter fun callsite =>
      callsite.testFile == frame.group 1 && callsite.source == (frame.group 2).strip &&
        callsiteBound (Str.splitChar 46 (error.group 1)) callsite

/-- `pytest_candidate_callsite_failure_matches(…)`. -/
def candidateCallsiteFailureMatches (decimal : Nat → Option Nat) (targetFiles : List Str)
    (logText : Str) (paths : List Str) (candidateTestCallsites : Json) : Except PyErr Bool :=
  if !(paths.map pythonAlias).all (isIdentifierText env) ||
      !paths.any (fun path => aliasCount paths (pythonAlias path) == 1) ||
      !candidateTestCallsites.truthy then .ok false
  else
    match candidateTestCallsites with
    | .list bindings => do
      let some callsites ← readCallsites env targetFiles paths bindings | return false
      let files := targetFiles.mergeSort (fun a b => decide (b.length ≤ a.length))
      return ((callFrameRe files).finditer logText).any fun frame =>
        (frameCallsites env decimal callsites frame).length == 1
    -- the items of a text or of an object are texts
    | .str _ | .dict _ => .ok false
    | _ => .error .typeError

/-- The source paths of the candidate, when they may be blamed. -/
def readCandidatePaths (value : Json) : Except PyErr (Option (List Str)) :=
  match value.asList with
  | none => .ok none
  | some items =>
    if items.isEmpty || 1024 < items.length then .ok none
    else do
      if !(← Json.setIsFaithful items) then return none
      if 128 * 1024 < (← byteCount (items.map env.str)) then return none
      let some paths := Json.asStrs items | return none
      let blamable := fun path : Str =>
        path.endsWith ".py" && !(PosixPath.ofStr path).isAbsolute &&
          !(PosixPath.ofStr path).parts.contains (lit "..") && !path.any (· == 0) &&
          !isEvalTestPath env path
      return if paths.all blamable then some paths else none

/-- A frame of the log in a file. -/
def tracebackHas (logText path : Str) : Bool :=
  (colonFrameRe path).search logText || (fileFrameRe path).search logText

/-- The files of the targets, each where it occurs first. -/
def collectionTargetFiles (targets : List Str) : Option (List Str) :=
  let files := targets.map pytestTargetFile
  let valid := fun path : Str =>
    path.endsWith ".py" && !(PosixPath.ofStr path).isAbsolute &&
      !(PosixPath.ofStr path).parts.contains (lit "..") && !path.any (· == 0)
  if files.all valid && !files.isEmpty then some (files.foldl appendFresh []) else none

/-- The log shows that the candidate's own files broke the collection. -/
def candidateBrokeCollection (decimal : Nat → Option Nat) (targetFiles : List Str) (logText : Str)
    (paths : List Str) (candidateTestCallsites : Json) : Except PyErr Bool := do
  let targetTraceback := targetFiles.any (tracebackHas logText)
  let semanticException := (semanticExceptionRe env).search logText
  let candidateTraceback := paths.any (tracebackHas logText)
  let candidateModuleFailure :=
    targetFiles.length == 1 && candidateModuleFailureMatches env logText paths
  let bootstrapTraceback := bootstrapFrameRe.search logText
  let callsiteFailure ←
    candidateCallsiteFailureMatches env decimal targetFiles logText paths candidateTestCallsites
  return ((targetTraceback || bootstrapTraceback) &&
      ((semanticException && candidateTraceback) || candidateModuleFailure)) ||
    (targetTraceback && callsiteFailure)

/-- What a plan binds of the candidate for a failed collection. -/
structure CandidateBinding where
  candidateSourcePaths : Json
  candidateTestCallsites : Json
  targetImports : Json
  repo : Json

/-- The log shows that an import of the only target file is missing. -/
def importFailureShown (targetFiles : List Str) (logText : Str) (binding : CandidateBinding) :
    Except PyErr Bool :=
  match targetFiles with
  | [targetFile] =>
    boundImportFailureMatches env targetFile binding.targetImports binding.repo logText
  | _ => .ok false

/-- The part of the proof that reads the log. -/
def collectionFailureShown (decimal : Nat → Option Nat) (targets : List Str) (logText : Str)
    (binding : CandidateBinding) : Except PyErr Bool := do
  let some targetFiles := collectionTargetFiles targets | return false
  if ← importFailureShown env targetFiles logText binding then return true
  let some paths ← readCandidatePaths env binding.candidateSourcePaths | return false
  candidateBrokeCollection env decimal targetFiles logText paths binding.candidateTestCallsites

/-- The stream of a session that collected nothing and failed. -/
def emptyCollection (events : List Json) (commandSha256 : Json) : Bool :=
  match events.mapM Json.asDict with
  | some [start, collection, finish] =>
    controllerProofMatches env.toRuntime [start, collection, finish] commandSha256 &&
      isEvent "session_start" start && isEvent "collection_finish" collection &&
      isEvent "session_finish" finish && (collection.get "nodeids").pyEq (.list []) &&
      (finish.get "exitstatus").asInt.any (· != 0)
  | _ => false

/-- `_pytest_collection_failure_proof_matches(…)`. -/
def collectionFailureProofMatches (depth : Nat) (decimal : Nat → Option Nat) (targets : List Str)
    (proofText logText : Str) (expectedCommand observedCommand : Json) (binding : CandidateBinding)
    (commandSha256 : Json) : Except PyErr Bool := do
  if !expectedCommand.truthy || !expectedCommand.pyEq observedCommand then return false
  let some events ← proofEvents depth proofText | return false
  if !emptyCollection env events commandSha256 then return false
  collectionFailureShown env decimal targets logText binding

end Candidate

end PytestProof

end OpenCollabEval
