import OpenCollabEval.Env
import OpenCollabEval.Python.JsonText
import OpenCollabEval.Python.Path
import OpenCollabEval.Python.Shlex
import OpenCollabEval.Contract.Launchers

/-!
# Test commands

The shell commands of a test plan, built from declared targets: one Go discovery program, Jest and
Mocha runners for each file group, and the instrumented Tutanota run.
-/

open Python

namespace OpenCollabEval

/-- The text before ` | ` of a declared target. -/
def targetHead (target : Str) : Str := target.before " | "

/-- `list(dict.fromkeys(items))`. -/
def dedupKeys (items : List Str) : List Str := items.eraseDups

/-- `re.escape(s)`. -/
def reEscape (s : Str) : Str :=
  s.flatMap fun c =>
    if c ∈ lit "()[]\x7b\x7d?*+-|^$\\.&~# \t\n\r" || c == 11 || c == 12 then [92, c] else [c]

/-- `json.dumps` of a list of strings with its default separators. -/
def dumpStrList (separator : Str) (items : List Str) : Str :=
  lit "[" ++ Str.join separator (items.map dumpStr) ++ lit "]"

section Commands

variable (env : Env)

/-- `python3 -I -c` with a quoted program. -/
def isolatedPython (program : Str) : Str := lit "python3 -I -c " ++ Shlex.quote program

/-- The command that discovers the packages of declared Go tests and runs each of them. -/
def goTestCommand (tests : List Str) : Str :=
  let declared := dedupKeys (tests.filter (!·.isEmpty))
  isolatedPython (goDiscoveryHead ++ env.reprStr (dumpStrList ", " declared) ++ goDiscoveryTail)

/-- `repr` of a list of strings. -/
def reprStrList (items : List Str) : Str := env.repr (Json.strs items)

/-- The command that instruments a Tutanota suite and runs the script its package offers. -/
def tutanotaTestCommand (tests : List Str) : Str :=
  let patcher := lit "import re,json\nfrom pathlib import Path\n" ++ env.tutanotaPatcherSource ++
    ospecPatcherHead ++ reprStrList env tests ++ ospecPatcherTail
  let scripts := lit "const scripts=require(\"./package.json\").scripts||\x7b\x7d; "
  let legacyScript := lit "node -e " ++
    Shlex.quote (scripts ++ lit "process.exit(scripts[\"test:app\"] ? 0 : 1)")
  let splitScript := lit "node -e " ++
    Shlex.quote (scripts ++ lit "process.exit(scripts.testapi&&scripts.testclient ? 0 : 1)")
  isolatedPython patcher ++ lit " &&\n" ++ Str.join "\n" [
    lit "if " ++ legacyScript ++ lit "; then",
    "  npm_config_nodedir=/usr/local npm run test:app",
    lit "elif " ++ splitScript ++ lit "; then",
    "  npm_config_nodedir=/usr/local npm test",
    "else",
    "  echo \"unsupported Tutanota test scripts\" >&2",
    "  exit 127",
    "fi"]

/-- The words of an argument text, each quoted again. -/
def quotedWords (value : Str) : Except PyErr (List Str) :=
  if value.isEmpty then .ok [] else do return (← Shlex.split value).map Shlex.quote

/-- Run a JavaScript test binary through the first launcher that the container offers. -/
def jsRunnerCommand (binary packageScript target extraArgs : Str) : Except PyErr Str := do
  let localBinary := lit "./node_modules/.bin/" ++ binary
  let argumentWords := (← quotedWords extraArgs) ++ (← quotedWords target)
  let words := Str.join " " argumentWords
  let argumentPart := if argumentWords.isEmpty then [] else lit " " ++ words
  let pnpmArgs := if argumentWords.isEmpty then [] else lit " -- " ++ words
  let packageScript := Shlex.quote packageScript
  return Str.join "\n" [
    lit "if [ -x " ++ Shlex.quote localBinary ++ lit " ]; then",
    lit "  " ++ Shlex.quote localBinary ++ argumentPart,
    "elif command -v yarn >/dev/null 2>&1; then",
    lit "  yarn " ++ packageScript ++ argumentPart,
    "elif command -v npx >/dev/null 2>&1; then",
    lit "  npx " ++ Shlex.quote binary ++ argumentPart,
    "elif command -v pnpm >/dev/null 2>&1; then",
    lit "  pnpm " ++ packageScript ++ pnpmArgs,
    "elif command -v corepack >/dev/null 2>&1; then",
    lit "  corepack pnpm " ++ packageScript ++ pnpmArgs,
    "else",
    lit "  echo 'No supported JS test runner found for " ++ binary ++ lit "' >&2",
    "  exit 127",
    "fi"]

/-- The test files that targets name, none when one of them names no file. -/
def declaredJsTestFiles (tests : List Str) : List Str :=
  let files := tests.map fun item => (targetHead item).strip
  if files.any (·.isEmpty) then [] else dedupKeys files

/-- A path that stays below the directory it is read in. -/
def isContainedPath (path : Str) : Bool :=
  let relative := PosixPath.ofStr path
  !relative.isAbsolute && !relative.parts.contains (lit "..")

/-- The file that a declared suite resolves to: a selected file that ends in its path when the test
patch changes that file, else the declared path itself. -/
def resolveJsTestFile (selected patched : List Str) (testFile : Str) : Option Str :=
  if !isContainedPath testFile then none
  else
    let aliases := selected.filter (·.endsWith (lit "/" ++ testFile))
    if 1 < aliases.length then none
    else
      let candidate := match aliases.head? with
        | some path =>
          if patched.contains path then some path
          else if selected.contains testFile then some testFile else none
        | none => some testFile
      candidate.filter isContainedPath

/-- Resolve declared JavaScript suites through an unambiguous dataset file mapping. -/
def verifiedJsTestFiles (tests selected testPatchFiles : List Str) : List Str :=
  let selected := dedupKeys (selected.filter (!·.isEmpty))
  let patched := testPatchFiles.filter (!·.isEmpty)
  ((declaredJsTestFiles tests).mapM (resolveJsTestFile selected patched)).getD []

/-- The workspace of a monorepo that holds a test file. -/
def jsWorkspaceRoot (testFile : Str) : Str :=
  match (PosixPath.ofStr testFile).parts with
  | first :: second :: _ :: _ =>
    if first == lit "applications" || first == lit "packages" then Str.join "/" [first, second]
    else []
  | _ => []

/-- Group items by a key, keys in the order of their first item. -/
def groupByKey (key : Str → Str) (items : List Str) : List (Str × List Str) :=
  (dedupKeys (items.map key)).map fun k => (k, items.filter (key · == k))

/-- Run the test files of each workspace under its own configuration. -/
def jestTestCommand (testFiles : List Str) : Except PyErr Str := do
  let commands ← (groupByKey jsWorkspaceRoot testFiles).mapM fun (workspace, files) =>
    let target := Str.join " " (files.map Shlex.quote)
    let options := lit "--json --coverage=false --runInBand --verbose --runTestsByPath"
    let extraArgs :=
      if workspace.isEmpty then options
      else lit "--config " ++ Shlex.quote (workspace ++ lit "/jest.config.js") ++ lit " " ++ options
    jsRunnerCommand "jest" "test" target extraArgs
  return Str.join " &&\n" commands

/-- The length of an imported-suite marker `test/….js::` at the start of a text. -/
def importedSuiteMarker (s : Str) : Option Nat :=
  if s.startsWith "test/" then
    let name := (s.drop 5).takeWhile fun c => !(Str.isSpace c || c == 58)
    let rest := s.drop (5 + name.length)
    if 3 < name.length && Str.endsWith name ".js" && Str.startsWith rest "::"
      then some (7 + name.length) else none
  else none

/-- Remove the imported-suite markers that follow a blank or start the text. `skip` code points of
the marker just found remain to be dropped. -/
def dropImportedSuites : Bool → Nat → Str → Str
  | _, _, [] => []
  | _, skip + 1, _ :: cs => dropImportedSuites false skip cs
  | atStart, 0, c :: cs =>
    match if atStart then importedSuiteMarker (c :: cs) else none with
    | some length => dropImportedSuites false (length - 1) cs
    | none => c :: dropImportedSuites (Str.isSpace c) 0 cs

/-- The title by which Mocha selects a NodeBB test. -/
def nodebbMochaSelectorTitle (title : Str) : Str := dropImportedSuites true 0 title

/-- The blank-separated words of a text. -/
def splitBlank (s : Str) : List Str :=
  (s.splitOnP Str.isSpace).filter (!·.isEmpty)

/-- The title that Mocha reports for a NodeBB test. -/
def nodebbMochaRuntimeTitle (title : Str) : Str :=
  Str.join " " (splitBlank (nodebbMochaSelectorTitle title))

/-- The file and title of a target that has a title. -/
def targetFileTitle (target : Str) : Option (Str × Str) :=
  match target.splitOnce " | " with
  | (file, some title) => some (file, title)
  | (_, none) => none

/-- No two declared titles are the same once normalized, and none is empty. -/
def nodebbMochaTitlesAreUnambiguous (tests : List Str) (allowCrossFileDuplicates : Bool) : Bool :=
  let pairs := (tests.filterMap targetFileTitle).map fun (file, title) =>
    (file, nodebbMochaRuntimeTitle title)
  pairs.all (fun pair => !pair.2.isEmpty) &&
    if allowCrossFileDuplicates then decide pairs.Nodup else decide (pairs.map (·.2)).Nodup

/-- The pattern of an imported-suite marker, as it stands in the launcher. -/
def importedSuitePattern : Str := "'(?<!\\\\S)test/[^\\\\s:]+\\\\.js::'"

/-- The command that runs the targets of a file which the launcher checks against their digest. -/
def nodebbMochaTargetFileCommand (tests : List Str) (targetFile : Str) : Str :=
  let digest := env.sha256 (dumpStrList "," tests).encodeSurrogatePass
  isolatedPython (mochaLauncherHead ++ env.reprStr digest ++ mochaLauncherMiddle ++
    importedSuitePattern ++ mochaLauncherTail) ++ lit " " ++ Shlex.quote targetFile

/-- The longest candidate, the first of several. -/
def longestMatch (candidates : List Str) (fallback : Str) : Str :=
  match candidates with
  | [] => fallback
  | first :: rest => rest.foldl (fun best c => if best.length < c.length then c else best) first

/-- The file of a list that a declared path names. -/
def resolveAmong (files : List Str) (declared : Str) : Str :=
  longestMatch (files.filter fun c => c == declared || c.endsWith (lit "/" ++ declared)) declared

/-- The files that targets name, resolved among the selected ones; all selected files when no target
looks like a path. -/
def canonicalJsTestFiles (tests selected : List Str) : List Str :=
  let selected := selected.filter (!·.isEmpty)
  let named := (tests.filter fun item =>
    !item.isEmpty && (item.contains "/" || item.contains ".")).map targetHead
  dedupKeys ((if named.isEmpty then selected else named).map (resolveAmong selected))

/-- The Mocha command of one file, which selects the titles declared for it. -/
def mochaFileCommand (requested : List (Str × Str)) (testFile : Str) : Except PyErr Str :=
  let titles := (requested.filter (·.1 == testFile)).map (·.2)
  let options := lit "--timeout 30000 --reporter json-stream"
  if titles.isEmpty then jsRunnerCommand "mocha" "test" (Shlex.quote testFile) options
  else
    let selector := lit "^(?:" ++ Str.join "|" (titles.map reEscape) ++ lit ")$"
    jsRunnerCommand "mocha" "test" (Shlex.quote testFile)
      (options ++ lit " --grep " ++ Shlex.quote selector)

/-- The Mocha command of a NodeBB plan, empty when the declared titles are ambiguous. -/
def mochaTestCommand (tests selected : List Str) (targetFile : Str) : Except PyErr Str :=
  if !nodebbMochaTitlesAreUnambiguous tests (!targetFile.isEmpty) then .ok []
  else if !targetFile.isEmpty then .ok (nodebbMochaTargetFileCommand env tests targetFile)
  else do
    let files := canonicalJsTestFiles tests selected
    let requested := (tests.filterMap targetFileTitle).map fun (file, title) =>
      (resolveAmong files file, nodebbMochaSelectorTitle title)
    return Str.join " &&\n" (← files.mapM (mochaFileCommand requested))

end Commands

end OpenCollabEval
