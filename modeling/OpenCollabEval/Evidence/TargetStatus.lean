import OpenCollabEval.Evaluation.RuntimeDependencies
import OpenCollabEval.Python.Conversion
import OpenCollabEval.Python.JsonLoads
import OpenCollabEval.Python.Lines
import OpenCollabEval.Python.Pattern

/-!
# The status of declared targets in a log

`fail_to_pass_execution_proof` reads which declared targets a log shows as passed and as failed. The
language of the repository selects the reader: Go events, ospec results, the results of Jest and Mocha,
the lines of pytest, and, for any other language, the plain text together with the exit status.
-/

open Python

namespace OpenCollabEval

namespace TargetProof

/-- `s.split(sep)`, for at most so many separators. -/
def splitTimes (sep : Str) : Nat → Str → List Str
  | 0, s => [s]
  | count + 1, s =>
    match s.splitOnce sep with
    | (piece, some rest) => piece :: splitTimes sep count rest
    | (piece, none) => [piece]

/-- `s.split(sep)` for a separator of at least one code point. -/
def splitStr (s sep : Str) : List Str := splitTimes sep s.length s

/-- `" ".join(s.split())`. -/
def collapse (s : Str) : Str := Str.join " " (splitBlank s)

/-- `s.rsplit("/", 1)[-1]`. -/
def lastComponent (s : Str) : Str := s.rtakeWhile (· != 47)

/-- `s.rsplit(".", 1)[0]`. -/
def withoutSuffix (s : Str) : Str :=
  if s.elem 46 then s.take (s.length - (s.rtakeWhile (· != 46)).length - 1) else s

/-- `item.split(" | ", 1)[0]`. -/
def targetFile (item : Str) : Str := item.before " | "

/-- `[part.strip() for part in item.split(" | ")[1:] if part.strip()]`. -/
def titleParts (item : Str) : List Str :=
  ((splitStr item " | ").tail.map Str.strip).filter fun part => !part.isEmpty

/-- The targets that a reader has observed, passed and failed. -/
structure Statuses where
  observed : List Str := []
  passed : List Str := []
  failed : List Str := []

/-- What is known of the targets of a command. -/
structure Proof where
  required : Bool
  ok : Bool
  exitStatus : Int
  expected : List Str
  observed : List Str
  missing : List Str
  passed : List Str
  failed : List Str
  notPassed : List Str

section Patterns

open Pattern

/-- `ANSI_ESCAPE_RE`. -/
def ansiEscape : Pattern :=
  concat [text "\x1b[", star true (chars fun c => 48 ≤ c && c ≤ 63),
    star true (chars fun c => 32 ≤ c && c ≤ 47), chars fun c => 64 ≤ c && c ≤ 126]

/-- A run of digits, for the class `\d`. -/
def decimals (isDecimal : Nat → Bool) : Pattern := plus (chars isDecimal)

/-- `\s*`. -/
def optionalSpaces : Pattern := star true (chars Str.isSpace)

/-- `^[…]\s+(.+?)(?:\s+\(\d+(?:\.\d+)?\s*ms\))?$` on a line, for two marks. -/
def markedTitle (isDecimal : Nat → Bool) (first second : Nat) : Pattern :=
  concat [chars fun c => c == first || c == second, plus (chars Str.isSpace),
    group 1 (seq dot (star false dot)),
    opt (concat [plus (chars Str.isSpace), text "(", decimals isDecimal,
      opt (seq (text ".") (decimals isDecimal)), optionalSpaces, text "ms)"]),
    endOfText]

/-- `^●\s+(.+)$`. -/
def bulletTitle : Pattern :=
  concat [chars (· == 0x25CF), plus (chars Str.isSpace), group 1 (plus dot), endOfText]

/-- `\s*[›>]\s*`. -/
def titleArrow : Pattern :=
  concat [optionalSpaces, chars fun c => c == 0x203A || c == 62, optionalSpaces]

/-- `(?:^|\s|\|)test_([1-9][0-9]*)$`. -/
def ordinal : Pattern :=
  concat [oneOf [startOfText, chars Str.isSpace, text "|"], text "test_",
    group 1 (seq (chars fun c => 49 ≤ c && c ≤ 57) (star true (chars Str.isDigit))), endOfText]

/-- `^(.+?::.+?)\s+(PASSED|FAILED|ERROR|SKIPPED|XFAIL|XPASS)(?:\s+\[|\s*$)`. -/
def pytestLine : Pattern :=
  concat [group 1 (concat [dot, star false dot, text "::", dot, star false dot]),
    plus (chars Str.isSpace),
    group 2 (oneOf [text "PASSED", text "FAILED", text "ERROR", text "SKIPPED", text "XFAIL",
      text "XPASS"]),
    alt (seq (plus (chars Str.isSpace)) (text "[")) (seq optionalSpaces endOfText)]

end Patterns

/-- `json.loads`, with a value error as no value. -/
def loadsOrSkip (depth : Nat) (text : Str) : Except PyErr (Option Json) :=
  match loads depth text with
  | .ok v => .ok (some v)
  | .error .jsonDecodeError | .error .valueError => .ok none
  | .error err => .error err

/-- `x or ""`. -/
def orEmpty (v : Json) : Json := if v.truthy then v else .str []

section Readers

variable (rt : Runtime) (depth : Nat)

/-! ## Go events -/

/-- The names of the tests of the events with an action. -/
def namesOf (action : String) (events : List Obj) : List Str :=
  (events.filter fun event => (event.get "Action").eqStr (lit action)).map fun event =>
    rt.strOrEmpty (event.get "Test")

/-- The events of a Go log that name a test. -/
def goEvents : List Str → Except PyErr (List Obj)
  | [] => .ok []
  | line :: rest => do
    match ← loadsOrSkip depth line with
    | none => goEvents rest
    | some (.dict event) => do
      let found ← goEvents rest
      return if (rt.strOrEmpty (Obj.get event "Test")).isEmpty then found else event :: found
    | some _ => .error .attributeError

/-- The statuses of a Go log. -/
def goStatuses (text : Str) : Except PyErr Statuses := do
  let events ← goEvents rt depth text.splitlines
  let passed := namesOf rt "pass" events
  let failed := namesOf rt "fail" events
  return {
    observed := sortedSet (namesOf rt "run" events ++ passed ++ failed)
    passed := sortedSet passed
    failed := sortedSet failed }

/-! ## Results of ospec -/

/-- The results that a line reports. -/
def ospecResults (expected : List Str) (line : Str) : Except PyErr (List Obj) :=
  match (line.splitOnce "OPENCOLLAB_OSPEC_RESULTS ").2 with
  | none => .ok []
  | some payload => do
    match ← loadsOrSkip depth payload.strip with
    | some (.list items) => return items.filterMap Json.asDict
    | some (.dict parsed) =>
      if (Obj.get parsed "targets").pyEq (.strs expected) then
        return ((Obj.get parsed "results").asList.getD []).filterMap Json.asDict
      else return []
    | _ => return []

/-- A result names a file or a suite. -/
def ospecNames (fileName suiteName : Str) (result : Obj) : Bool :=
  let sourceName := withoutSuffix (lastComponent (rt.strOrEmpty (result.get "source")))
  let isNamed := fun name : Str => name == fileName || name == suiteName
  let contextParts := match result.get "context" with
    | .list parts => parts.map rt.str
    | context => splitStr (rt.strOrEmpty context) " > "
  sourceName == fileName || isNamed (rt.strOrEmpty (result.get "task")) ||
    contextParts.any fun part => isNamed part.strip

/-- The results that belong to a target: one by its ordinal, or those of its file. -/
def ospecMatching (results : List Obj) (item : Str) : Except PyErr (List Obj) :=
  match (ordinal.finditer item).head? with
  | some found =>
    let digits := found.group 1
    -- `int` refuses a longer text
    if maxIntText < digits.length then .error .valueError
    else
      let number := Nat.ofDigits 10 (digits.map (· - 48)).reverse
      return (results[number - 1]?).toList
  | none =>
    let fileName := withoutSuffix (lastComponent (targetFile item))
    let suiteName := if fileName.endsWith "Test" then fileName.take (fileName.length - 4) else fileName
    return results.filter (ospecNames rt fileName suiteName)

/-- The statuses of a run of ospec. -/
def ospecStatuses (expected : List Str) (text : Str) : Except PyErr Statuses := do
  let results := (← text.splitlines.mapM (ospecResults depth expected)).flatten
  let matching ← expected.mapM (ospecMatching rt results)
  let observed := (expected.zip matching).filter fun found => !found.2.isEmpty
  let passes := fun found : Str × List Obj => found.2.all fun result => (result.get "pass").isTrue
  return {
    observed := observed.map Prod.fst
    passed := (observed.filter passes).map Prod.fst
    failed := (observed.filter fun found => !passes found).map Prod.fst }

/-! ## Results of Jest and Mocha -/

/-- `"nodebb/nodebb"`. -/
def nodebbRepo : Str := "nodebb/nodebb"

/-- The title of a target. -/
def expectedTitle (nodebb : Bool) (item : Str) : Str :=
  let title := if item.contains " | " then Str.join " " (titleParts item) else item
  if nodebb then nodebbMochaRuntimeTitle title else title

/-- The parts of the title of a target. -/
def expectedTitleParts (nodebb : Bool) (item : Str) : List Str :=
  if nodebb then [expectedTitle nodebb item]
  else if item.contains " | " then titleParts item
  else [item]

/-- `title_part_matches(expected_part, observed_part)`. -/
def titlePartMatches (expectedPart observedPart : Str) : Bool :=
  let expectedValue := collapse expectedPart
  let observedValue := collapse observedPart
  expectedValue == observedValue || observedValue.startsWith expectedValue &&
    ((observedValue.drop expectedValue.length).head?.any fun c =>
      c == 32 || c == 40 || c == 91 || c == 58 || c == 0x2014 || c == 45)

/-- `[part for part in parts if str(part).strip()]`. -/
def notBlank (parts : List Str) : List Str := parts.filter fun part => !part.strip.isEmpty

/-- `contiguous_title_parts_match(expected_parts, observed_parts)`. -/
def contiguousTitlePartsMatch (expectedParts observedParts : List Str) : Bool :=
  let expectedValues := notBlank expectedParts
  let observedValues := notBlank observedParts
  if expectedValues.isEmpty || observedValues.length < expectedValues.length then false
  else (List.range (observedValues.length + 1 - expectedValues.length)).any fun offset =>
    (expectedValues.zip ((observedValues.drop offset).take expectedValues.length)).all fun pair =>
      titlePartMatches pair.1 pair.2

/-- `hierarchy_suffix_title_matches(expected_title, observed_parts)`. -/
def hierarchySuffixTitleMatches (expectedTitle : Str) (observedParts : List Str) : Bool :=
  let observedValues := (notBlank observedParts).map collapse
  (List.range observedValues.length).any fun offset =>
    Str.join " " (observedValues.drop offset) == expectedTitle

/-- `file_candidates(candidates)`: those whose file is the observed one, or a tail of it or around it. -/
def fileCandidates (testFile : Json) (candidates : List Str) : List Str :=
  let file := Str.replaceChar 92 "/" (rt.strOrEmpty testFile)
  if file.isEmpty then candidates
  else candidates.filter fun item =>
    let expected := Str.replaceChar 92 "/" (targetFile item)
    file == expected || file.endsWith (lit "/" ++ expected) || expected.endsWith (lit "/" ++ file)

/-- The title of a target matches the observed one exactly. -/
def matchesExactly (nodebb : Bool) (fragmentParts : List Str) (normalized item : Str) : Bool :=
  let title := collapse (expectedTitle nodebb item)
  let parts := expectedTitleParts nodebb item
  if fragmentParts.isEmpty then title == normalized || normalized.endsWith (lit " " ++ title)
  else
    (List.range (fragmentParts.length + 1 - parts.length)).any (fun offset =>
      parts == (fragmentParts.drop offset).take parts.length) ||
      hierarchySuffixTitleMatches title fragmentParts

/-- The title of a target matches an abbreviation of it. -/
def matchesAbbreviated (nodebb : Bool) (fragmentParts : List Str) (normalized item : Str) : Bool :=
  if fragmentParts.isEmpty then
    (collapse (expectedTitle nodebb item)).endsWith (lit " " ++ normalized)
  else contiguousTitlePartsMatch (expectedTitleParts nodebb item) fragmentParts

/-- `canonical_expected_item(fragment, test_file)`: the only target with the title, or the empty
string. -/
def canonicalExpectedItem (nodebb : Bool) (expected : List Str) (fragment testFile : Json) : Str :=
  let fragmentParts := (fragment.asList.getD []).map fun part => collapse (rt.str part)
  let normalized := if fragmentParts.isEmpty then collapse (rt.str fragment) else []
  let items := expected.eraseDups
  let exactly := matchesExactly nodebb fragmentParts normalized
  let abbreviated := items.filter fun item =>
    !exactly item && matchesAbbreviated nodebb fragmentParts normalized item
  match fileCandidates rt testFile (items.filter exactly) with
  | [item] => item
  | _ :: _ => []
  | [] =>
    match fileCandidates rt testFile abbreviated with
    | [item] => item
    | _ => []

/-- What has been read of the log of Jest or Mocha. -/
structure JsLog where
  passedItems : List Str := []
  failedItems : List Str := []
  /-- The titles in the text, with the file in which Mocha runs. -/
  passedFragments : List (Str × Str) := []
  failedFragments : List (Str × Str) := []
  currentMochaFile : Str := []
  structuredResults : Bool := false

/-- A target with a status. -/
def JsLog.record (log : JsLog) (item status : Str) : JsLog :=
  if item.isEmpty then log
  else if status == lit "passed" then { log with passedItems := log.passedItems ++ [item] }
  else if status == lit "failed" then { log with failedItems := log.failedItems ++ [item] }
  else log

/-- One assertion of a structured result. -/
def readAssertion (nodebb : Bool) (expected : List Str) (testName : Json) (log : JsLog)
    (assertion : Json) : JsLog :=
  match assertion with
  | .dict assertion =>
    let ancestors := (Obj.get assertion "ancestorTitles").asList.getD []
    let title := orEmpty (Obj.get assertion "title")
    let value := if !ancestors.isEmpty || title.truthy then .list (ancestors ++ [title])
      else orEmpty (Obj.get assertion "fullName")
    log.record (canonicalExpectedItem rt nodebb expected value testName)
      (rt.strOrEmpty (Obj.get assertion "status"))
  | _ => log

/-- The structured results of a line. -/
def readTestResults (nodebb : Bool) (expected : List Str) :
    JsLog → List Json → Except PyErr JsLog
  | log, [] => .ok log
  | log, .dict result :: rest => do
    let assertions ← iterOrEmpty (Obj.get result "assertionResults")
    let testName := orEmpty (Obj.get result "name")
    readTestResults nodebb expected
      (assertions.foldl (readAssertion rt nodebb expected testName) log) rest
  | log, _ :: rest => readTestResults nodebb expected log rest

/-- An event of Mocha's stream. -/
def readMochaEvent (nodebb : Bool) (expected : List Str) (log : JsLog) (kind : Json) (event : Obj) :
    JsLog :=
  let isPass := kind.eqStr (lit "pass")
  let isFail := kind.eqStr (lit "fail")
  let file := if nodebb then
      let file := event.get "file"
      if file.truthy then file else .str log.currentMochaFile
    else .str []
  let item := canonicalExpectedItem rt nodebb expected (orEmpty (event.get "fullTitle")) file
  let log := if isPass || isFail then { log with structuredResults := true } else log
  if isPass then log.record item "passed" else if isFail then log.record item "failed" else log

/-- A line of plain text. -/
def readText (isDecimal : Nat → Bool) (nodebb : Bool) (log : JsLog) (stripped : Str) : JsLog :=
  let file := if nodebb then log.currentMochaFile else []
  match (markedTitle isDecimal 0x2713 0x221A).matchStart stripped with
  | some found =>
    { log with passedFragments := log.passedFragments ++ [(file, (found.group 1).strip)] }
  | none =>
    match (markedTitle isDecimal 0x2715 0xD7).matchStart stripped with
    | some found =>
      { log with failedFragments := log.failedFragments ++ [(file, (found.group 1).strip)] }
    | none =>
      match bulletTitle.matchStart stripped with
      | some found =>
        let fragment := (titleArrow.sub " " (found.group 1)).strip
        { log with failedFragments := log.failedFragments ++ [(file, fragment)] }
      | none => log

/-- The prefix of the lines that name the file in which Mocha runs. -/
def nodebbMochaFileMarker : Str := "OPENCOLLAB_MOCHA_FILE "

/-- One line of the log of Jest or Mocha. -/
def readJsLine (isDecimal : Nat → Bool) (nodebb : Bool) (expected : List Str) (log : JsLog)
    (line : Str) : Except PyErr JsLog :=
  if nodebb && line.startsWith nodebbMochaFileMarker then do
    let file ← loadsOrSkip depth (Str.strip (line.drop nodebbMochaFileMarker.length))
    return { log with currentMochaFile := (file.bind Json.asStr).getD [] }
  else do
    match ← loadsOrSkip depth line with
    | none => return readText isDecimal nodebb log line.strip
    | some (.dict event) =>
      match Obj.get event "testResults" with
      | .list results =>
        readTestResults rt nodebb expected { log with structuredResults := true } results
      | _ => return log
    | some (.list [kind, .dict event]) => return readMochaEvent rt nodebb expected log kind event
    | some _ => return log

/-- The lines of a log after some of it has been read. -/
def readJsLines (isDecimal : Nat → Bool) (nodebb : Bool) (expected : List Str) :
    JsLog → List Str → Except PyErr JsLog
  | log, [] => .ok log
  | log, line :: rest => do
    readJsLines isDecimal nodebb expected
      (← readJsLine rt depth isDecimal nodebb expected log line) rest

/-- The targets that the titles in the text name. -/
def fragmentItems (nodebb : Bool) (expected : List Str) (fragments : List (Str × Str)) : List Str :=
  (fragments.map fun fragment =>
    canonicalExpectedItem rt nodebb expected (.str fragment.2) (.str fragment.1)).filter
      fun item => !item.isEmpty

/-- The statuses of a run of Jest or Mocha. The text counts without structured results only. -/
def jsStatuses (isDecimal : Nat → Bool) (nodebb : Bool) (expected : List Str) (text : Str) :
    Except PyErr Statuses := do
  let log ← readJsLines rt depth isDecimal nodebb expected {} text.splitlines
  let fromText := fun fragments : List (Str × Str) =>
    if log.structuredResults then [] else fragmentItems rt nodebb expected fragments
  let passedItems := log.passedItems ++ fromText log.passedFragments
  let failedItems := log.failedItems ++ fromText log.failedFragments
  return {
    observed := expected.filter fun item => passedItems.contains item || failedItems.contains item
    passed := expected.filter fun item => passedItems.contains item && !failedItems.contains item
    failed := expected.filter failedItems.contains }

/-! ## Lines of pytest -/

/-- `rank[status]`. -/
def rank (status : Str) : Nat :=
  (List.lookup status [(lit "PASSED", 0), (lit "SKIPPED", 1), (lit "XFAIL", 1), (lit "XPASS", 2),
    (lit "FAILED", 3), (lit "ERROR", 4)]).getD 0

/-- `normalize_python_test_target(target)`. -/
def normalizePythonTestTarget (target : Str) : Str :=
  if target.contains "[" && !target.endsWith "]" then target.before "[" else target

/-- A table of statuses, in which the worse status of a node stays. -/
def worsen (table : List (Str × Str)) (node status : Str) : List (Str × Str) :=
  match table.lookup node with
  | none => table ++ [(node, status)]
  | some previous =>
    if rank previous < rank status then
      table.map fun entry => if entry.1 == node then (node, status) else entry
    else table

/-- The statuses of the nodes, and those of their bases, after one more line. -/
def readPytestLine (tables : List (Str × Str) × List (Str × Str)) (line : Str) :
    List (Str × Str) × List (Str × Str) :=
  match pytestLine.matchStart line.strip with
  | none => tables
  | some found =>
    let node := normalizePythonTestTarget (found.group 1)
    (worsen tables.1 node (found.group 2), worsen tables.2 (node.before "[") (found.group 2))

/-- The statuses of a run of pytest. -/
def pytestStatuses (expected : List Str) (text : Str) : Statuses :=
  let tables := text.splitlines.foldl readPytestLine ([], [])
  let statusOf := fun item : Str =>
    let normalized := normalizePythonTestTarget item
    if item.contains "[" && !item.endsWith "]" then tables.2.lookup normalized
    else tables.1.lookup normalized
  let observed := expected.filter fun item => (statusOf item).isSome
  let passed := observed.filter fun item => statusOf item == some (lit "PASSED")
  { observed := observed
    passed := passed
    failed := observed.filter fun item => !passed.contains item }

/-! ## Plain text -/

/-- The statuses of any other run: the exit status decides for all observed targets. -/
def textStatuses (expected : List Str) (exitStatus : Int) (text : Str) : Statuses :=
  let observed := expected.filter fun item =>
    !(titleParts item).isEmpty && (titleParts item).all text.contains
  { observed := observed
    passed := if exitStatus == 0 then observed else []
    failed := if exitStatus == 0 then [] else observed }

/-! ## The proof -/

/-- How the log of a repository is read. -/
inductive Reader where
  | go
  | ospec
  | js (nodebb : Bool)
  | pytest
  | text
  deriving DecidableEq

/-- The reader for a language, a repository and some targets. -/
def readerOf (language repo : Str) (expected : List Str) : Reader :=
  let language := rt.lower language
  let repo := rt.lower repo
  if language == lit "go" || repo.endsWith "/vuls" || repo.endsWith "/teleport" ||
      repo.endsWith "/navidrome" then .go
  else if repo == lit "tutao/tutanota" then .ospec
  else if (lits ["js", "javascript", "typescript", "ts"]).contains language || repo == nodebbRepo then
    .js (repo == nodebbRepo)
  else if language == lit "python" || expected.any (Str.contains · "::") then .pytest
  else .text

/-- The reader for the targets of a row. -/
def rowReader (row : Obj) (expected : List Str) : Reader :=
  readerOf rt (rt.strOrEmpty (row.get "repo_language")) (rt.strOrEmpty (row.get "repo")) expected

/-- The statuses that a reader finds. -/
def statusesOf (isDecimal : Nat → Bool) (expected : List Str) (exitStatus : Int) (text : Str) :
    Reader → Except PyErr Statuses
  | .go => goStatuses rt depth text
  | .ospec => ospecStatuses rt depth expected text
  | .js nodebb => jsStatuses rt depth isDecimal nodebb expected text
  | .pytest => .ok (pytestStatuses expected text)
  | .text => .ok (textStatuses expected exitStatus text)

/-- The tests that are not empty, as strings. -/
def expectedTargets (tests : List Json) : List Str :=
  (tests.map rt.str).filter fun item => !item.isEmpty

/-- `fail_to_pass_execution_proof(row, tests, exit_status, log_text)`. -/
def failToPassExecutionProof (isDecimal : Nat → Bool) (row : Obj) (tests : List Json)
    (exitStatus : Int) (logText : Str) : Except PyErr Proof := do
  let expected := expectedTargets rt tests
  if expected.isEmpty then
    return ⟨false, false, exitStatus, expected, [], expected, [], [], []⟩
  else
    let statuses ← statusesOf rt depth isDecimal expected exitStatus (ansiEscape.sub [] logText)
      (rowReader rt row expected)
    let notPassed := expected.filter fun item => !statuses.passed.contains item
    return {
      required := true
      ok := exitStatus == 0 && notPassed.isEmpty
      exitStatus := exitStatus
      expected := expected
      observed := statuses.observed
      missing := expected.filter fun item => !statuses.observed.contains item
      passed := statuses.passed
      failed := statuses.failed
      notPassed := notPassed }

end Readers

end TargetProof

end OpenCollabEval
