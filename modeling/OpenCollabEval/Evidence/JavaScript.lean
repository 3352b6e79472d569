import OpenCollabEval.Env
import OpenCollabEval.Evidence.TargetStatus

/-!
# Evidence of a JavaScript test command

The pass and failure proofs of the plans of kind `js_parser_backed_targets`. Both read the status of the
declared targets; a failure is also accepted when the raw report of Jest blames a suite as a whole: on a
module that the judge's patch mocks, or on a source file of the candidate.
-/

open Python

namespace OpenCollabEval

namespace JsProof

open TargetProof

section Patterns

open Pattern

/-- `['"]`. -/
def quote : Pattern := chars fun c => c == 39 || c == 34

/-- `Cannot find module '([^']+)' from '([^']+)'`. -/
def missingModule : Pattern :=
  concat [text "Cannot find module '", group 1 (plus (chars (· != 39))), text "' from '",
    group 2 (plus (chars (· != 39))), text "'"]

/-- `Cannot find module ['"]([^'"]+)['"] from ['"]([^'"]+)['"]`. -/
def quotedMissingModule : Pattern :=
  let name := plus (chars fun c => !(c == 39 || c == 34))
  concat [text "Cannot find module ", quote, group 1 name, quote, text " from ", quote, group 2 name,
    quote]

/-- `(?m)^FAIL\s+…\s*$` for a suite. -/
def failedSuite (suite : Str) : Pattern :=
  concat [lineStart, text "FAIL", plus (chars Str.isSpace), lit suite,
    star true (chars Str.isSpace), lineEnd]

end Patterns

/-- `path.replace("\\", "/").removeprefix("./")`. -/
def slashed (path : Str) : Str := (Str.replaceChar 92 "/" path).removePrefix "./"

section Checks

variable (rt : Runtime) (depth : Nat)

/-- `_js_path_matches(left, right)`. -/
def jsPathMatches (left right : Json) : Bool :=
  let left := slashed (rt.strOrEmpty left)
  let right := slashed (rt.strOrEmpty right)
  !left.isEmpty && !right.isEmpty &&
    (left == right || left.endsWith (lit "/" ++ right) || right.endsWith (lit "/" ++ left))

/-- `_jest_reports(log_text)`. -/
def jestReports (logText : Str) : Except PyErr (List Obj) := do
  let values ← logText.splitlines.mapM (loadsOrSkip depth)
  return (values.filterMap fun value => value.bind Json.asDict).filter fun report =>
    report.has "numTotalTestSuites"

/-- The suites of the targets, without repetition. -/
def targetSuites (targets : List Json) : List Str :=
  (targets.map fun target => slashed ((rt.str target).before " | ")).eraseDups

/-- The modules of a binding: strings that are neither empty nor too long. -/
def readModules : List Json → Except PyErr (Option (List Str))
  | [] => .ok (some [])
  | .str module :: rest => do
    if module.isEmpty then return none
    else
      let bytes ← module.encode
      if 4096 < bytes.length then return none
      else return (← readModules rest).map (module :: ·)
  | _ :: _ => .ok none

/-- The only binding of the target suite, with its modules. -/
def boundModules (targetSuite : Str) :
    Option (Str × List Str) → List Json → Except PyErr (Option (Str × List Str))
  | bound, [] => .ok bound
  | bound, .dict binding :: rest => do
    if !jsPathMatches rt (Obj.get binding "suite") (.str targetSuite) then
      boundModules targetSuite bound rest
    else
      match Obj.get binding "modules" with
      | .list modules =>
        if bound.isSome || modules.isEmpty || 128 < modules.length then return none
        else if !(← Json.setIsFaithful modules) then return none
        else
          match ← readModules modules with
          | some modules =>
            boundModules targetSuite (some (rt.strOrEmpty (Obj.get binding "suite"), modules)) rest
          | none => return none
      | _ => return none
  | bound, _ :: rest => boundModules targetSuite bound rest

/-- The only result of a report whose only suite has failed to run. -/
def suiteError (report : Obj) : Option Obj :=
  match report.get "testResults" with
  | .list [.dict result] =>
    if (report.get "success").isFalse && (report.get "numFailedTestSuites").eqInt 1 &&
        (report.get "numRuntimeErrorTestSuites").eqInt 1 &&
        (report.get "numTotalTestSuites").eqInt 1 && (report.get "numTotalTests").eqInt 0 &&
        (Obj.get result "status").eqStr "failed" &&
        (Obj.get result "assertionResults").pyEq (.list []) then
      some result
    else none
  | _ => none

/-- `_js_suite_load_failure_proof_matches(proof, log_text, expected_command, observed_command)`. -/
def jsSuiteLoadFailureProofMatches (proof : Obj) (logText expectedCommand observedCommand : Str) :
    Except PyErr Bool := do
  let bindings := (proof.get "suite_module_mocks").asList.getD []
  let targets := (proof.get "targets").asList.getD []
  if expectedCommand.isEmpty || expectedCommand != observedCommand || bindings.isEmpty ||
      64 < bindings.length || targets.isEmpty then
    return false
  else
    match targetSuites rt targets with
    | [targetSuite] =>
      match ← boundModules rt targetSuite none bindings with
      | none => return false
      | some (boundSuite, modules) =>
        match ← jestReports depth logText with
        | [report] =>
          match suiteError report with
          | none => return false
          | some result =>
            let message := rt.strOrEmpty (result.get "message")
            match (missingModule.finditer message).head? with
            | none => return false
            | some missing =>
              return jsPathMatches rt (result.get "name") (.str boundSuite) &&
                message.contains "Test suite failed to run" && modules.contains (missing.group 1) &&
                jsPathMatches rt (.str (missing.group 2)) (.str targetSuite) &&
                (failedSuite boundSuite).search logText
        | _ => return false
    | _ => return false

/-- `name in (value or [])`. -/
def inOrEmpty (name : Str) (value : Json) : Except PyErr Bool :=
  match value with
  | .list items => .ok ((Json.str name).elem items)
  | .str s => .ok (s.contains name && !s.isEmpty)
  | .dict entries => .ok (Obj.has entries name)
  | v => if v.truthy then .error .typeError else .ok false

/-- `candidate_path_matches(message, path)`. -/
def candidatePathMatches (message : Str) (path : Json) : Bool :=
  let normalized := slashed (rt.strOrEmpty path)
  let variants := normalized :: (lits [".tsx", ".ts", ".jsx", ".js"]).filterMap fun suffix =>
    if normalized.endsWith suffix then some (normalized.take (normalized.length - suffix.length))
    else none
  !normalized.isEmpty && variants.any message.contains

/-- A binding of the candidate's modules names a missing module and the file that lacks it. -/
def bindsMissing (module file : Str) : Json → Except PyErr Bool
  | .dict binding => do
    if ← inOrEmpty module (Obj.get binding "modules") then
      return jsPathMatches rt (Obj.get binding "path") (.str file)
    else return false
  | _ => .ok false

/-- `candidate_failure_in(message)`. -/
def candidateFailureIn (candidatePaths : List Json) (moduleBindings : Json) (message : Str) :
    Except PyErr Bool :=
  match (quotedMissingModule.finditer message).head? with
  | some missing => do
    (← iterOrEmpty moduleBindings).anyM (bindsMissing rt (missing.group 1) (missing.group 2))
  | none =>
    .ok ((candidatePaths.any (candidatePathMatches rt message)) &&
      (lits ["ReferenceError", "SyntaxError", "TypeError"]).any message.contains)

/-- The message of a failed result of a target suite. -/
def suiteMessage (suites : List Str) (result : Json) : Option Str :=
  match result with
  | .dict result =>
    if (Obj.get result "status").eqStr "failed" &&
        suites.any (fun suite => jsPathMatches rt (Obj.get result "name") (.str suite)) then
      some (Str.replaceChar 92 "/" (rt.strOrEmpty (Obj.get result "message")))
    else none
  | _ => none

/-- `_js_candidate_failure_proof_matches(proof, log_text, expected_command, observed_command)`. -/
def jsCandidateFailureProofMatches (proof : Obj) (logText expectedCommand observedCommand : Str) :
    Except PyErr Bool := do
  let targets := (proof.get "targets").asList.getD []
  let candidatePaths := (proof.get "candidate_source_paths").asList.getD []
  if expectedCommand.isEmpty || expectedCommand != observedCommand || targets.isEmpty ||
      candidatePaths.isEmpty then
    return false
  else
    match ← jestReports depth logText with
    | [report] =>
      let results := (report.get "testResults").asList.getD []
      if !(report.get "success").isFalse then return false
      else
        (results.filterMap (suiteMessage rt (targetSuites rt targets))).anyM
          (candidateFailureIn rt candidatePaths (proof.get "candidate_module_bindings"))
    | _ => return false

variable (isDecimal : Nat → Bool)

/-- The row that a proof stands for. -/
def proofRow (proof : Obj) : Obj :=
  Obj.of [("repo_language", orEmpty (proof.get "repo_language")), ("repo", orEmpty (proof.get "repo"))]

/-- What the log says of the targets of a plan, for an exit status. -/
def targetProof (proof : Obj) (targets : List Json) (exitStatus : Int) (logText : Str) :
    Except PyErr Proof :=
  failToPassExecutionProof rt depth isDecimal (proofRow proof) targets exitStatus logText

/-- `_plan_log_proof_matches(proof, log_text)` for a plan of kind `js_parser_backed_targets`. -/
def planLogProofMatches (proof : Obj) (logText : Str) : Except PyErr Bool :=
  let targets := (proof.get "targets").asList.getD []
  if targets.isEmpty then .ok false
  else do
    let result ← targetProof rt depth isDecimal proof targets 0 logText
    return result.ok

/-- `_plan_log_failure_proof_matches(proof, log_text, "", expected_command, observed_command)` for a
plan of kind `js_parser_backed_targets`. -/
def planLogFailureProofMatches (proof : Obj) (logText expectedCommand observedCommand : Str) :
    Except PyErr Bool :=
  let targets := (proof.get "targets").asList.getD []
  if targets.isEmpty then .ok false
  else do
    let parsed ← targetProof rt depth isDecimal proof targets 1 logText
    if targets.any fun target => target.asStr.any parsed.failed.contains then return true
    else if ← jsSuiteLoadFailureProofMatches rt depth proof logText expectedCommand observedCommand then
      return true
    else jsCandidateFailureProofMatches rt depth proof logText expectedCommand observedCommand

end Checks

end JsProof

end OpenCollabEval
