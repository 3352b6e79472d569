import OpenCollabEval.Env
import OpenCollabEval.Python.ByteLines
import OpenCollabEval.Python.JsonLoads
import OpenCollabEval.Python.Path
import OpenCollabEval.Python.Utf8

/-!
# The provider model of a trajectory

A run over the Responses protocol leaves a log of records, one a line. The verification reads the log as
it was when it was opened, checks every model call in it against the configuration of the run, and gives
back the model and the digest of the log.
-/

open Python

namespace OpenCollabEval.Trajectory

/-- What the verification raises. -/
inductive VerifyErr where
  | runtimeError (message : Str)
  | unicodeDecodeError
  | raised (error : PyErr)
  deriving DecidableEq

/-- `isinstance(exc, RuntimeError)`; a `RecursionError` is one. -/
def VerifyErr.isRuntimeError : VerifyErr → Bool
  | runtimeError _ => true
  | unicodeDecodeError => false
  | raised error => error == .recursionError

/-- The fields of `os.fstat` that tell whether a file changed. -/
structure FileStamp where
  size : Nat
  mtimeNs : Int
  ctimeNs : Int
  deriving DecidableEq

/-- What the verification finds on the disk. An `OSError` is `none`. -/
structure LogFile where
  /-- `path.resolve(strict=True)`. -/
  resolved : Option PosixPath
  /-- `artifact_root.resolve(strict=True)`. -/
  artifactRoot : Option PosixPath
  /-- The bytes behind `open_regular_binary(path)`. -/
  content : Option (List Nat)
  /-- `os.fstat` after the file was opened. -/
  before : FileStamp
  /-- `os.fstat` after it was read. -/
  after : FileStamp

/-- What the configuration of the run says of its model calls. -/
structure Expected where
  model : Str
  reasoningEffort : Option Str

/-- A record may be 16 MiB long. -/
def maxRecordBytes : Nat := 16 * 1024 * 1024

section Record

variable (rt : Runtime) (expected : Expected)

/-- `observed == effort`. -/
def effortIs (observed : Json) : Option Str → Bool
  | none => (observed matches .null)
  | some effort => observed.eqStr effort

/-- `repr` of a text that may be missing. -/
def reprOption : Option Str → Str
  | none => "None"
  | some text => rt.reprStr text

/-- The effort of a model call against its policy: the model that the call is added with. -/
def checkEffort (payload : Obj) : Except VerifyErr Str :=
  let effort := payload.get "reasoning_effort"
  let policy := payload.get "reasoning_effort_policy"
  match policy.inStrSet (lits ["configured", "suppressed"]) with
  | .error error => .error (.raised error)
  | .ok false =>
    .error (.runtimeError "Responses llm_call is missing its reasoning effort policy")
  | .ok true =>
    let expectedEffort := if policy.eqStr "suppressed" then none else expected.reasoningEffort
    if effortIs effort expectedEffort then .ok expected.model
    else
      .error (.runtimeError (lit "Responses reasoning effort mismatch expected " ++
        reprOption rt expectedEffort ++ lit " got " ++ rt.repr effort))

/-- One model call: the protocol, the model and the effort. -/
def checkPayload (payload : Obj) : Except VerifyErr Str :=
  let observed := payload.get "provider_model"
  if !(payload.get "wire_protocol").eqStr "responses" then
    .error (.runtimeError "Responses trajectory contains a mixed wire protocol")
  else if !observed.eqStr expected.model then
    .error (.runtimeError (lit "Responses provider model mismatch expected " ++
      rt.reprStr expected.model ++ lit " got " ++ rt.repr observed))
  else checkEffort rt expected payload

/-- One record: the models with the one of a model call. -/
def checkRecord (models : List Str) (record : Json) : Except VerifyErr (List Str) :=
  match record.asDict with
  | none => return models
  | some entries =>
    if !(entries.get "type").eqStr "llm_call" then return models
    else
      match (entries.get "payload").asDict with
      | none => throw (.runtimeError "Responses llm_call is missing its payload")
      | some payload => do return models.insert (← checkPayload rt expected payload)

/-- One line of a text. -/
def checkLine (depth : Nat) (models : List Str) (line : Str) : Except VerifyErr (List Str) :=
  match loads depth line with
  | .ok record => checkRecord rt expected models record
  | .error .jsonDecodeError => throw (.runtimeError "Responses trajectory contains invalid JSON")
  | .error error => throw (.raised error)

/-- One line of the file, which `splitlines` cuts once more. -/
def checkRawLine (depth : Nat) (models : List Str) (rawLine : List Nat) :
    Except VerifyErr (List Str) :=
  if maxRecordBytes < rawLine.length then
    throw (.runtimeError "Responses trajectory record exceeds 16 MiB")
  else
    match Str.decodeUtf8 false rawLine with
    | none => throw .unicodeDecodeError
    | some text => text.splitlines.foldlM (checkLine rt expected depth) models

end Record

/-- `handle.readline(limit)`. -/
def readLine (limit : Nat) (data : List Nat) : List Nat :=
  ((physicalLines data).head?.getD []).take limit

/-- The lines that are read of the opening snapshot. -/
def rawLines : Nat → Nat → List Nat → List (List Nat)
  | 0, _, _ => []
  | fuel + 1, remaining, data =>
    if remaining = 0 then []
    else
      let rawLine := readLine (min (maxRecordBytes + 1) remaining) data
      if rawLine.isEmpty then []
      else rawLine :: rawLines fuel (remaining - rawLine.length) (data.drop rawLine.length)

section Verify

variable (rt : Runtime) (depth : Nat)

/-- The end of the verification, with what the records gave. -/
def concludeLog (file : LogFile) (rawLines : List (List Nat)) (checked : Except VerifyErr (List Str)) :
    Except VerifyErr (List Str × Option Str) :=
  match checked with
  | .error error =>
    -- other exceptions are not deferred to the comparison of the stamps
    if !error.isRuntimeError && error ≠ .unicodeDecodeError then throw error
    else if file.before ≠ file.after then
      throw (.runtimeError "Responses trajectory changed while reading")
    else if error = .unicodeDecodeError then
      throw (.runtimeError "Responses trajectory cannot be read")
    else throw error
  | .ok models =>
    if file.before ≠ file.after then
      throw (.runtimeError "Responses trajectory changed while reading")
    else if models.isEmpty then
      throw (.runtimeError "Responses trajectory contains no verified LLM call")
    else return (models.insertionSort (Str.le · ·), some (rt.sha256 rawLines.flatten))

/-- `verified_provider_models`. -/
def verifiedProviderModels (trajectoryPath : Option Str) (file : LogFile) (expected : Expected)
    (wireProtocol : Str) : Except VerifyErr (List Str × Option Str) :=
  if wireProtocol ≠ lit "responses" then return ([], none)
  else if (trajectoryPath.getD []).isEmpty then
    throw (.runtimeError "Responses execution did not produce a trajectory")
  else
    match file.resolved, file.artifactRoot, file.content with
    | some resolved, some root, content =>
      if !(resolved == root || resolved.below root) then
        throw (.runtimeError "Responses trajectory is outside the current artifact root")
      else
        match content with
        | none => throw (.runtimeError "Responses trajectory cannot be read")
        | some data =>
          let lines := rawLines file.before.size file.before.size data
          concludeLog rt file lines (lines.foldlM (checkRawLine rt expected depth) [])
    | _, _, _ => throw (.runtimeError "Responses trajectory cannot be read")

end Verify

end OpenCollabEval.Trajectory
