import OpenCollabEval.Python.IntDict
import OpenCollabEval.Python.ByteLines
import OpenCollabEval.Python.JsonLoads
import OpenCollabEval.Python.JsonUnescaped
import OpenCollabEval.Python.Runtime
import OpenCollabEval.Python.Utf8

/-!
# Aggregation of a chat-completion stream

A provider streams a chat completion as server-sent events. `aggregate_chat_stream` frames the bytes into
data payloads, adds the choices of each payload to accumulators, and writes one completion when the
stream ended with `[DONE]`.
-/

open Python

namespace OpenCollabEval

namespace ChatStream

/-- How an aggregation ends without a completion. -/
inductive Failure where
  /-- A `ChatStreamError` with its text. -/
  | chatStreamError (message : Str)
  /-- Another exception. -/
  | raised (err : PyErr)
  deriving DecidableEq

/-- `raise ChatStreamError(message)`. -/
def fail {α : Type} (message : Str) : Except Failure α := .error (.chatStreamError message)

/-- `value or {}`, when it is an object. -/
def dictOrEmpty (value : Json) : Option Obj := if value.truthy then value.asDict else some []

/-- `value or []`, when it is an array. -/
def listOrEmpty (value : Json) : Option (List Json) := if value.truthy then value.asList else some []

/-- A non-negative index. A `bool` is an `int`. -/
def readIndex : Json → Option Int
  | .int n => if n < 0 then none else some n
  | .bool b => some (if b then 1 else 0)
  | _ => none

/-- `value is None`. -/
def isNone : Json → Bool
  | .null => true
  | _ => false

/-- The string in a list of its own, or no string. -/
def piece (value : Json) : List Str := value.asStr.toList

/-- One tool call under construction. -/
structure ToolCall where
  callId : Str := []
  callType : Str := []
  name : Str := []
  arguments : List Str := []
  deriving DecidableEq

namespace ToolCall

variable (t : ToolCall)

/-- The id of a delta. -/
def addId (value : Json) : Except Failure ToolCall :=
  match value.asStr with
  | none => .ok t
  | some callId =>
    if !t.callId.isEmpty && callId != t.callId then fail "tool call id changed during streaming"
    else .ok { t with callId := callId }

/-- The type of a delta. -/
def addType (value : Json) : Except Failure ToolCall :=
  match value.asStr with
  | none => .ok t
  | some callType =>
    if !t.callType.isEmpty && callType != t.callType then
      fail "tool call type changed during streaming"
    else .ok { t with callType := callType }

/-- The function of a delta: pieces of its name and of its arguments. -/
def addFunction (value : Json) : Except Failure ToolCall :=
  match dictOrEmpty value with
  | none => fail "tool call function must be an object"
  | some function =>
    .ok { t with
      name := t.name ++ (piece (function.get "name")).flatten
      arguments := t.arguments ++ piece (function.get "arguments") }

/-- `_ToolCall.add(value)`. -/
def add (value : Obj) : Except Failure ToolCall := do
  let t ← t.addId (value.get "id")
  let t ← t.addType (value.get "type")
  t.addFunction (value.get "function")

/-- `_ToolCall.finish()`. -/
def finish : Except Failure Json :=
  if t.callId.isEmpty || t.name.isEmpty then fail "tool call is missing its id or function name"
  else .ok (.dict [("id", .str t.callId),
    ("type", .str (if t.callType.isEmpty then lit "function" else t.callType)),
    ("function", .dict [("name", .str t.name), ("arguments", .str t.arguments.flatten)])])

end ToolCall

/-- One choice under construction. -/
@[ext]
structure Choice where
  role : Str := "assistant"
  content : List Str := []
  reasoning : List Str := []
  refusal : List Str := []
  toolCalls : IntDict ToolCall := .empty
  finishReason : Option Str := none
  logprobs : Json := .null

namespace Choice

variable (c : Choice)

/-- The strings of a delta. -/
def addTexts (delta : Obj) : Choice :=
  { c with
    role := (delta.get "role").asStr.getD c.role
    content := c.content ++ piece (delta.get "content")
    reasoning := c.reasoning ++ piece (delta.get "reasoning_content")
    refusal := c.refusal ++ piece (delta.get "refusal") }

/-- One tool call delta. -/
def addCall (value : Json) : Except Failure Choice :=
  match value.asDict with
  | none => fail "tool call delta must be an object"
  | some call =>
    match readIndex (call.get "index") with
    | none => fail "tool call delta requires a non-negative index"
    | some index => do
      let toolCalls ← c.toolCalls.upsert index fun t => (t.getD {}).add call
      return { c with toolCalls := toolCalls }

/-- The tool call deltas of a delta, in order. -/
def addCalls : Choice → List Json → Except Failure Choice
  | c, [] => .ok c
  | c, call :: rest => do
    let c ← c.addCall call
    c.addCalls rest

/-- The finish reason of a choice delta. -/
def addFinishReason : Json → Except Failure Choice
  | .null => .ok c
  | .str reason => .ok { c with finishReason := some reason }
  | _ => fail "finish_reason must be a string"

/-- The log probabilities of a choice delta. -/
def addLogprobs (value : Json) : Choice :=
  if isNone value then c else { c with logprobs := value }

/-- `_Choice.add(value)`. -/
def add (value : Obj) : Except Failure Choice :=
  match dictOrEmpty (value.get "delta") with
  | none => fail "choice delta must be an object"
  | some delta =>
    match listOrEmpty (delta.get "tool_calls") with
    | none => fail "delta tool_calls must be an array"
    | some calls => do
      let c ← (c.addTexts delta).addCalls calls
      let c ← c.addFinishReason (value.get "finish_reason")
      return c.addLogprobs (value.get "logprobs")

/-- The message of a finished choice. -/
def message (toolCalls : List Json) : Obj :=
  Obj.of [("role", .str c.role),
    ("content", if c.content.isEmpty then .null else .str c.content.flatten)] ++
  Obj.of (if c.reasoning.isEmpty then [] else [("reasoning_content", .str c.reasoning.flatten)]) ++
  Obj.of (if c.refusal.isEmpty then [] else [("refusal", .str c.refusal.flatten)]) ++
  Obj.of (if c.toolCalls.keys.isEmpty then [] else [("tool_calls", .list toolCalls)])

/-- `_Choice.finish(index)`. -/
def finish (rt : Runtime) (index : Json) : Except Failure Json :=
  match c.finishReason with
  | none => fail (lit "choice " ++ rt.str index ++ lit " has no terminal finish_reason")
  | some reason => do
    let toolCalls ← c.toolCalls.sortedItems.mapM fun item => item.2.finish
    return .dict [("index", index), ("message", .dict (c.message toolCalls)),
      ("finish_reason", .str reason), ("logprobs", c.logprobs)]

end Choice

/-- The fields by which a stream identifies itself. -/
def identityKeys : List Str := ["id", "created", "model", "system_fingerprint", "service_tier"]

/-- The accumulators of a stream. A choice is kept with the index under which it was first added. -/
structure Aggregate where
  identity : Obj := []
  usage : Option Obj := none
  choices : IntDict (Json × Choice) := .empty

namespace Aggregate

variable (a : Aggregate)

/-- One identity field of a chunk. -/
def addIdentity (chunk : Obj) (key : Str) : Except Failure Aggregate :=
  let value := chunk.get key
  if isNone value then .ok a
  else if a.identity.has key && !(a.identity.get key).pyEq value then
    fail (lit "stream identity changed for " ++ key)
  else .ok { a with identity := a.identity.set key value }

/-- The identity fields of a chunk, in order. -/
def addIdentities (chunk : Obj) : Aggregate → List Str → Except Failure Aggregate
  | a, [] => .ok a
  | a, key :: rest => do
    let a ← a.addIdentity chunk key
    addIdentities chunk a rest

/-- The usage of a chunk. -/
def addUsage (chunk : Obj) : Except Failure Aggregate :=
  match chunk.get "usage" with
  | .null => .ok a
  | .dict usage => .ok { a with usage := some usage }
  | _ => fail "stream usage must be an object"

/-- A delta for a choice, which keeps the spelling of its index from its first delta. -/
def labelled (label : Json) (entry : Obj) (found : Option (Json × Choice)) :
    Except Failure (Json × Choice) := do
  let choice ← (found.getD (label, {})).2.add entry
  return ((found.getD (label, {})).1, choice)

/-- One choice delta, at its position in the chunk. -/
def addChoice (position : Nat) (value : Json) : Except Failure Aggregate :=
  match value.asDict with
  | none => fail "stream choice must be an object"
  | some entry =>
    let label := entry.getOr "index" (.int position)
    match readIndex label with
    | none => fail "choice index must be a non-negative integer"
    | some index => do
      let choices ← a.choices.upsert index (labelled label entry)
      return { a with choices := choices }

/-- The choice deltas of a chunk from a position on. -/
def addChoices : Aggregate → Nat → List Json → Except Failure Aggregate
  | a, _, [] => .ok a
  | a, position, value :: rest => do
    let a ← a.addChoice position value
    a.addChoices (position + 1) rest

/-- One chunk of the stream. -/
def addChunk (value : Json) : Except Failure Aggregate :=
  match value.asDict with
  | none => fail "upstream SSE data must be a JSON object"
  | some chunk =>
    if !isNone (Obj.get chunk "error") then fail "upstream SSE reported an error"
    else do
      let a ← a.addIdentities chunk identityKeys
      let a ← a.addUsage chunk
      match listOrEmpty (chunk.get "choices") with
      | none => fail "stream choices must be an array"
      | some choices => a.addChoices 0 choices

end Aggregate

/-- `json.loads(data)`, whose syntax errors end the stream. -/
def readChunk (depth : Nat) (data : Str) : Except Failure Json :=
  match loads depth data with
  | .ok chunk => .ok chunk
  | .error .jsonDecodeError => fail "upstream SSE data is not valid JSON"
  | .error err => .error (.raised err)

/-- The payload that ends a stream. -/
def isDone (data : Str) : Bool := data.strip == lit "[DONE]"

/-- A payload of the stream, or the text of the error in which the framing ends. -/
abbrev Frame := Except Str Str

/-- The payload of the pending data lines, if there are any. -/
def flush (pending : List Str) : List Frame :=
  if pending.isEmpty then [] else [.ok (Str.join "\n" pending)]

/-- The pending data lines after a line that is not empty. -/
def addLine (pending : List Str) (text : Str) : List Str :=
  if text.startsWith ":" then pending
  else if text.startsWith "data:" then pending ++ [Str.lstripOf (· == 32) (text.drop 5)]
  else pending

/-- `_events(stream, byte_limit=…, deadline=…)` from the `n`-th line on. `expired n` says whether the
deadline has passed when that line is read. -/
def events (limit : Int) (expired : Nat → Bool) : Nat → Int → List Str → List (List Nat) → List Frame
  | n, _, pending, [] =>
    if expired n then [.error "upstream stream exceeded its total deadline"] else flush pending
  | n, total, pending, physical :: rest =>
    if expired n then [.error "upstream stream exceeded its total deadline"]
    else
      -- `readline` with a negative size reads the whole line
      let line := if limit + 1 < 0 then physical else physical.take (limit + 1).toNat
      if line.isEmpty then flush pending
      else if decide (limit < total + line.length) || decide (limit < line.length) then
        [.error "upstream stream exceeded the response byte limit"]
      else
        match Str.decodeUtf8 false line with
        | none => [.error "upstream stream is not valid UTF-8"]
        | some decoded =>
          let text := decoded.rstripOf fun c => c == 13 || c == 10
          if text.isEmpty then
            flush pending ++ events limit expired (n + 1) (total + line.length) [] rest
          else events limit expired (n + 1) (total + line.length) (addLine pending text) rest

/-- The loop over the payloads. The flag says whether the stream ended with `[DONE]`. -/
def consume (depth : Nat) : Aggregate → List Frame → Except Failure (Aggregate × Bool)
  | a, [] => .ok (a, false)
  | _, .error message :: _ => fail message
  | a, .ok data :: rest =>
    if isDone data then .ok (a, true)
    else do
      let chunk ← readChunk depth data
      let a ← a.addChunk chunk
      consume depth a rest

/-- Models with a validated direct profile. -/
def supportedKimiModels : List Str := ["k3", "kimi-for-coding"]

/-- `is_kimi_direct_model(model)`. -/
def isKimiDirectModel (model : Str) : Bool := supportedKimiModels.contains model.strip

section Completion

variable (rt : Runtime)

/-- `kimi_response_model_matches(requested, actual)`. -/
def kimiResponseModelMatches (requested : Str) (actual : Json) : Bool :=
  let requestedModel := rt.lower requested.strip
  let actualModel := rt.lower (rt.strOrEmpty actual).strip
  if requestedModel = lit "k3" then actualModel == lit "k3"
  else if requestedModel = lit "kimi-for-coding" then
    actualModel == lit "kimi-for-coding" || actualModel == lit "kimi-k2.7" ||
      actualModel.startsWith "kimi-k2.7-" || actualModel.startsWith "kimi-k2.7_"
  else false

/-- The stream answers for the requested model. -/
def modelMatches (expectedModel : Str) (actual : Json) : Bool :=
  if isKimiDirectModel expectedModel then kimiResponseModelMatches rt expectedModel actual
  else actual.eqStr expectedModel

/-- The completion of a stream that ended. -/
def Aggregate.complete (a : Aggregate) (done : Bool) (expectedModel : Str) : Except Failure Obj :=
  if !done then fail "upstream stream ended without [DONE]"
  else if a.choices.keys.isEmpty then fail "upstream stream ended without a choice"
  else if !modelMatches rt expectedModel (a.identity.get "model") then
    fail "stream response model does not match the request"
  else do
    let choices ← a.choices.sortedItems.mapM fun item => item.2.2.finish rt item.2.1
    return a.identity ++ Obj.of [("object", .str "chat.completion"), ("choices", .list choices)] ++
      (a.usage.map fun usage => (lit "usage", Json.dict usage)).toList

/-- The bytes of a completion. -/
def encodeCompletion (limit : Int) (completion : Obj) : Except Failure (List Nat) :=
  match Str.encode (DumpFormat.compact.dumpsUnescaped (.dict completion)) with
  | .error err => .error (.raised err)
  | .ok encoded =>
    if limit < encoded.length then fail "aggregated response exceeded the response byte limit"
    else .ok encoded

/-- `aggregate_chat_stream(stream, byte_limit=…, timeout=…, expected_model=…)`. -/
def aggregateChatStream (depth : Nat) (limit : Int) (expired : Nat → Bool) (expectedModel : Str)
    (stream : List Nat) : Except Failure (List Nat) := do
  let (a, done) ← consume depth {} (events limit expired 0 0 [] (physicalLines stream))
  let completion ← a.complete rt done expectedModel
  encodeCompletion limit completion

end Completion

end ChatStream

end OpenCollabEval
