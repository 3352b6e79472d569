import OpenCollabEval.Records.RecordLog

/-!
# Watching the progress of a generation

`latest_progress` reads the JSONL files that a generation appends to, and remembers for each file how far
it has read. Only a completed model round, model output or a completed tool call is progress. The timer of
`observe` is the time since the latest progress.
-/

open Python

namespace OpenCollabEval.ProgressWatch

/-- What the watch takes from the interpreter. Floating-point results are given by their value. -/
structure WatchHost extends LogHost where
  /-- `float(s)` of a text, `none` when it raises a `ValueError`. -/
  floatText : Str → Option PyFloat
  /-- `datetime.fromisoformat(s).timestamp()` -/
  isoTimestamp : Str → Except PyErr PyFloat
  /-- `x + y` -/
  addFloat : PyFloat → PyFloat → PyFloat
  /-- `max(0, now - epoch)` -/
  elapsed : ℚ → ℚ → ℚ

/-- What a source file holds. -/
inductive SourceKind where
  | native
  | stream
  | model
  | tool
  deriving DecidableEq

/-- The sources of a generation in the order in which they are read, and what of its configuration the
watch reads. -/
structure WatchConfig where
  sources : List (Str × SourceKind)
  sharedModelProgressSource : Json
  modelProgressId : Json
  /-- `no_progress_timeout_seconds` -/
  timeout : ℚ

/-- The latest progress. -/
structure Progress where
  epoch : ℚ
  kind : Json
  phase : Str
  eventId : Json
  source : Option Str

/-- `{"epoch": started_epoch, "kind": "generation_started", "source": None}`; without a phase, readers
take it as `generation`. -/
def Progress.started (epoch : ℚ) : Progress where
  epoch
  kind := "generation_started"
  phase := "generation"
  eventId := .null
  source := none

/-- How far a file was read. -/
structure Cursor where
  identity : Nat × Nat
  offset : Nat
  deriving DecidableEq

/-- A call that waits for its provider after an error. -/
structure ProviderWait where
  epoch : ℚ
  httpStatus : Json
  errorType : Json
  errorCode : Json

/-- What is saved between observations. -/
structure WatchState where
  progress : Option Progress
  offsets : Str → Option Cursor
  waits : List (Json × ProviderWait)

/-- A state before any observation. -/
def WatchState.empty : WatchState := ⟨none, fun _ => none, []⟩

/-- A source file: its device and inode, and its bytes. -/
structure SourceFile where
  identity : Nat × Nat
  bytes : List Nat

section Rows

variable (host : WatchHost) (config : WatchConfig)

/-- `isinstance(v, (int, float)) and math.isfinite(v)`, with the number; an integer beyond all floats
raises an `OverflowError`. -/
def finiteNumber (v : Json) : Except PyErr (Option ℚ) :=
  match v with
  | .int n =>
    if (PyFloat.roundMagnitude n.natAbs).isNone then .error .overflowError else .ok (some n)
  | v => .ok v.asNumber

/-- `float(v)` -/
def toFloat : Json → Except PyErr PyFloat
  | .bool b => .ok (PyFloat.ofMagnitude false (PyFloat.roundMagnitude (if b then 1 else 0)))
  | .int n =>
    match PyFloat.roundMagnitude n.natAbs with
    | some magnitude => .ok (PyFloat.ofMagnitude (decide (n < 0)) (some magnitude))
    | none => .error .overflowError
  | .float x => .ok x
  | .str s => orValueError (host.floatText s)
  | .null | .list _ | .dict _ => .error .typeError

/-- The end of a completed model call: its own epoch, or its start and how long it took. -/
def modelEnd (row : Obj) : Except PyErr PyFloat :=
  if row.has "completed_epoch" then do toFloat host (← row.index "completed_epoch")
  else do
    let start ← match ← row.index "time" with
      | .str time => host.isoTimestamp time
      | _ => .error .typeError
    return host.addFloat start (← toFloat host (← row.index "elapsed_seconds"))

/-- What a row of a source says. -/
inductive RowUse where
  /-- Nothing about progress. -/
  | ignored
  /-- A provider error of a call, and whether it is proven. -/
  | providerError (proven : Bool)
  /-- A completed event, by its end. -/
  | completed (epoch eventId : Json)

/-- `type(status) is int and status >= 400 or status is None and row.get("error_type")` -/
def provenError (row : Obj) : Bool :=
  match row.get "original_status" with
  | .int status => decide (400 ≤ status)
  | .null => (row.get "error_type").truthy
  | _ => false

/-- A row of a stream of model output. -/
def streamUse (path : Str) (row : Obj) : Except PyErr RowUse := do
  if config.sharedModelProgressSource.eqStr path &&
      !(row.get "progress_id").pyEq config.modelProgressId then return .ignored
  if (row.get "event").eqStr "provider_error" then return .providerError (provenError row)
  if !(← (row.get "event").inStrSet (lits ["model_content", "tool_arguments", "model_completed"])) then
    return .ignored
  if !(row.get "event").eqStr "model_completed" &&
      !(row.get "content_chars").asInt.any (0 < ·) then return .ignored
  return .completed (row.get "epoch") (row.get "call")

/-- A row of the model log of a generation. -/
def modelUse (row : Obj) : Except PyErr RowUse :=
  if !(row.get "event").eqStr "completed" || !(row.get "call" matches .int _ | .bool _) then
    .ok .ignored
  else
    match modelEnd host row with
    | .ok x => .ok (.completed (.float x) (row.get "call"))
    | .error (.keyError _) | .error .typeError | .error .valueError => .ok .ignored
    | .error e => .error e

/-- A model round of a trajectory. -/
def roundUse (row : Obj) : RowUse :=
  match row.get "payload" with
  | .dict payload =>
    if (Obj.get payload "model").truthy && (Obj.get payload "finish_reason").truthy &&
        Obj.has payload "content" && Obj.has payload "tool_calls" then
      .completed (row.get "timestamp") (row.get "step")
    else .ignored
  | _ => .ignored

/-- A tool call of a trajectory. -/
def toolUse (row : Obj) : RowUse :=
  match row.get "payload" with
  | .dict payload =>
    if (row.get "type").eqStr "tool_exec" && (Obj.get payload "tool_call_id").truthy &&
        Obj.has payload "result" then
      .completed (row.get "timestamp") (Obj.get payload "tool_call_id")
    else .ignored
  | _ => .ignored

/-- What a row says, by the kind of its source. -/
def rowUse (path : Str) (kind : SourceKind) (row : Obj) : Except PyErr RowUse :=
  match kind with
  | .stream => streamUse config path row
  | .model => modelUse host row
  | .native => .ok (if (row.get "type").eqStr "llm_call" then roundUse row else toolUse row)
  | .tool => .ok (toolUse row)

/-- The progress that a completed event is. -/
def completedProgress (path : Str) (kind : SourceKind) (row : Obj) (epoch : ℚ) (eventId : Json) :
    Progress where
  epoch
  kind :=
    if kind = .stream then row.get "event"
    else if kind = .model || (row.get "type").eqStr "llm_call" then "model_completed"
    else "tool_completed"
  phase := if (row.get "type").eqStr "tool_exec" then "tool" else "generation"
  eventId
  source := some path

end Rows

section Watching

variable (host : WatchHost) (config : WatchConfig) (started now : ℚ)

/-- The latest progress and the waiting calls while the rows are read. -/
abbrev Watched := Progress × List (Json × ProviderWait)

/-- `waits[call] = wait` -/
def setWait (waits : List (Json × ProviderWait)) (call : Json) (wait : ProviderWait) :
    List (Json × ProviderWait) :=
  if waits.any fun entry => entry.1.pyEq call then
    waits.map fun entry => if entry.1.pyEq call then (entry.1, wait) else entry
  else waits ++ [(call, wait)]

/-- A proven error of a call makes the call wait. -/
def addWait (row : Obj) (epoch : ℚ) (waits : List (Json × ProviderWait)) :
    Except PyErr (List (Json × ProviderWait)) :=
  if (row.get "call").hashable then
    .ok (setWait waits (row.get "call")
      ⟨epoch, row.get "original_status", row.get "error_type", row.get "error_code"⟩)
  else .error .typeError

/-- A provider error counts when it is proven, names its call and lies within the time of the
generation. -/
def watchError (proven : Bool) (row : Obj) (w : Watched) : Except PyErr Watched :=
  if (row.get "call").truthy && proven then do
    match ← finiteNumber (row.get "epoch") with
    | some epoch =>
      if started ≤ epoch ∧ epoch ≤ now then return (w.1, ← addWait row epoch w.2) else return w
    | none => return w
  else .ok w

/-- `isinstance(end, (int, float)) and end >= epoch` -/
def notBefore (epoch : ℚ) : Json → Bool
  | .float (.inf negative) => !negative
  | v => v.asNumber.any fun n => decide (epoch ≤ n)

/-- Output of a call that waits ends its wait. -/
def endWait (call epoch : Json) (waits : List (Json × ProviderWait)) :
    Except PyErr (List (Json × ProviderWait)) :=
  if !call.hashable then .error .typeError
  else .ok (waits.filter fun entry => !(entry.1.pyEq call && notBefore entry.2.epoch epoch))

/-- The waiting calls after a completed event; only a stream tells whose output it is. -/
def waitsAfter (kind : SourceKind) (call epoch : Json) (waits : List (Json × ProviderWait)) :
    Except PyErr (List (Json × ProviderWait)) :=
  if kind = .stream then endWait call epoch waits else .ok waits

/-- An event is the latest progress when it ends later than what was seen, and not later than the clock
of the observer. -/
def laterProgress (path : Str) (kind : SourceKind) (row : Obj) (eventId : Json) (latest : Progress)
    (n : ℚ) : Progress :=
  if latest.epoch < n ∧ n ≤ now then completedProgress path kind row n eventId else latest

/-- A completed event; one without a finite end is not progress. -/
def watchCompleted (path : Str) (kind : SourceKind) (row : Obj) (epoch eventId : Json) (w : Watched) :
    Except PyErr Watched := do
  let waits ← waitsAfter kind (row.get "call") epoch w.2
  let finish ← finiteNumber epoch
  return (finish.elim w.1 (laterProgress now path kind row eventId w.1), waits)

/-- One row of a source. -/
def watchRow (path : Str) (kind : SourceKind) (row : Obj) (w : Watched) : Except PyErr Watched := do
  match ← rowUse host config path kind row with
  | .ignored => return w
  | .providerError proven => watchError started now proven row w
  | .completed epoch eventId => watchCompleted now path kind row epoch eventId w

/-- One complete line of a source: a line that is no JSON object is skipped. -/
def watchLine (path : Str) (kind : SourceKind) (w : Watched) (line : List Nat) : Except PyErr Watched :=
  match loadsBytes host.toLogHost line with
  | .ok (.dict row) => watchRow host config started now path kind row w
  | .ok _ => .ok w
  | .error .recursionError => .error .recursionError
  | .error _ => .ok w

end Watching

/-- Where the reading of a file goes on: at the cursor of the same file, unless the file is shorter. -/
def SourceFile.position (file : SourceFile) : Option Cursor → Nat
  | some cursor =>
    if cursor.identity = file.identity ∧ cursor.offset ≤ file.bytes.length then cursor.offset else 0
  | none => 0

/-- The complete lines that `incremental_records` reads. -/
def SourceFile.newLines (file : SourceFile) (cursor : Option Cursor) : List (List Nat) :=
  completeLines (file.bytes.drop (file.position cursor))

/-- The cursor after `incremental_records`. -/
def SourceFile.cursorAfter (file : SourceFile) (cursor : Option Cursor) : Cursor :=
  ⟨file.identity, file.position cursor + (file.newLines cursor).flatten.length⟩

section Observing

variable (host : WatchHost) (config : WatchConfig) (started now : ℚ)
variable (files : Str → Option SourceFile)

/-- The loop over the sources: what was watched, and the cursors. -/
structure Scan where
  watched : Watched
  offsets : Str → Option Cursor

/-- One source of the loop; a file that does not exist is skipped. -/
def scanSource (scan : Scan) (source : Str × SourceKind) : Except PyErr Scan :=
  match files source.1 with
  | none => .ok scan
  | some file => do
    let watched ← (file.newLines (scan.offsets source.1)).foldlM
      (watchLine host config started now source.1 source.2) scan.watched
    return ⟨watched, Function.update scan.offsets source.1
      (some (file.cursorAfter (scan.offsets source.1)))⟩

/-- The progress to start from: what the state holds, when it lies between the start and the clock. -/
def cachedProgress (s : WatchState) : Progress :=
  match s.progress with
  | some progress =>
    if started ≤ progress.epoch ∧ progress.epoch ≤ now then progress else .started started
  | none => .started started

/-- `latest_progress(config, started_epoch, now, state)`: the progress, and the state that it leaves. -/
def latestProgress (s : WatchState) : Except PyErr (Progress × WatchState) := do
  let scan ← config.sources.foldlM (scanSource host config started now files)
    ⟨(cachedProgress started now s, s.waits), s.offsets⟩
  return (scan.watched.1, { s with offsets := scan.offsets, waits := scan.watched.2 })

/-- `observe(config, record, now)`: whether the generation has made no progress for too long, and the
record with its progress. -/
def observe (s : WatchState) : Except PyErr (Bool × WatchState) := do
  let (progress, s) ← latestProgress host config started now files s
  return (decide (config.timeout ≤ host.elapsed now progress.epoch),
    { s with progress := some progress })

end Observing

end OpenCollabEval.ProgressWatch
