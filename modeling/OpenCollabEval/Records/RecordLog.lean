import OpenCollabEval.Python.ByteLines
import OpenCollabEval.Python.JsonUnescapedRead
import OpenCollabEval.Python.Utf8

/-!
# Logs of records

Predictions, metrics and events are kept in JSONL files. Three functions append to them, each under
an exclusive lock, and each treats what a torn append left behind in its own way; two strict readers
read them. A file is its bytes; an absent file is an empty one.
-/

open Python

namespace OpenCollabEval

/-- The encodings besides UTF-8 that `json.loads` recognizes in bytes. -/
inductive WideEncoding where
  | utf16
  | utf16be
  | utf16le
  | utf32
  | utf32be
  | utf32le

/-- What the functions on logs take from the interpreter and from their configuration. -/
structure LogHost extends Runtime where
  /-- How deep a value may be nested before `json` raises a `RecursionError`. -/
  depth : Nat
  /-- `CANDIDATE_BYTE_BUDGET.patch_bytes` -/
  patchBytes : Nat
  /-- `data.decode(encoding, "surrogatepass")` -/
  decodeWide : WideEncoding → List Nat → Option Str

/-- `MAX_CANDIDATE_FILE_BYTES`, the bound on files, lines and retained bytes. -/
def maxFileBytes : Nat := 268435456

/-- `MAX_JSONL_RETAINED_ROWS` -/
def maxRetainedRows : Nat := 10000

/-- How a function on a log may fail. -/
inductive LogError where
  /-- `RecordInputLimitError` -/
  | inputLimit
  /-- `RecordInputFormatError` -/
  | inputFormat
  /-- An `OSError` about the size of an output. -/
  | outputLimit
  /-- An `OSError` about a record of an output. -/
  | malformed
  /-- A committed record of the same identity differs. -/
  | conflict
  | raised (e : PyErr)
  deriving DecidableEq

section Records

variable (host : LogHost)

/-- `validate_candidate_record`; the `ValueError` is a `CandidateByteLimitError`. -/
def validateCandidateRecord (row : Obj) : Except PyErr Unit :=
  match row.lookup (lit "model_patch") with
  | some (.str patch) => do ensure ((← patch.encode).length ≤ host.patchBytes)
  | _ => .ok ()

/-- `encode_candidate_jsonl` -/
def encodeCandidateJsonl (row : Obj) : Except PyErr (List Nat) := do
  validateCandidateRecord host row
  let payload ← Str.encode (DumpFormat.plain.dumpsUnescaped (.dict row) ++ lit "\n")
  ensure (payload.length ≤ maxFileBytes)
  return payload

/-- `json.loads(data.decode("utf-8"))`. Bytes that are not UTF-8 count as text that is not JSON, since
every caller handles the two errors alike. -/
def loadsUtf8 (data : List Nat) : Except PyErr Json :=
  match Str.decodeUtf8 false data with
  | some s => loads host.depth s
  | none => .error .jsonDecodeError

/-- `json.detect_encoding`, `none` for UTF-8 without a mark. -/
def detectEncoding (data : List Nat) : Option (Option WideEncoding) :=
  if [0, 0, 0xFE, 0xFF].isPrefixOf data || [0xFF, 0xFE, 0, 0].isPrefixOf data then
    some (some .utf32)
  else if [0xFE, 0xFF].isPrefixOf data || [0xFF, 0xFE].isPrefixOf data then some (some .utf16)
  else if [0xEF, 0xBB, 0xBF].isPrefixOf data then some none
  else
    match data with
    | a :: b :: c :: d :: _ =>
      if a == 0 then some (some (if b == 0 then .utf32be else .utf16be))
      else if b == 0 then some (some (if c == 0 && d == 0 then .utf32le else .utf16le))
      else none
    | [a, b] =>
      if a == 0 then some (some .utf16be) else if b == 0 then some (some .utf16le) else none
    | _ => none

/-- `json.loads(data)` -/
def loadsBytes (data : List Nat) : Except PyErr Json :=
  let decoded :=
    match detectEncoding data with
    | none => Str.decodeUtf8 true data
    | some none => Str.decodeUtf8 true (data.drop 3)
    | some (some encoding) => host.decodeWide encoding data
  match decoded with
  | some s => loads host.depth s
  | none => .error .jsonDecodeError

end Records

section Readers

variable (host : LogHost)

/-- The record of one line. -/
def readRecord (line : List Nat) : Except LogError Obj :=
  match loadsUtf8 host line with
  | .error .jsonDecodeError => .error .inputFormat
  | .error e => .error (.raised e)
  | .ok (.dict row) =>
    match validateCandidateRecord host row with
    | .ok () => .ok row
    | .error .valueError => .error .inputLimit
    | .error e => .error (.raised e)
  | .ok _ => .error .inputFormat

/-- The records of some lines, after `count` records in `retained` bytes. -/
def readRecords (skipBlank : Bool) (count retained : Nat) :
    List (List Nat) → Except LogError (List Obj)
  | [] => .ok []
  | line :: lines =>
    if maxFileBytes < line.length then .error .inputLimit
    else if isBlankLine line then
      if skipBlank then readRecords skipBlank count retained lines else .error .inputFormat
    else do
      let row ← readRecord host line
      if maxRetainedRows < count + 1 || maxFileBytes < retained + line.length then
        throw .inputLimit
      return row :: (← readRecords skipBlank (count + 1) (retained + line.length) lines)

/-- A reader of a log, with its treatment of blank lines. -/
def readLog (skipBlank : Bool) (log : List Nat) : Except LogError (List Obj) :=
  if maxFileBytes < log.length then .error .inputLimit
  else readRecords host skipBlank 0 0 (physicalLines log)

/-- `read_jsonl` of `swe_v1_remote_records`, which refuses blank lines. -/
def readJsonlRemote (log : List Nat) : Except LogError (List Obj) := readLog host false log

/-- `read_jsonl` of `swe_eval_records`, which passes blank lines over. -/
def readJsonlEval (log : List Nat) : Except LogError (List Obj) := readLog host true log

end Readers

section Scans

variable (host : LogHost)

/-- `_row_output_identity` -/
def rowOutputIdentity (row : Obj) : Str × Str × Str :=
  (host.strOrEmpty (row.get "instance_id"), host.strOrEmpty (row.get "record_id"),
    host.strOrEmpty (row.get "patch_sha256"))

/-- Two rows claim the same record. -/
def sameIdentity (row expected : Obj) : Bool :=
  (rowOutputIdentity host row).1 == (rowOutputIdentity host expected).1 &&
    (rowOutputIdentity host row).2.1 == (rowOutputIdentity host expected).2.1

/-- Two rows of the same record agree. -/
def sameRecord (row expected : Obj) : Bool :=
  (rowOutputIdentity host row).2.2 == (rowOutputIdentity host expected).2.2 &&
    (Json.dict row).pyEq (.dict expected)

/-- Whether some lines hold an expected record, and whether the last one is torn. -/
def scanCommitted (expected : Obj) (found : Bool) :
    List (List Nat) → Except LogError (Bool × Bool)
  | [] => .ok (found, false)
  | line :: lines =>
    let terminated := line.getLast? == some 10
    let content := if terminated then line.dropLast else line
    if maxFileBytes < line.length then .error .outputLimit
    else if isBlankLine content then .error .malformed
    else
      match loadsUtf8 host content with
      | .error .jsonDecodeError =>
        if !terminated && lines.isEmpty then .ok (found, true) else .error .malformed
      | .error e => .error (.raised e)
      | .ok (.dict row) =>
        if !sameIdentity host row expected then scanCommitted expected found lines
        else if sameRecord host row expected then scanCommitted expected true lines
        else .error .conflict
      | .ok _ => .error .malformed

/-- `_find_committed_identity`: whether a log holds an expected record, and the log without a torn
tail. -/
def findCommittedIdentity (log : List Nat) (expected : Obj) :
    Except LogError (List Nat × Bool) :=
  if maxFileBytes < log.length then .error .outputLimit
  else do
    let (found, torn) ← scanCommitted host expected false (byteLines log)
    return (if torn then terminatedPart log else log, found)

/-- A line without its end. -/
def lineContent (line : List Nat) : List Nat := line.rdropWhile fun b => b == 10 || b == 13

/-- Whether some lines hold a row; lines that are no records are passed over. -/
def scanExisting (row : Obj) : List (List Nat) → Except LogError Bool
  | [] => .ok false
  | line :: lines =>
    match loadsBytes host (lineContent line) with
    | .error .jsonDecodeError => scanExisting row lines
    | .error e => .error (.raised e)
    | .ok (.dict existing) =>
      if (Obj.get existing "instance_id").pyEq (row.get "instance_id") &&
          (Obj.get existing "record_id").pyEq (row.get "record_id") then
        if (Json.dict existing).pyEq (.dict row) then .ok true else .error .conflict
      else scanExisting row lines
    | .ok _ => scanExisting row lines

/-- `v is None` -/
def isNone : Json → Bool
  | .null => true
  | _ => false

/-- `_existing_output_record` -/
def existingOutputRecord (log : List Nat) (row : Obj) : Except LogError Bool :=
  if isNone (row.get "instance_id") || isNone (row.get "record_id") then .ok false
  else scanExisting host row (byteLines (log.take (maxFileBytes + 1)))

end Scans

section Writers

variable (host : LogHost)

/-- What an append does to a log: the bytes that it starts from, and those that it then writes, `none`
when the record is already there. -/
structure PlannedAppend where
  base : List Nat
  bytes : Except LogError (Option (List Nat))

/-- The line feed that ends an unterminated line. -/
def separator (log : List Nat) : List Nat :=
  if !log.isEmpty && log.getLast? != some 10 then [10] else []

/-- The bytes of a new record, within the bound of the file. -/
def boundedAppend (error : LogError) (log payload : List Nat) : Except LogError (Option (List Nat)) :=
  if maxFileBytes < log.length + (separator log).length + payload.length then .error error
  else .ok (some (separator log ++ payload))

/-- The bytes of a row. -/
def recordPayload (error : LogError) (row : Obj) : Except LogError (List Nat) := do
  let payload ← (encodeCandidateJsonl host row).mapError LogError.raised
  if maxFileBytes < payload.length then throw error
  return payload

/-- `append_jsonl` -/
def appendJsonl (log : List Nat) (row : Obj) : PlannedAppend where
  base := log
  bytes := do
    let payload ← recordPayload host .inputLimit row
    boundedAppend .inputLimit log payload

/-- `_append_jsonl_durable` -/
def appendJsonlDurable (log : List Nat) (row : Obj) : PlannedAppend where
  base := log
  bytes := do
    let payload ← recordPayload host .outputLimit row
    if ← existingOutputRecord host log row then return none
    boundedAppend .outputLimit log payload

/-- `_append_jsonl_durable_once` -/
def appendJsonlDurableOnce (log : List Nat) (row : Obj) : PlannedAppend :=
  match recordPayload host .outputLimit row with
  | .error e => { base := log, bytes := .error e }
  | .ok payload =>
    match findCommittedIdentity host log row with
    | .error e => { base := log, bytes := .error e }
    | .ok (base, found) =>
      { base, bytes := if found then .ok none else boundedAppend .outputLimit base payload }

/-- The functions that append to a log. -/
inductive LogWriter where
  | jsonl
  | durable
  | durableOnce
  deriving DecidableEq

def LogWriter.plan : LogWriter → List Nat → Obj → PlannedAppend
  | .jsonl => appendJsonl host
  | .durable => appendJsonlDurable host
  | .durableOnce => appendJsonlDurableOnce host

end Writers

section Runs

variable (host : LogHost)

/-- A call of a writer with a row that `json` can write. -/
structure LogCall where
  writer : LogWriter
  row : Obj
  readable : (Json.dict row).Readable host.depth
  /-- After how many of its bytes the call is cut off, if it is. -/
  cut : Option Nat

/-- A log, and what its writers have reported. -/
structure LogState where
  log : List Nat
  /-- The records that completed appends wrote, in order. -/
  written : List Obj
  /-- The records that completed appends found already there. -/
  present : List Obj
  /-- The last call completed. -/
  completed : Bool

def LogState.init : LogState where
  log := []
  written := []
  present := []
  completed := false

variable {host}

/-- One call on a log. -/
def LogState.step (s : LogState) (call : LogCall host) : LogState :=
  let plan := call.writer.plan host s.log call.row
  match plan.bytes, call.cut with
  | .error _, _ => { s with log := plan.base, completed := false }
  | .ok none, some _ => { s with log := plan.base, completed := false }
  | .ok none, none =>
    { s with log := plan.base, present := s.present ++ [call.row], completed := true }
  | .ok (some bytes), some cut =>
    { s with log := plan.base ++ bytes.take cut, completed := false }
  | .ok (some bytes), none =>
    { s with log := plan.base ++ bytes, written := s.written ++ [call.row], completed := true }

/-- A sequence of calls on a log. -/
def LogState.run (s : LogState) (calls : List (LogCall host)) : LogState :=
  calls.foldl LogState.step s

end Runs

end OpenCollabEval
