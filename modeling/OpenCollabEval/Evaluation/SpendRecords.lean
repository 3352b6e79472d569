import OpenCollabEval.Evaluation.RecordIdentity
import OpenCollabEval.Python.Conversion
import OpenCollabEval.Python.FloatArithmetic
import OpenCollabEval.Python.Path
import OpenCollabEval.Python.Pattern
import OpenCollabEval.Python.Runtime

/-!
# Workflow records and API usage

The records of a workflow that stand behind a row of a report, and the group of API calls that a
record is most likely charged for: the group with the same tokens that the path, the time and the
number of calls speak for.
-/

open Python

namespace OpenCollabEval.Spend

/-- What the report gets from outside: the interpreter, and the logs that it can read. -/
structure Host where
  runtime : Runtime
  /-- `unicodedata.decimal`. -/
  decimal : Nat → Option Nat
  /-- `float(text)`. -/
  floatText : Str → Option PyFloat
  /-- `round(x, 8)`. -/
  roundEight : PyFloat → PyFloat
  /-- The text of a log, `none` when it cannot be read. -/
  readLog : Str → Option Str

/-- A value that stands for another one when it is false. -/
def orValue (v default : Json) : Json := if v.truthy then v else default

/-- `value if isinstance(value, dict) else {}` -/
def dictOrEmpty (v : Json) : Obj := v.asDict.getD []

/-- The dicts among the values that `for … in value or []` gives. -/
def dictItems (v : Json) : Except PyErr (List Obj) :=
  if !v.truthy then .ok []
  else
    match v with
    | .list items => .ok (items.filterMap Json.asDict)
    -- the code points of a string and the keys of a dict are no dicts
    | .str _ | .dict _ => .ok []
    | _ => .error .typeError

section Records

variable (host : Host)

/-- `WORKFLOW_RE` -/
def workflowLine : Pattern :=
  let number (n : Nat) : Pattern := .group n (.plus (.chars fun c => (host.decimal c).isSome))
  .concat [.text "workflow: tokens=", number 1, .text " steps=", number 2, .text " duration=",
    number 3, .text "s error=", .group 4 (.plus (.chars (· != 10)))]

/-- The record of a line of a log. -/
def logRecord (path : Str) (found : Cursor) : Except PyErr Obj := do
  let tokens ← (Json.str (found.group 1)).toInt host.decimal
  let steps ← (Json.str (found.group 2)).toInt host.decimal
  let duration ← (Json.str (found.group 3)).toInt host.decimal
  return Obj.of [("path", .str path), ("tokens", .int tokens), ("steps", .int steps),
    ("duration_s", .int duration), ("error", .str (found.group 4).strip)]

/-- `_read_workflow_records_from_log(path)` -/
def readWorkflowRecordsFromLog (path : Json) : Except PyErr (List Obj) :=
  if !path.truthy then .ok []
  else
    match path with
    | .str s =>
      let text := (PosixPath.ofStr s).asPosix
      match host.readLog text with
      | none => .ok []
      | some log => ((workflowLine host).finditer log).mapM (logRecord host text)
    | _ => .error .typeError

/-- `_load_workflow_records(token_cost)` -/
def loadWorkflowRecords (tokenCost : Obj) : Except PyErr (List Obj) :=
  dictItems (Obj.get (dictOrEmpty (tokenCost.get "workflow")) "records")

/-- The generation of a row. -/
def generationOf (row : Obj) : Obj := dictOrEmpty (row.get "generation")

/-- `_task_workflow_records(row, token_cost)` -/
def taskWorkflowRecords (tokenCost row : Obj) : Except PyErr (List Obj) := do
  let generation := generationOf row
  let logPath := generation.get "log"
  let loaded ← loadWorkflowRecords tokenCost
  let records := loaded.filter fun record => logPath.truthy && (Obj.get record "path").pyEq logPath
  if !records.isEmpty then return records
  else if !(generation.get "tokens_used" matches .null) then
    return [Obj.of [("path", logPath), ("tokens", generation.get "tokens_used"),
      ("steps", generation.get "steps"), ("duration_s", generation.get "duration_s"),
      ("error", .null)]]
  else readWorkflowRecordsFromLog host logPath

/-- `_task_key(row)` -/
def taskKey (row : Obj) : Str := (directPayloadTaskId (.dict row)).getD []

/-- `_api_groups(token_cost)` -/
def apiGroups (tokenCost : Obj) : Except PyErr (List Obj) :=
  dictItems (Obj.get (dictOrEmpty (tokenCost.get "api_usage")) "groups")

end Records

section Scores

variable (host : Host)

/-- `_strip_api_usage_suffix(path)` -/
def stripApiUsageSuffix (path : Str) : Str :=
  let long := lit "/_runtime/repo/.opencollab/logs/api_usage.jsonl"
  let short := lit "/api_usage.jsonl"
  if path.endsWith long then path.take (path.length - long.length)
  else if path.endsWith short then path.take (path.length - short.length)
  else path

/-- The root directory of a group. -/
def groupRoot (group : Obj) : Str :=
  stripApiUsageSuffix (host.runtime.strOrEmpty (group.get "api_usage_path"))

/-- `/task_\d+(?:/|$)` -/
def taskDirectory : Pattern :=
  .concat [.text "/task_", .plus (.chars fun c => (host.decimal c).isSome),
    .alt (.text "/") (.look fun _ rest => rest.isEmpty || rest == [10])]

/-- `group_root[: task_match.end() - 1]` for the first match. -/
def taskRoot (root : Str) : Option Str :=
  ((taskDirectory host).finditer root).head?.map fun found =>
    root.take (root.length - found.rest.length - 1)

/-- `_path_match_score(record, group)` for the path of a record. -/
def pathMatchScore (path : Json) (group : Obj) : Nat :=
  let recordPath := host.runtime.strOrEmpty path
  let root := groupRoot host group
  let parent :=
    if recordPath.contains "/generation_logs/" then
      (PosixPath.ofStr recordPath).parent.parent.asPosix
    else []
  if recordPath.isEmpty || root.isEmpty then 0
  else if recordPath.startsWith (root ++ lit "/") then 40
  else if !parent.isEmpty && parent.startsWith (root ++ lit "/") then 30
  else if (taskRoot host root).any recordPath.contains then 20
  else 0

/-- `float(value or 0)` -/
def floatOrZero (v : Json) : Except PyErr PyFloat :=
  match orValue v (.int 0) with
  | .bool b => PyFloat.ofInt (if b then 1 else 0)
  | .int n => PyFloat.ofInt n
  | .float x => .ok x
  | .str s => orValueError (host.floatText s)
  | .null | .list _ | .dict _ => .error .typeError

/-- `int(value or 0)` -/
def intOrZero (v : Json) : Except PyErr Int := (orValue v (.int 0)).toInt host.decimal

/-- The value of a computation, `none` after a `TypeError` or a `ValueError`. -/
def caught {α : Type} : Except PyErr α → Except PyErr (Option α)
  | .ok a => .ok (some a)
  | .error .typeError | .error .valueError => .ok none
  | .error e => .error e

/-- The times that `_time_match_score` compares. -/
def matchTimes (record group : Obj) : Except PyErr (PyFloat × PyFloat × PyFloat) := do
  let mtime ← floatOrZero host (record.get "mtime")
  let first ← floatOrZero host (group.get "first_timestamp")
  let last ← floatOrZero host (group.get "last_timestamp")
  return (mtime, first, last)

/-- `_time_match_score(record, group)` -/
def timeMatchScore (record group : Obj) : Except PyErr Nat := do
  match ← caught (matchTimes host record group) with
  | none => return 0
  | some (mtime, first, last) =>
    if !mtime.truthy || !first.truthy || !last.truthy then return 0
    else
      let duration := (← floatOrZero host (record.get "duration_s")).maxZero
      let earliest := first.add (.ofRat (-600))
      let latest := (last.add duration).add (.ofRat 600)
      return if earliest.le mtime && mtime.le latest then 5 else 0

/-- The steps of a record and the calls of a group. -/
def stepsAndCalls (record group : Obj) : Except PyErr (Int × Int) := do
  let steps ← intOrZero host (record.get "steps")
  let calls ← intOrZero host (group.get "calls")
  return (steps, calls)

/-- `_candidate_score(record, group)` -/
def candidateScore (record group : Obj) : Except PyErr Nat := do
  let time ← timeMatchScore host record group
  let score := pathMatchScore host (record.get "path") group + time
  match ← caught (stepsAndCalls host record group) with
  | some (steps, calls) => return if steps ≠ 0 ∧ calls = steps then score + 100 else score
  | none => return score

/-- The groups with some tokens that are not charged yet, each with its score. -/
def candidates (record : Obj) (tokens : Int) (used : List Nat) :
    List (Obj × Nat) → Except PyErr (List (Nat × Nat))
  | [] => .ok []
  | (group, index) :: rest => do
    if index ∈ used then candidates record tokens used rest
    else if (← intOrZero host (group.get "total_tokens")) ≠ tokens then
      candidates record tokens used rest
    else
      let score ← candidateScore host record group
      return (index, score) :: (← candidates record tokens used rest)

/-- The candidate with the highest score, when there is one such candidate and its score is not
zero. -/
def bestCandidate (found : List (Nat × Nat)) : Option Nat × Str :=
  match found.insertionSort fun a b => b.2 ≤ a.2 with
  | [] => (none, "no_api_usage_group")
  | best :: rest =>
    if best.2 = 0 then (none, "insufficient_api_usage_context")
    else if rest.head?.any fun next => next.2 == best.2 then (none, "ambiguous_api_usage_group")
    else (some best.1, "matched_by_context")

/-- `_match_group(record, groups, used)` -/
def matchGroup (record : Obj) (groups : List Obj) (used : List Nat) :
    Except PyErr (Option Nat × Str) := do
  let tokens ← intOrZero host (record.get "tokens")
  let found ← candidates host record tokens used groups.zipIdx
  return bestCandidate found

end Scores

end OpenCollabEval.Spend
