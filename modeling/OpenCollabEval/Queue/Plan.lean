import OpenCollabEval.Env
import OpenCollabEval.Evaluation.RecordIdentity
import OpenCollabEval.Python.Path

/-!
# Plans of the eval-only queue

A plan lists candidates that are to be evaluated again. Reading it checks every job, refuses a second
job for a route or a candidate, and puts the digests in lower case.
-/

open Python

namespace OpenCollabEval

/-- What reading a plan takes from its host. -/
structure QueueHost where
  /-- Whether a path is a directory. -/
  isDirectory : Str → Bool
  /-- `float(value)`. -/
  float : Json → Option PyFloat

/-- One job of a plan. -/
structure Job where
  index : Int
  parentOutputDir : Str
  baseRunDir : Str
  sourceBaseRunDir : Str
  remoteRuntimeRepo : Str
  runId : Str
  evalDirName : Str
  task : Str
  recordId : Str
  sourcePatchSha256 : Str
  evalPatchSha256 : Str
  evalTimeout : Option Int
  deriving DecidableEq

/-- The fields of a candidate. -/
abbrev CandidateIdentity := Str × Str × Str × Str

/-- The candidate of a job, with the digests as they are. -/
def Job.candidate (job : Job) : CandidateIdentity :=
  (job.task, job.recordId, job.sourcePatchSha256, job.evalPatchSha256)

/-- The job with its digests in lower case. -/
def Job.normalized (job : Job) : Job :=
  { job with
    sourcePatchSha256 := lowerHex job.sourcePatchSha256
    evalPatchSha256 := lowerHex job.evalPatchSha256 }

/-- `_job_identity`. -/
def jobIdentity (job : Job) : CandidateIdentity :=
  (job.task, job.recordId, lowerHex job.sourcePatchSha256, lowerHex job.evalPatchSha256)

/-- The text that a job key is the digest of. -/
def jobKeyText (job : Job) : Str :=
  let identity := jobIdentity job
  Str.join [0] [identity.1, identity.2.1, identity.2.2.1, identity.2.2.2]

/-- The options that the queue sets itself. -/
def blockedRunnerOptions : List Str := lits
  ["--base-run-dir", "--eval-dir-name", "--eval-only", "--eval-only-source-base-run-dir",
    "--json-output", "--limit", "--markdown-output", "--max-empty-patch-retries",
    "--max-task-starts", "--parent-output-dir", "--remote-runtime-repo", "--run-id",
    "--start-index"]

/-- A plan after it was read. -/
structure QueuePlan where
  runnerArgs : List Str
  jobs : List Job
  deriving DecidableEq

/-- The integer that a float is. -/
def integerOfFloat : PyFloat → Option Int
  | .finite negative significand exponent _ =>
    let sign : Int := if negative then -1 else 1
    if 0 ≤ exponent then some (sign * (significand * 2 ^ exponent.toNat))
    else if significand % 2 ^ (-exponent).toNat = 0 then
      some (sign * (significand / 2 ^ (-exponent).toNat : Nat))
    else none
  | _ => none

/-- `[A-Za-z0-9][A-Za-z0-9._-]{0,127}`, matched in full. -/
def isRunId (s : Str) : Bool :=
  s.head?.any Str.isAsciiAlnum && s.length ≤ 128 &&
    s.all fun c => Str.isAsciiAlnum c || c == 46 || c == 95 || c == 45

/-- A nonempty text of at most 256 bytes. -/
def boundedText (value : Json) : Except PyErr Str := do
  let text ← orValueError value.asStr
  ensure !text.isEmpty
  ensure ((← text.encode).length ≤ 256)
  return text

/-- A text that starts with a slash. -/
def workerPath (value : Json) : Except PyErr Str := do
  let path ← orValueError value.asStr
  ensure (path.startsWith "/")
  return path

/-- A digest, in lower or upper case. -/
def digestText (value : Json) : Except PyErr Str := do
  let digest ← orValueError value.asStr
  ensure (isSha256 digest)
  return digest

section Reading

variable (env : Env) (host : QueueHost)

/-- `_job_key`. -/
def jobKey (job : Job) : Str := (env.sha256 (jobKeyText job).encodeSurrogatePass).take 16

/-- A positive finite number of seconds. -/
def positiveFiniteTimeout (value : Json) : Except PyErr PyFloat := do
  ensure !(value matches .bool _)
  let timeout ← orValueError (host.float value)
  match timeout with
  | .finite false significand _ _ => if significand = 0 then throw .valueError else return timeout
  | _ => throw .valueError

/-- A positive integer number of seconds. -/
def positiveIntegerTimeout (value : Json) : Except PyErr Int := do
  orValueError (integerOfFloat (← positiveFiniteTimeout host value))

/-- The timeout of a job, if it has one. -/
def optionalTimeout : Json → Except PyErr (Option Int)
  | .null => .ok none
  | value => (positiveIntegerTimeout host value).map some

/-- The values of `--eval-timeout` among the arguments of the runner. -/
def runnerTimeoutValues : List Str → Except PyErr (List Str)
  | [] => .ok []
  | item :: rest =>
    if item = lit "--eval-timeout" then
      match rest with
      | [] => .error .valueError
      | value :: rest => (runnerTimeoutValues rest).map (value :: ·)
    else if item.startsWith "--eval-timeout=" then
      (runnerTimeoutValues rest).map (item.drop 15 :: ·)
    else runnerTimeoutValues rest

/-- `_runner_eval_timeout`: every value is checked. -/
def runnerEvalTimeout (runnerArgs : List Str) : Except PyErr (Option Int) := do
  let values ← runnerTimeoutValues runnerArgs
  let timeouts ← values.mapM fun value => positiveIntegerTimeout host (.str value)
  return timeouts.getLast?

/-- `_absolute_directory`. -/
def absoluteDirectory (value : Json) : Except PyErr Str := do
  let text ← orValueError value.asStr
  ensure (!text.isEmpty && !text.any (· == 0))
  let path := PosixPath.ofStr text
  ensure path.isAbsolute
  ensure (host.isDirectory path.asPosix)
  return path.asPosix

/-- A job as the plan writes it, checked on its own. -/
def readJob (raw : Json) : Except PyErr Job := do
  let raw ← orValueError raw.asDict
  let index ← orValueError (Obj.get raw "index").asInt
  ensure (1 ≤ index)
  let parent ← absoluteDirectory host (Obj.get raw "parent_output_dir")
  let baseRunDir ← workerPath (Obj.get raw "base_run_dir")
  let sourceBaseRunDir ← workerPath (Obj.getOr raw "source_base_run_dir" (.str baseRunDir))
  let remoteRuntimeRepo ← workerPath (Obj.get raw "remote_runtime_repo")
  let runId ← orValueError (Obj.get raw "run_id").asStr
  ensure (isRunId runId)
  let evalDirName ← orValueError (Obj.get raw "eval_dir_name").asStr
  ensure (!evalDirName.isEmpty && !evalDirName.any (· == 47) &&
    !(lits [".", ".."]).contains evalDirName)
  let evalTimeout ← optionalTimeout host (Obj.get raw "eval_timeout")
  let task ← boundedText (Obj.get raw "task")
  let recordId ← boundedText (Obj.get raw "record_id")
  let sourcePatchSha256 ← digestText (Obj.get raw "source_patch_sha256")
  let evalPatchSha256 ← digestText (Obj.get raw "eval_patch_sha256")
  return ⟨index, parent, baseRunDir, sourceBaseRunDir, remoteRuntimeRepo, runId, evalDirName, task,
    recordId, sourcePatchSha256, evalPatchSha256, evalTimeout⟩

/-- The jobs of a plan: none has the route or the candidate of an earlier one. -/
def readJobs (seen : List Job) : List Json → Except PyErr (List Job)
  | [] => .ok []
  | raw :: rest => do
    let job ← readJob host raw
    ensure (seen.all fun other =>
      !((other.parentOutputDir, other.index) == (job.parentOutputDir, job.index)))
    ensure (seen.all fun other => !(other.candidate == job.candidate))
    return job.normalized :: (← readJobs (seen ++ [job]) rest)

/-- `_read_plan`. -/
def readPlan (value : Obj) : Except PyErr QueuePlan := do
  ensure ((value.get "schema").eqStr "opencollab.eval_only_queue.v1")
  let items ← orValueError (value.get "runner_args").asList
  let runnerArgs ← orValueError (Json.asStrs items)
  let _ ← runnerEvalTimeout host runnerArgs
  ensure (runnerArgs.all fun item => !blockedRunnerOptions.contains (Str.before item "="))
  let jobs ← orValueError (value.get "jobs").asList
  ensure !jobs.isEmpty
  return ⟨runnerArgs, ← readJobs host [] jobs⟩

end Reading

end OpenCollabEval
