import OpenCollabEval.Env
import OpenCollabEval.Evaluation.RecordIdentity
import OpenCollabEval.Python.Conversion
import OpenCollabEval.Python.Lines
import OpenCollabEval.Python.Path

/-!
# Configuration of a remote runner

The controller sends one payload to the remote host. `configure` checks it there and installs the
values that the run works with, most of them clamped, stripped or completed by a default.
-/

open Python

namespace OpenCollabEval

/-- What reading the remote API environment file gives. -/
structure RemoteApiEnvironment where
  token : Str
  networkEnv : List (Str × Str)

/-- What a runner finds on its host. -/
structure RunnerHost where
  /-- `unicodedata.decimal`. -/
  decimal : Nat → Option Nat
  /-- The working directory, an absolute path. -/
  cwd : PosixPath
  /-- `opencollab.profiles.resolve_profile_name`. -/
  resolveProfileName : Json → Except PyErr Json
  /-- The environment variable that names a scoring adapter registry. -/
  registryEnv : Option Str
  /-- The first registry file beside the engine, if there is one. -/
  registryFile : Option Str
  /-- `read_remote_api_environment`. -/
  readRemoteApiEnvironment : Str → Except PyErr RemoteApiEnvironment

/-- `str(v or default)` -/
def Env.strOr (env : Env) (v : Json) (default : Str) : Str := if v.truthy then env.str v else default

/-- `pathlib.Path(v)`, which takes texts only. -/
def pathOf : Json → Except PyErr PosixPath
  | .str s => .ok (PosixPath.ofStr s)
  | _ => .error .typeError

section Configure

variable (env : Env) (host : RunnerHost) (config : Obj)

/-- The fields that must not be blank. -/
def requiredFields : List Str :=
  lits ["owner_nonce", "remote_root", "remote_repo", "base_run_dir", "workflow", "model_name",
    "session_prefix", "image_repository", "remote_proxy_base_url"]

/-- The transport and the two ways to a token, as the payload gives them. -/
structure Connection where
  transport : Str
  envFile : Str
  token : Str

/-- The payload's way to the model, checked against the transport, with no required field blank. -/
def checkConnection : Except PyErr Connection := do
  let evalOnly := (config.getOr "eval_only" (.bool false)).truthy
  let missing := requiredFields.filter fun name =>
    (Str.strip (env.strOrEmpty (config.get name))).isEmpty
  let envFile := Str.strip (env.strOrEmpty (config.get "remote_api_env_file"))
  let token := Str.strip (env.strOrEmpty (config.get "token"))
  let transport := env.strOr (config.get "llm_transport") "reverse_proxy"
  if transport == lit "direct" then
    ensure token.isEmpty
    ensure (evalOnly || !envFile.isEmpty)
  else
    ensure envFile.isEmpty
    ensure (evalOnly || !token.isEmpty)
  ensure missing.isEmpty
  return { transport, envFile, token }

/-- `value in (None, "")` -/
def isUnset (value : Json) : Bool := value.pyEq .null || value.eqStr []

/-- The registry path of a payload, of the environment or beside the engine. -/
def configuredRegistryPath (value : Json) : Except PyErr (Option PosixPath) :=
  let configured := if isUnset value then host.registryEnv.elim .null Json.str else value
  if isUnset configured then .ok (host.registryFile.map PosixPath.ofStr)
  else do
    let text ← orValueError configured.asStr
    ensure (!(Str.strip text).isEmpty)
    let path := PosixPath.ofStr text
    ensure path.isAbsolute
    return some path

/-- The configuration that is installed: the payload with its registry resolved. -/
def installedConfig : Except PyErr Obj := do
  let registry ← configuredRegistryPath host (config.get "scoring_adapter_registry")
  return config.set "scoring_adapter_registry" (.str (registry.elim [] PosixPath.asPosix))

/-- The token and the network settings, read from the host when the payload says so. -/
def readApi (connection : Connection) : Except PyErr RemoteApiEnvironment :=
  if !connection.envFile.isEmpty && !(config.getOr "eval_only" (.bool false)).truthy then
    host.readRemoteApiEnvironment connection.envFile
  else .ok { token := connection.token, networkEnv := [] }

/-- `resolve_solver_agent_profile` -/
def resolveSolverAgentProfile (workflow profile : Json) : Except PyErr Json :=
  if workflow.eqStr "single2" then host.resolveProfileName (.str "single2")
  else if workflow.pyEq .null || workflow.eqStr "single-agent" then host.resolveProfileName profile
  else if profile.pyEq .null then .ok .null
  else host.resolveProfileName profile

/-- `(v or {}).items()` -/
def itemsOf (v : Json) : Except PyErr Obj :=
  if !v.truthy then .ok []
  else match v with
    | .dict entries => .ok entries
    | _ => .error .attributeError

/-- The entries of a dict as texts. -/
def textItems (v : Json) : Except PyErr (List (Str × Str)) := do
  return (← itemsOf v).map fun entry => (entry.1, env.str entry.2)

/-- The workflow variables that a payload may set. -/
def allowedWorkflowEnv : List Str :=
  lits ["OPENCOLLAB_G11_ROLE_BUDGET", "OPENCOLLAB_VALIDATION_COUNCIL_ROLE_BUDGET",
    "OPENCOLLAB_VALIDATION_COUNCIL_MAX_CODER_ROUNDS", "OPENCOLLAB_EVAL_REPOSITORY_MAP_BYTES",
    "OPENCOLLAB_EVAL_WORKFLOW_CONCURRENCY", "OPENCOLLAB_EVAL_NO_PROGRESS_TIMEOUT",
    "OPENCOLLAB_EVAL_GENERATION_WALL_TIMEOUT", "OPENCOLLAB_EVAL_CONTROLLER_WALL_TIMEOUT",
    "OPENCOLLAB_EVAL_MODEL_PROGRESS_PATH", "OPENCOLLAB_UNBOUNDED_LIMITS",
    "OPENCOLLAB_EXTERNAL_PROVIDER_ISOLATION", "OPENCOLLAB_DOCKER_ARCHIVE_TRANSPORT",
    "OPENCOLLAB_MAX_OUTPUT_TOKENS", "OPENCOLLAB_TEMPERATURE", "OPENCOLLAB_THINKING",
    "OPENCOLLAB_THINKING_PARAMS", "OPENCOLLAB_TOP_P", "OPENCOLLAB_WIRE_PROTOCOL",
    "OPENCOLLAB_REASONING_EFFORT", "OPENCOLLAB_TRUST_STREAMED_OUTPUT_ON_TERMINAL_MISMATCH",
    "OPENCOLLAB_LLM_MAX_RETRIES", "OPENCOLLAB_PROVIDER_ERROR_TIME_BUDGET",
    "OPENCOLLAB_LLM_CONNECT_TIMEOUT", "OPENCOLLAB_LLM_FIRST_EVENT_TIMEOUT",
    "OPENCOLLAB_LLM_STREAM_IDLE_TIMEOUT", "OPENCOLLAB_LLM_USER_AGENT",
    "OPENCOLLAB_WORKSPACE_ARCHIVE_TIMEOUT", "OPENCOLLAB_PUBLIC_PREPARATION_TIMEOUT_SECONDS",
    "OPENCOLLAB_CLAUDE_EXPECTED_MODEL", "OPENCOLLAB_CLAUDE_EXPECTED_VERSION",
    "OPENCOLLAB_CLAUDE_RUNTIME_IMAGE", "OPENCOLLAB_CLAUDE_RUNTIME_IMAGE_ID"]

/-- `normalize_llm_user_agent` -/
def normalizeLlmUserAgent (value : Str) : Except PyErr Str := do
  let value := Str.strip value
  ensure ((← value.encode).length ≤ 256)
  ensure (value.all fun c => 32 ≤ c && c ≤ 126)
  return value

/-- The workflow variables, with the user agent normalized. -/
def readWorkflowEnv : Except PyErr (List (Str × Str)) := do
  let workflowEnv ← textItems env (config.get "workflow_env")
  ensure (workflowEnv.all fun entry => allowedWorkflowEnv.contains entry.1)
  workflowEnv.mapM fun entry => do
    if entry.1 == lit "OPENCOLLAB_LLM_USER_AGENT" then
      return (entry.1, ← normalizeLlmUserAgent entry.2)
    else return entry

/-- The digest of a command, empty when there is no command. -/
def openhandsCommandDigest (command : Str) : Except PyErr Str :=
  if command.isEmpty then .ok [] else command.encode.map env.sha256

/-- How the solver is run. -/
structure SolverSettings where
  workflow : Str
  agentProfile : Json
  workflowEnv : List (Str × Str)
  openhandsCommandSha256 : Str
  openhandsEmptyPatchRejections : Int
  maxEmptyPatchRetries : Int

def readSolver : Except PyErr SolverSettings := do
  let workflow := env.str (← config.index "workflow")
  let agentProfile ← resolveSolverAgentProfile host (.str workflow) (config.get "agent_profile")
  let workflowEnv ← readWorkflowEnv env config
  let command := env.strOrEmpty (config.get "openhands_command")
  let commandDigest ← openhandsCommandDigest env command
  let rejections ← (config.getOr "openhands_empty_patch_rejections" (.int 2)).toInt host.decimal
  let retries ← (config.getOr "max_empty_patch_retries" (.int 1)).toInt host.decimal
  return {
    workflow
    agentProfile
    workflowEnv
    openhandsCommandSha256 := commandDigest
    openhandsEmptyPatchRejections := max 0 rejections
    maxEmptyPatchRetries := min 1 (max 0 retries)
  }

/-- Which model is called, and how. -/
structure ModelSettings where
  modelName : Str
  llmModel : Str
  llmProvider : Str
  llmTransport : Str
  remoteProxyBaseUrl : Str
  contextWindow : Json
  temperature : Json
  topP : Json
  maxOutputTokens : Json

/-- `is_kimi_direct_model` -/
def isKimiDirectModel (model : Str) : Bool :=
  (lits ["k3", "kimi-for-coding"]).contains (Str.strip model)

def kimiCodingBaseUrl : Str := "https://api.kimi.com/coding/v1"

def readModel (transport : Str) : Except PyErr ModelSettings := do
  let modelName := env.str (← config.index "model_name")
  let llmModel := env.strOrEmpty (config.get "llm_model")
  let llmProvider := env.strOrEmpty (config.get "llm_provider")
  let baseUrl := Str.rstripOf (· == 47) (env.str (← config.index "remote_proxy_base_url"))
  ensure ((lits ["direct", "reverse_proxy"]).contains transport)
  if transport == lit "direct" then
    ensure (llmProvider == lit "openai" && isKimiDirectModel llmModel)
    ensure (baseUrl == kimiCodingBaseUrl)
  return {
    modelName
    llmModel
    llmProvider
    llmTransport := transport
    remoteProxyBaseUrl := baseUrl
    contextWindow := config.get "context_window"
    temperature := config.get "temperature"
    topP := config.get "top_p"
    maxOutputTokens := config.get "max_output_tokens"
  }

/-- What names one run. -/
structure RunIdentity where
  invocationId : Str
  runId : Str
  runtimeTreeSha256 : Str

/-- `[0-9a-f]{32}` -/
def isInvocationId (s : Str) : Bool := s.length == 32 && s.all isLowerHex

def readRunIdentity : Except PyErr RunIdentity := do
  let invocationId := Str.strip (env.strOrEmpty (config.get "invocation_id"))
  ensure (isInvocationId invocationId)
  let runId := Str.strip (env.strOrEmpty (config.get "run_id"))
  let runtimeTreeSha256 := Str.strip (env.strOrEmpty (config.get "runtime_tree_sha256"))
  ensure (runtimeTreeSha256.isEmpty || isLowerSha256 runtimeTreeSha256)
  return { invocationId, runId, runtimeTreeSha256 }

/-- How far a run may go. -/
structure RunLimits where
  startIndex : Int
  limit : Int
  budget : Int
  maxSteps : Int
  sweTimeout : Int
  taskWallTimeout : Int
  evalTimeout : Int
  evalContainerBindTimeout : Int
  checkpointInterval : Int
  maxTaskStarts : Int
  maxEvalAttempts : Int

/-- `int(cfg[key])` -/
def intAt (key : Str) : Except PyErr Int := do (← config.index key).toInt host.decimal

def readLimits : Except PyErr RunLimits := do
  let startIndex ← intAt host config "start_index"
  let limit ← intAt host config "limit"
  let budget ← intAt host config "budget"
  let maxSteps ← intAt host config "max_steps"
  let sweTimeout ← intAt host config "swe_timeout"
  let taskWallTimeout ← intAt host config "task_wall_timeout"
  let evalTimeout ← intAt host config "eval_timeout"
  let evalContainerBindTimeout ←
    (config.getOr "eval_container_bind_timeout" (.int 120)).toInt host.decimal
  ensure (0 < evalContainerBindTimeout && evalContainerBindTimeout ≤ 300)
  let checkpointInterval ← intAt host config "checkpoint_interval"
  let maxTaskStarts ← intAt host config "max_task_starts"
  let maxEvalAttempts ← (config.getOr "max_eval_attempts" (.int 2)).toInt host.decimal
  return {
    startIndex, limit, budget, maxSteps, sweTimeout, taskWallTimeout, evalTimeout
    evalContainerBindTimeout, checkpointInterval
    maxTaskStarts := min 3 maxTaskStarts
    maxEvalAttempts := min 2 maxEvalAttempts
  }

/-- Which stored candidate an evaluation takes up. -/
structure CandidateSettings where
  evalOnly : Bool
  evalOnlySource : Option PosixPath
  evalDirName : Str
  expectedTask : Str
  expectedRecordId : Str
  expectedSourcePatchSha256 : Str
  expectedEvalPatchSha256 : Str

/-- `path.absolute()` -/
def RunnerHost.absolute (path : PosixPath) : PosixPath :=
  if path.isAbsolute then path
  else { host.cwd with components := host.cwd.components ++ path.components }

/-- The checks on the identity of an expected candidate. -/
def checkCandidate (candidate : CandidateSettings) : Except PyErr Unit := do
  ensure candidate.evalOnly
  ensure (!candidate.expectedTask.isEmpty && !candidate.expectedRecordId.isEmpty &&
    !candidate.expectedSourcePatchSha256.isEmpty)
  ensure ((← candidate.expectedTask.encode).length ≤ 256)
  ensure ((← candidate.expectedRecordId.encode).length ≤ 256)
  ensure (candidate.expectedTask.all (32 ≤ ·) && candidate.expectedRecordId.all (32 ≤ ·))
  ensure (isLowerSha256 candidate.expectedSourcePatchSha256)
  ensure (candidate.expectedEvalPatchSha256.isEmpty ||
    isLowerSha256 candidate.expectedEvalPatchSha256)

def readCandidate (baseRunDir : PosixPath) : Except PyErr CandidateSettings := do
  let evalOnly := (config.getOr "eval_only" (.bool false)).truthy
  let sourceText := Str.strip (env.strOrEmpty (config.get "eval_only_source_base_run_dir"))
  ensure (sourceText.isEmpty || (evalOnly && (PosixPath.ofStr sourceText).isAbsolute))
  let evalOnlySource := if sourceText.isEmpty then none else some (PosixPath.ofStr sourceText)
  let evalDirName := Str.strip (env.strOr (config.get "eval_dir_name") "official_eval")
  ensure (!evalDirName.isEmpty && !evalDirName.contains [47] && !evalDirName.contains [92] &&
    !(lits [".", ".."]).contains evalDirName)
  let candidate : CandidateSettings := {
    evalOnly
    evalOnlySource
    evalDirName
    expectedTask := env.strOrEmpty (config.get "expected_task")
    expectedRecordId := env.strOrEmpty (config.get "expected_record_id")
    expectedSourcePatchSha256 := env.strOrEmpty (config.get "expected_source_patch_sha256")
    expectedEvalPatchSha256 := env.strOrEmpty (config.get "expected_eval_patch_sha256")
  }
  let expected := [candidate.expectedTask, candidate.expectedRecordId,
    candidate.expectedSourcePatchSha256, candidate.expectedEvalPatchSha256]
  if expected.any (!·.isEmpty) then checkCandidate candidate
  ensure (evalOnlySource.isNone || expected.all (!·.isEmpty))
  ensure (evalOnlySource.all fun source => host.absolute source != host.absolute baseRunDir)
  return candidate

/-- The installed configuration of a runner. -/
structure RunnerState where
  /-- The payload with its registry resolved. -/
  cfg : Obj
  api : RemoteApiEnvironment
  ownerNonce : Str
  remoteRoot : PosixPath
  remoteRepo : PosixPath
  baseRunDir : PosixPath
  solver : SolverSettings
  model : ModelSettings
  identity : RunIdentity
  sessionPrefix : Str
  imageRepository : Str
  limits : RunLimits
  candidate : CandidateSettings
  dryRun : Bool

/-- Validate and install one remote-run configuration. -/
def configure : Except PyErr RunnerState := do
  let connection ← checkConnection env config
  let cfg ← installedConfig host config
  let api ← readApi host config connection
  let ownerNonce := env.str (← cfg.index "owner_nonce")
  let remoteRoot ← pathOf (← cfg.index "remote_root")
  let remoteRepo ← pathOf (← cfg.index "remote_repo")
  let baseRunDir ← pathOf (← cfg.index "base_run_dir")
  let solver ← readSolver env host cfg
  let model ← readModel env cfg connection.transport
  let identity ← readRunIdentity env cfg
  let sessionPrefix := Str.rstripOf (· == 95) (env.str (← cfg.index "session_prefix"))
  let imageRepository := Str.rstripOf (· == 58) (env.str (← cfg.index "image_repository"))
  let limits ← readLimits host cfg
  let candidate ← readCandidate env host cfg baseRunDir
  let dryRun := (← cfg.index "dry_run").truthy
  return {
    cfg, api, ownerNonce, remoteRoot, remoteRepo, baseRunDir, solver, model, identity
    sessionPrefix, imageRepository, limits, candidate, dryRun
  }

end Configure

/-- The errors of an installed configuration. -/
def validateRunnerConfig (limits : RunLimits) : List Str :=
  let checks : List (Bool × String) := [
    (limits.startIndex < 1, "start_index must be >= 1"),
    (limits.limit ≤ 0, "limit must be > 0"),
    (1000 < limits.limit, "limit must be <= 1000"),
    (limits.maxTaskStarts < 0, "max_task_starts must be >= 0"),
    (limits.maxEvalAttempts ≤ 0, "max_eval_attempts must be > 0")]
  (checks.filter (·.1)).map fun check => lit check.2

/-- `slice_label` -/
def sliceLabel (startIndex limit : Int) : Str :=
  let endIndex := startIndex + max limit 0 - 1
  if endIndex ≤ startIndex then intStr startIndex
  else intStr startIndex ++ lit "-" ++ intStr endIndex

end OpenCollabEval
