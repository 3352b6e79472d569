import OpenCollabEval.Controller.RunnerConfig
import OpenCollabEval.Python.JsonUnescaped

/-!
# Summaries of a remote runner

A runner names its run by the digest of its configuration and ends by writing a summary, either from
`_failed_runner_result`, before any task, or from the end of `main`. After a transport failure the
controller reads the summary and compares it, field by field, with the payload it had sent.
-/

open Python

namespace OpenCollabEval

section Claim

variable (env : Env) (host : RunnerHost)

/-- `int(config.get(key) or default)` -/
def intOr (config : Obj) (key : Str) (default : Int) : Except PyErr Int :=
  if (config.get key).truthy then (config.get key).toInt host.decimal else .ok default

/-- The stable fields that may identify a recoverable remote run. -/
def runnerClaimIdentity (config : Obj) : Except PyErr Obj := do
  let text (key : String) : String × Json := (key, .str (env.strOrEmpty (config.get key)))
  let number (key : String) : Except PyErr (String × Json) := do
    return (key, .int (← intOr host config key 0))
  let registry := config.get "scoring_adapter_registry"
  let workflowEnv := (← textItems env (config.get "workflow_env")).insertionSort (Str.le ·.1 ·.1)
  return Obj.of <| [
    text "base_run_dir", text "remote_root", text "remote_repo",
    ("remote_python", .str (env.strOr (config.get "remote_python") "python3")),
    text "run_id", text "runtime_tree_sha256", text "session_prefix", text "image_repository",
    ← number "start_index", ← number "limit", text "workflow"] ++
    (if registry.truthy then [("scoring_adapter_registry", .str (env.str registry))] else []) ++ [
    ("workflow_env", .dict (workflowEnv.map fun entry => (entry.1, .str entry.2))),
    text "model_name", text "llm_model", text "llm_provider",
    ("llm_transport", .str (env.strOr (config.get "llm_transport") "reverse_proxy")),
    ("context_window", config.get "context_window"), ("temperature", config.get "temperature"),
    ("top_p", config.get "top_p"), ("max_output_tokens", config.get "max_output_tokens"),
    ← number "budget", ← number "max_steps", ← number "swe_timeout",
    ← number "task_wall_timeout", ← number "eval_timeout", ← number "llm_timeout",
    ("max_task_starts", .int (max 0 (min 3 (← intOr host config "max_task_starts" 0)))),
    ("max_empty_patch_retries",
      .int (max 0 (min 1 (← intOr host config "max_empty_patch_retries" 0)))),
    ("max_eval_attempts", .int (max 1 (min 2 (← intOr host config "max_eval_attempts" 1)))),
    ("eval_only", .bool (config.getOr "eval_only" (.bool false)).truthy),
    ("eval_dir_name", .str (env.strOr (config.get "eval_dir_name") "official_eval")),
    ("dry_run", .bool (config.getOr "dry_run" (.bool false)).truthy),
    text "expected_task", text "expected_record_id", text "expected_source_patch_sha256",
    text "expected_eval_patch_sha256",
    ("openhands_command_sha256",
      .str (← openhandsCommandDigest env (env.strOrEmpty (config.get "openhands_command"))))]

/-- The digest by which a run is owned. -/
def runnerClaimSha256 (config : Obj) : Except PyErr Str := do
  let identity ← runnerClaimIdentity env host config
  return env.sha256 (← (DumpFormat.canonical.dumpsUnescaped (.dict identity)).encode)

end Claim

section Main

/-- What the preflight of a run finds. -/
structure PreflightFacts where
  datasetExists : Bool
  remoteRootExists : Bool
  remoteRepoExists : Bool
  /-- `http_health(…)` -/
  httpHealth : Obj

/-- What the tasks of a run leave for its summary. -/
structure TaskResults where
  /-- The counts, the failed tasks apart. -/
  counts : Obj
  technicalFailed : Nat
  rows : List Json
  failureScope : Json
  candidateIsolation : Json
  markdown : Str

/-- What a run of `main` meets. -/
structure RunnerRun where
  generatedAt : Str
  preflight : PreflightFacts
  /-- The results of the tasks, `none` when a step raises before the summary is written. -/
  tasks : Option TaskResults

variable (env : Env) (state : RunnerState) (run : RunnerRun)

/-- The summary of a run that ends before any task. -/
def failedRunnerResult (status : Str) (details : Obj) : Obj :=
  Obj.of [("schema", "opencollab.swe_g11_prolite_runner.v1"), ("status", .str status),
    ("generated_at", .str run.generatedAt),
    ("slice", .str (sliceLabel state.limits.startIndex state.limits.limit)),
    ("base_run_dir", .str state.baseRunDir.asPosix),
    ("remote_runtime_repo", .str state.remoteRepo.asPosix),
    ("workflow", .str state.solver.workflow)] ++ details ++
  Obj.of [("counts", .dict (Obj.of [("tasks", .int 0), ("generation_done", .int 0),
      ("empty_patch", .int 0), ("eval_done", .int 0), ("eval_attempts", .int 0),
      ("eval_retry_tasks", .int 0), ("resolved", .int 0), ("unresolved", .int 0),
      ("technical_failed", .int 1)])),
    ("rows", .list [])]

/-- The health of the model's proxy, as far as the run needs it. -/
def proxyHealth : Obj :=
  if state.candidate.evalOnly then
    Obj.of [("ok", .bool true), ("status", "skipped_eval_only")]
  else if state.model.llmTransport == lit "direct" then
    Obj.of [("ok", .bool true), ("status", "not_applicable_direct")]
  else run.preflight.httpHealth

/-- The preflight report of a run. -/
def preflightReport : Obj :=
  Obj.of [("dataset_exists", .bool run.preflight.datasetExists),
    ("remote_root_exists", .bool run.preflight.remoteRootExists),
    ("remote_repo_exists", .bool run.preflight.remoteRepoExists),
    ("remote_runtime_required", .bool (!state.candidate.evalOnly)),
    ("proxy_health", .dict (proxyHealth state run))]

/-- A run goes on to its tasks. -/
def preflightPasses : Bool :=
  run.preflight.datasetExists && run.preflight.remoteRootExists &&
    (run.preflight.remoteRepoExists || state.candidate.evalOnly) &&
    ((proxyHealth state run).get "ok").truthy

/-- The status of a run that reached its end. -/
def completedStatus (technicalFailed : Nat) : Str :=
  if technicalFailed == 0 then if state.dryRun then "dry_run" else "done"
  else "done_with_technical_failures"

/-- The summary of a run that reached its end. -/
def completedSummary (tasks : TaskResults) : Obj :=
  Obj.of [("schema", "opencollab.swe_g11_prolite_runner.v1"),
    ("status", .str (completedStatus state tasks.technicalFailed)),
    ("generated_at", .str run.generatedAt),
    ("slice", .str (sliceLabel state.limits.startIndex state.limits.limit)),
    ("base_run_dir", .str state.baseRunDir.asPosix),
    ("remote_runtime_repo", .str state.remoteRepo.asPosix),
    ("remote_python", .str (env.strOr (state.cfg.get "remote_python") "python3")),
    ("workflow", .str state.solver.workflow), ("agent_profile", state.solver.agentProfile),
    ("workflow_env", .dict (state.solver.workflowEnv.map fun entry => (entry.1, .str entry.2))),
    ("scoring_adapter_registry",
      .str (env.strOrEmpty (state.cfg.get "scoring_adapter_registry"))),
    ("openhands_command_sha256", .str state.solver.openhandsCommandSha256),
    ("openhands_empty_patch_rejections", .int state.solver.openhandsEmptyPatchRejections),
    ("max_empty_patch_retries", .int state.solver.maxEmptyPatchRetries),
    ("model_name", .str state.model.modelName), ("llm_model", .str state.model.llmModel),
    ("llm_provider", .str state.model.llmProvider),
    ("llm_transport", .str state.model.llmTransport),
    ("context_window", state.model.contextWindow), ("temperature", state.model.temperature),
    ("top_p", state.model.topP), ("max_output_tokens", state.model.maxOutputTokens),
    ("invocation_id", .str state.identity.invocationId), ("run_id", .str state.identity.runId),
    ("runtime_tree_sha256", .str state.identity.runtimeTreeSha256),
    ("budget", .int state.limits.budget), ("max_steps", .int state.limits.maxSteps),
    ("max_task_starts", .int state.limits.maxTaskStarts),
    ("max_eval_attempts", .int state.limits.maxEvalAttempts),
    ("eval_container_bind_timeout", .int state.limits.evalContainerBindTimeout),
    ("eval_only", .bool state.candidate.evalOnly),
    ("eval_only_source_base_run_dir",
      .str (state.candidate.evalOnlySource.elim [] PosixPath.asPosix)),
    ("candidate_isolation", tasks.candidateIsolation),
    ("eval_dir_name", .str state.candidate.evalDirName),
    ("solver_attribution",
      if state.candidate.evalOnly then "historical_artifact" else "current_run"),
    ("preflight", .dict (preflightReport state run)),
    ("counts", .dict (tasks.counts.set "technical_failed" (.int tasks.technicalFailed))),
    ("rows", .list tasks.rows), ("failure_scope", tasks.failureScope),
    ("markdown", .str tasks.markdown)]

/-- The summary that a run writes, `none` when it ends without one. -/
def runnerMain : Option Obj :=
  let errors := validateRunnerConfig state.limits
  if !errors.isEmpty then
    some (failedRunnerResult state run "invalid_config"
      (Obj.of [("config_errors", Json.strs errors)]))
  else if !preflightPasses state run then
    some (failedRunnerResult state run "preflight_failed"
      (Obj.of [("preflight", .dict (preflightReport state run))]))
  else run.tasks.map (completedSummary env state run)

end Main

section Recovery

variable (env : Env) (host : RunnerHost)

/-- The fields that a summary repeats from the payload. -/
def repeatedFields : List Str :=
  lits ["base_run_dir", "remote_python", "invocation_id", "workflow", "workflow_env", "model_name",
    "llm_model", "llm_provider", "context_window", "temperature", "top_p", "max_output_tokens",
    "budget", "max_steps", "eval_only", "eval_dir_name"]

def repeatedEntries (payload : Obj) : Except PyErr Obj :=
  repeatedFields.mapM fun key => do return (key, ← payload.index key)

/-- The fields that a summary derives from the payload. -/
def derivedEntries (payload : Obj) : Except PyErr Obj := do
  let startIndex ← intAt host payload "start_index"
  let limit ← intAt host payload "limit"
  let remoteRepo ← payload.index "remote_repo"
  let agentProfile ← resolveSolverAgentProfile host (← payload.index "workflow")
    (payload.get "agent_profile")
  let maxTaskStarts ← intAt host payload "max_task_starts"
  let maxEmptyPatchRetries ← intAt host payload "max_empty_patch_retries"
  let maxEvalAttempts ← intAt host payload "max_eval_attempts"
  let evalOnly ← payload.index "eval_only"
  return Obj.of [
    ("slice", .str (sliceLabel startIndex limit)), ("remote_runtime_repo", remoteRepo),
    ("agent_profile", agentProfile), ("max_task_starts", .int (max 0 (min 3 maxTaskStarts))),
    ("max_empty_patch_retries", .int (min 1 (max 0 maxEmptyPatchRetries))),
    ("max_eval_attempts", .int (min 2 (max 1 maxEvalAttempts))),
    ("solver_attribution", if evalOnly.truthy then "historical_artifact" else "current_run")]

/-- The fields that a summary repeats from the payload where the payload has them. -/
def optionalEntries (payload : Obj) : Obj :=
  ((lits ["llm_transport", "eval_only_source_base_run_dir", "run_id", "runtime_tree_sha256",
    "scoring_adapter_registry"]).filter fun key => (payload.get key).truthy).map fun key =>
      (key, payload.get key)

/-- The fields of a run with an external command. -/
def openhandsEntries (payload : Obj) : Except PyErr Obj :=
  if (payload.get "workflow").eqStr "openhands-external" then do
    let rejections ← intAt host payload "openhands_empty_patch_rejections"
    let command ← match ← payload.index "openhands_command" with
      | .str text => text.encode
      | _ => throw .attributeError
    return Obj.of [("openhands_empty_patch_rejections", .int (max 0 rejections)),
      ("openhands_command_sha256", .str (env.sha256 command))]
  else .ok []

/-- The keys that a summary must carry for a payload, with their values. -/
def remoteSummaryExpectation (payload : Obj) : Except PyErr Obj := do
  let repeated ← repeatedEntries payload
  let derived ← derivedEntries host payload
  let openhands ← openhandsEntries env host payload
  return repeated ++ derived ++ optionalEntries payload ++ openhands

/-- `remote_summary_matches_payload` -/
def remoteSummaryMatchesPayload (summary payload : Obj) : Except PyErr Bool := do
  let expected ← remoteSummaryExpectation env host payload
  return expected.all fun entry => (summary.get entry.1).pyEq entry.2

end Recovery

end OpenCollabEval
