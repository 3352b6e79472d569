import OpenCollabEval.Python.JsonDocument
import OpenCollabEval.Controller.RunnerSummary

/-!
# Recovery of terminal summaries

A controller that lost its connection takes a summary as that of its own run when every field that
it expects is there. The summaries of `_failed_runner_result` name no invocation, while every payload
that `configure` accepts has one, so a run that fails its validation or its preflight is never taken
back, whatever the payload.
-/

open Python

namespace OpenCollabEval

variable (env : Env) (host : RunnerHost)

/-- The statuses with which a run may end. -/
def terminalStatuses : List Str :=
  lits ["done", "done_with_technical_failures", "dry_run", "preflight_failed", "invalid_config"]

/-- A summary reports the end of its run. -/
def isTerminalSummary (summary : Obj) : Bool :=
  terminalStatuses.any fun status => (summary.get "status").eqStr status

/-- A terminal summary that the runner writes in some run. -/
def WritesTerminal (state : RunnerState) (summary : Obj) : Prop :=
  ∃ run, runnerMain env state run = some summary ∧ isTerminalSummary summary = true

/-- Two payloads for which a field that is compared has different values. -/
def DiffersInComparedField (payload other : Obj) : Prop :=
  ∃ expected expected', remoteSummaryExpectation env host payload = .ok expected ∧
    remoteSummaryExpectation env host other = .ok expected' ∧
    ∃ key value value', (key, value) ∈ expected ∧ (key, value') ∈ expected' ∧
      value.pyEq value' = false

/-- The runs of an installed payload are recovered, and only by that payload. -/
structure Recoverable (payload : Obj) (state : RunnerState) : Prop where
  digest : ∃ digest, runnerClaimSha256 env host state.cfg = .ok digest ∧
    runnerClaimSha256 env host payload = .ok digest
  recovered : ∀ summary, WritesTerminal env state summary →
    remoteSummaryMatchesPayload env host summary payload = .ok true
  own : ∀ summary other, WritesTerminal env state summary →
    DiffersInComparedField env host payload other →
    remoteSummaryMatchesPayload env host summary other ≠ .ok true

variable {env host} {payload : Obj} {state : RunnerState}

/-- Setting one key leaves the others as they were. -/
theorem get_set_of_ne (o : Obj) {key key' : Str} (value : Json) (h : key' ≠ key) :
    (o.set key value).get key' = o.get key' := by
  cases hhas : o.has key with
  | true => rw [Obj.get_set hhas, if_neg h]
  | false =>
    rw [Obj.set, hhas, if_neg (by simp), Obj.get_append]
    split
    · rfl
    · rename_i hother
      rw [Obj.get_cons, if_neg h, Obj.get_nil, Obj.get_of_not_has (by simpa using hother)]

/-- Only `None` equals `None`. -/
theorem pyEq_null_left {v : Json} : Json.null.pyEq v = true ↔ v = .null := by
  cases v <;> simp [Json.pyEq]

/-- An accepted payload names its invocation. -/
theorem invocation_of_configure (h : configure env host payload = .ok state) :
    payload.get "invocation_id" ≠ .null := by
  unfold configure at h
  obtain ⟨_, -, h⟩ := bind_eq_ok_iff.mp h
  obtain ⟨cfg, hcfg, h⟩ := bind_eq_ok_iff.mp h
  obtain ⟨registry, -, hcfg⟩ := bind_eq_ok_iff.mp hcfg
  cases hcfg
  simp only [bind_eq_ok_iff] at h
  obtain ⟨_, -, _, -, _, -, _, -, _, -, _, -, _, -, _, -, _, -, _, -, identity, hidentity, -⟩ := h
  obtain ⟨_, hinvocation, -⟩ := bind_eq_ok_iff.mp hidentity
  rw [get_set_of_ne _ _ (by decide)] at hinvocation
  intro hnull
  rw [hnull] at hinvocation
  simp [Runtime.strOrEmpty, Json.truthy, isInvocationId, Str.strip, Str.stripOf, Str.lstripOf,
    Str.rstripOf] at hinvocation

/-- A sequence of calls that can only give one result each gives those results in order. -/
theorem eq_map_of_mapM_eq_ok {ε α β : Type} {f : α → Except ε β} {g : α → β} {items : List α}
    {results : List β} (h : items.mapM f = .ok results)
    (hf : ∀ item result, f item = .ok result → result = g item) : results = items.map g := by
  have hall := forall₂_of_mapM_eq_ok h
  rw [← List.forall₂_eq_eq_eq, List.forall₂_map_right_iff]
  exact (hall.imp fun item result => hf item result).flip

/-- The fields that a summary repeats are expected with the payload's own values. -/
theorem repeatedEntries_eq {entries : Obj} (h : repeatedEntries payload = .ok entries) :
    entries = repeatedFields.map fun key => (key, payload.get key) := by
  refine eq_map_of_mapM_eq_ok h fun key entry hentry => ?_
  obtain ⟨value, hvalue, heq⟩ := bind_eq_ok_iff.mp hentry
  cases heq
  unfold Obj.index at hvalue
  split at hvalue
  · rename_i found hfound
    cases hvalue
    rw [Obj.get, hfound]
    rfl
  · cases hvalue

/-- What is expected of a summary includes the payload's invocation. -/
theorem mem_expectation {expected : Obj}
    (h : remoteSummaryExpectation env host payload = .ok expected) :
    (lit "invocation_id", payload.get "invocation_id") ∈ expected := by
  obtain ⟨entries, hentries, h⟩ := bind_eq_ok_iff.mp h
  obtain ⟨derived, -, h⟩ := bind_eq_ok_iff.mp h
  obtain ⟨openhands, -, h⟩ := bind_eq_ok_iff.mp h
  cases h
  rw [repeatedEntries_eq hentries]
  simp [repeatedFields, lits]

/-- A summary that ends a run before any task names no invocation. -/
theorem failedRunnerResult_invocation {run : RunnerRun} {status : Str} {details : Obj}
    (hdetails : details.has "invocation_id" = false) :
    (failedRunnerResult state run status details).get "invocation_id" = .null := by
  rw [failedRunnerResult, Obj.get_append, Obj.get_append, Obj.get_of_not_has hdetails]
  simp

/-- A summary that ends a run before any task is not taken for one of an accepted payload. -/
theorem failedRunnerResult_not_matches (h : configure env host payload = .ok state)
    {run : RunnerRun} {status : Str} {details : Obj}
    (hdetails : details.has "invocation_id" = false) :
    remoteSummaryMatchesPayload env host (failedRunnerResult state run status details) payload ≠
      .ok true := by
  intro hmatches
  obtain ⟨expected, hexpected, hall⟩ := bind_eq_ok_iff.mp hmatches
  have hentry := List.all_eq_true.mp (Except.ok.inj hall) _ (mem_expectation hexpected)
  rw [failedRunnerResult_invocation hdetails] at hentry
  exact invocation_of_configure h (pyEq_null_left.mp hentry)

/-- A run whose preflight finds nothing. -/
def barrenRun : RunnerRun where
  generatedAt := "2026-01-01 00:00:00 +0000"
  preflight := {
    datasetExists := false
    remoteRootExists := false
    remoteRepoExists := false
    httpHealth := []
  }
  tasks := none

/-- Without a dataset a run ends before any task, with a terminal summary. -/
theorem runnerMain_barrenRun (state : RunnerState) :
    ∃ status details, details.has "invocation_id" = false ∧
      runnerMain env state barrenRun = some (failedRunnerResult state barrenRun status details) ∧
      isTerminalSummary (failedRunnerResult state barrenRun status details) = true := by
  by_cases herrors : (validateRunnerConfig state.limits).isEmpty = true
  · refine ⟨"preflight_failed", Obj.of [("preflight", .dict (preflightReport state barrenRun))],
      by simp [Obj.has, List.lookup_cons], ?_, rfl⟩
    simp [runnerMain, herrors, preflightPasses, barrenRun]
  · refine ⟨"invalid_config",
      Obj.of [("config_errors", Json.strs (validateRunnerConfig state.limits))],
      by simp [Obj.has, List.lookup_cons], ?_, rfl⟩
    simp [runnerMain, herrors]

/-- A host with no registry of its own. -/
def sampleRunnerHost : RunnerHost where
  decimal := asciiDecimal
  cwd := PosixPath.ofStr "/work"
  resolveProfileName profile := .ok profile
  registryEnv := none
  registryFile := none
  readRemoteApiEnvironment _ := .error .valueError

/-- A payload with every identity field, each as the controller writes it. -/
def samplePayload : Obj :=
  let texts := [("owner_nonce", "0123456789abcdef0123456789abcdef"), ("token", "t"),
    ("remote_root", "/remote"), ("remote_repo", "/remote/repo"), ("base_run_dir", "/runs/base"),
    ("remote_python", "python3"), ("workflow", "g11"), ("model_name", "m"), ("llm_model", "m"),
    ("llm_provider", "openai"), ("llm_transport", "reverse_proxy"),
    ("remote_proxy_base_url", "http://127.0.0.1:8080"), ("session_prefix", "swe"),
    ("image_repository", "images"), ("invocation_id", "00112233445566778899aabbccddeeff"),
    ("eval_dir_name", "official_eval")]
  let numbers := [("start_index", 1), ("limit", 1), ("budget", 1000), ("max_steps", 10),
    ("swe_timeout", 60), ("task_wall_timeout", 60), ("eval_timeout", 60),
    ("checkpoint_interval", 5), ("max_task_starts", 1), ("max_empty_patch_retries", 0),
    ("max_eval_attempts", 1)]
  Obj.of <| texts.map (fun (field : String × String) => (field.1, Json.str field.2)) ++
    numbers.map (fun (field : String × Int) => (field.1, Json.int field.2)) ++
    [("context_window", .null), ("temperature", .null), ("top_p", .null),
      ("max_output_tokens", .null), ("workflow_env", .dict []), ("eval_only", .bool false),
      ("dry_run", .bool false)]

/-- A run of one task that was evaluated. -/
def evaluatedRun : RunnerRun where
  generatedAt := "2026-01-01 00:00:00 +0000"
  preflight := {
    datasetExists := true
    remoteRootExists := true
    remoteRepoExists := true
    httpHealth := Obj.of [("ok", .bool true)]
  }
  tasks := some {
    counts := []
    technicalFailed := 0
    rows := []
    failureScope := .null
    candidateIsolation := .null
    markdown := []
  }

/-- Whether the controller takes back what a run of the sample payload writes. -/
def sampleMatches (state : RunnerState) (run : RunnerRun) : Option Bool :=
  (runnerMain asciiEnv state run).bind fun summary =>
    (remoteSummaryMatchesPayload asciiEnv sampleRunnerHost summary samplePayload).toOption

/-- What the controller makes of the two runs of the sample payload. -/
def sampleOutcomes (state : RunnerState) : Bool :=
  ((runnerMain asciiEnv state barrenRun).any fun summary =>
      (summary.get "status").eqStr "preflight_failed") &&
    sampleMatches state barrenRun == some false && sampleMatches state evaluatedRun == some true

/-- The sample payload is accepted. -/
theorem exists_sampleState :
    ∃ state, configure asciiEnv sampleRunnerHost samplePayload = .ok state ∧
      sampleOutcomes state = true :=
  exists_of_any_toOption (by decide +kernel)

end OpenCollabEval
