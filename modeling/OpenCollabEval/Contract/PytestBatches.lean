import OpenCollabEval.Contract.Plan

/-!
# Batches of pytest targets

`python_parameter_fallback_batches` walks over the declared targets with two accumulators: the targets
of the current batch as they are declared, and the execution targets that their command runs. A batch is
closed when the next execution target would make its command too long.
-/

open Python

namespace OpenCollabEval

/-- `if x not in items: items.append(x)`. -/
def appendFresh (items : List Str) (x : Str) : List Str :=
  if items.contains x then items else items ++ [x]

/-- `_pytest_parameter_parent(target) or target`. -/
def executionTarget (target : Str) : Str :=
  let parent := pytestParameterParent target
  if parent.isEmpty then target else parent

/-- The command that runs some execution targets. -/
def batchCommand (targets : List Str) : Str :=
  lit "pytest -p opencollab_pytest_proof -q -rA -o addopts= " ++
    Str.join " " (targets.map Shlex.quote)

/-- More arguments or a longer command than allowed. -/
def exceedsBounds (maxArgs maxChars : Int) (targets : List Str) : Bool :=
  decide (maxArgs < targets.length) || decide (maxChars < (batchCommand targets).length)

/-- The batches that are closed, and the accumulators of the current one. -/
structure Batching where
  declaredBatches : List (List Str)
  executionBatches : List (List Str)
  currentDeclared : List Str
  currentExecution : List Str

/-- The accumulators before the first target. -/
def Batching.start : Batching := ⟨[], [], [], []⟩

/-- One target of the loop. -/
def Batching.add (maxArgs maxChars : Int) (s : Batching) (target : Str) : Batching :=
  let candidate := appendFresh s.currentExecution (executionTarget target)
  if !s.currentDeclared.isEmpty && exceedsBounds maxArgs maxChars candidate then
    { declaredBatches := s.declaredBatches ++ [s.currentDeclared]
      executionBatches := s.executionBatches ++ [s.currentExecution]
      currentDeclared := [target]
      currentExecution := [executionTarget target] }
  else
    { s with
      currentDeclared := s.currentDeclared ++ [target]
      currentExecution := candidate }

/-- The last batch is closed when it is not empty. -/
def Batching.close (s : Batching) : List (List Str) × List (List Str) :=
  if s.currentDeclared.isEmpty then (s.declaredBatches, s.executionBatches)
  else (s.declaredBatches ++ [s.currentDeclared], s.executionBatches ++ [s.currentExecution])

/-- The parameter parents of a declared batch, each where it occurs first. -/
def fallbackParents (declared : List Str) : List Str :=
  declared.foldl (fun parents value =>
    let parent := pytestParameterParent value
    if parent.isEmpty then parents else appendFresh parents parent) []

/-- The three lists that `python_parameter_fallback_batches` returns. -/
structure FallbackBatches where
  declared : List (List Str)
  execution : List (List Str)
  fallback : List (List Str)
  deriving DecidableEq

/-- `python_parameter_fallback_batches(tests, max_args, max_chars)`. -/
def pythonParameterFallbackBatches (tests : List Str) (maxArgs maxChars : Int) : FallbackBatches :=
  let batches := (tests.foldl (Batching.add maxArgs maxChars) .start).close
  ⟨batches.1, batches.2, batches.1.map fallbackParents⟩

section Distinct

/-- Appending what is new keeps each item where it occurs first. -/
theorem appendFresh_eraseDups (items : List Str) (x : Str) :
    appendFresh items.eraseDups x = (items ++ [x]).eraseDups := by
  rw [List.eraseDups_append, appendFresh]
  by_cases hx : x ∈ items
  · simp [hx, List.removeAll]
  · simp [hx, List.removeAll, List.eraseDups_cons]

/-- The nodes that a batch runs grow by the execution target of a new target. -/
theorem executionTargets_append (declared : List Str) (target : Str) :
    executionTargets (declared ++ [target]) =
      appendFresh (executionTargets declared) (executionTarget target) := by
  rw [executionTargets, List.map_append]
  exact (appendFresh_eraseDups _ _).symm

/-- The parents of a batch that the loop collects are its parameter parents in order. -/
theorem fallbackParents_eq (declared : List Str) : fallbackParents declared = parameterParents declared := by
  have hfold (before after : List Str) :
      after.foldl (fun parents value =>
        let parent := pytestParameterParent value
        if parent.isEmpty then parents else appendFresh parents parent) (parameterParents before) =
        parameterParents (before ++ after) := by
    induction after generalizing before with
    | nil => simp
    | cons value rest ih =>
      rw [List.foldl_cons, ← List.singleton_append, ← List.append_assoc, ← ih]
      congr 1
      by_cases hparent : (pytestParameterParent value).isEmpty = true
      · simp [parameterParents, hparent]
      · simp only [hparent, Bool.false_eq_true, if_false, parameterParents, dedupKeys]
        rw [appendFresh_eraseDups]
        simp [hparent]
  exact hfold [] declared

end Distinct

section Loop

variable {maxArgs maxChars : Int}

/-- An execution batch keeps both bounds, or runs a single target. -/
def WithinBounds (maxArgs maxChars : Int) (execution : List Str) : Prop :=
  ((execution.length : Int) ≤ maxArgs ∧ ((batchCommand execution).length : Int) ≤ maxChars) ∨
    execution.length = 1

/-- A declared batch that may be closed. -/
structure Closable (maxArgs maxChars : Int) (declared : List Str) : Prop where
  nonempty : declared ≠ []
  bounded : WithinBounds maxArgs maxChars (executionTargets declared)

/-- What the loop keeps about the targets that it has seen. -/
structure Batching.Holds (maxArgs maxChars : Int) (s : Batching) (seen : List Str) : Prop where
  concat : s.declaredBatches.flatten ++ s.currentDeclared = seen
  execution : s.executionBatches = s.declaredBatches.map executionTargets
  current : s.currentExecution = executionTargets s.currentDeclared
  closed : ∀ declared ∈ s.declaredBatches, Closable maxArgs maxChars declared
  pending : s.currentDeclared = [] ∨ Closable maxArgs maxChars s.currentDeclared

theorem holds_start : Batching.start.Holds maxArgs maxChars [] where
  concat := rfl
  execution := rfl
  current := rfl
  closed := by simp [Batching.start]
  pending := .inl rfl

/-- A batch of one target runs one target. -/
theorem closable_singleton (target : Str) : Closable maxArgs maxChars [target] where
  nonempty := by simp
  bounded := .inr (by simp [executionTargets, dedupKeys, List.eraseDups_cons])

/-- The bounds hold of what was not found to exceed them. -/
theorem withinBounds_of_not_exceeds {execution : List Str}
    (h : exceedsBounds maxArgs maxChars execution = false) :
    WithinBounds maxArgs maxChars execution := by
  simp only [exceedsBounds, Bool.or_eq_false_iff, decide_eq_false_iff_not, not_lt] at h
  exact .inl h

/-- One more target keeps the invariant. -/
theorem Batching.Holds.add {s : Batching} {seen : List Str} (h : s.Holds maxArgs maxChars seen)
    (target : Str) : (s.add maxArgs maxChars target).Holds maxArgs maxChars (seen ++ [target]) := by
  simp only [Batching.add]
  split_ifs with hfull
  · -- the current batch is closed, and the target starts a new one
    simp only [Bool.and_eq_true, Bool.not_eq_true', List.isEmpty_eq_false_iff] at hfull
    have hclosable := h.pending.resolve_left hfull.1
    constructor
    · simp [← h.concat]
    · simp [h.execution, h.current]
    · simp [executionTargets, dedupKeys, executionTarget, List.eraseDups_cons]
    · intro declared hdeclared
      rcases List.mem_append.mp hdeclared with hold | hnew
      · exact h.closed declared hold
      · obtain rfl : declared = s.currentDeclared := by simpa using hnew
        exact hclosable
    · exact .inr (closable_singleton target)
  · -- the target joins the current batch
    have hcandidate : appendFresh s.currentExecution (executionTarget target) =
        executionTargets (s.currentDeclared ++ [target]) := by
      rw [executionTargets_append, h.current]
    constructor
    · simp [← h.concat]
    · exact h.execution
    · exact hcandidate
    · exact h.closed
    · refine .inr ⟨by simp, ?_⟩
      rcases hcurrent : s.currentDeclared with _ | ⟨first, rest⟩
      · exact (closable_singleton target).bounded
      · rw [hcurrent] at hcandidate
        rw [← hcandidate]
        apply withinBounds_of_not_exceeds
        simpa [hcurrent] using hfull

/-- The invariant after all targets. -/
theorem holds_foldl (tests : List Str) :
    (tests.foldl (Batching.add maxArgs maxChars) .start).Holds maxArgs maxChars tests := by
  have hrun (s : Batching) (seen rest : List Str) (h : s.Holds maxArgs maxChars seen) :
      (rest.foldl (Batching.add maxArgs maxChars) s).Holds maxArgs maxChars (seen ++ rest) := by
    induction rest generalizing s seen with
    | nil => simpa using h
    | cons target rest ih => simpa using ih _ _ (h.add target)
  exact hrun .start [] tests holds_start

/-- Closing the last batch leaves declared batches that hold all targets, with what each of them runs. -/
theorem Batching.Holds.close {s : Batching} {seen : List Str} (h : s.Holds maxArgs maxChars seen) :
    s.close.1.flatten = seen ∧ s.close.2 = s.close.1.map executionTargets ∧
      ∀ declared ∈ s.close.1, Closable maxArgs maxChars declared := by
  unfold Batching.close
  split_ifs with hempty
  · have hnil : s.currentDeclared = [] := by simpa using hempty
    exact ⟨by simpa [hnil] using h.concat, h.execution, h.closed⟩
  · refine ⟨by simpa using h.concat, by simp [h.execution, h.current], ?_⟩
    have hclosable := h.pending.resolve_left (by simpa using hempty)
    intro declared hdeclared
    rcases List.mem_append.mp hdeclared with hold | hnew
    · exact h.closed declared hold
    · obtain rfl : declared = s.currentDeclared := by simpa using hnew
      exact hclosable

end Loop

/-- The declared batches are the targets in order, each with what it runs and its parameter parents. No
declared or execution batch is empty, and an execution batch keeps the bounds or runs a single target. -/
theorem python_parameter_fallback_batches_exact (tests : List Str) (maxArgs maxChars : Int) :
    let batches := pythonParameterFallbackBatches tests maxArgs maxChars
    batches.execution.length = batches.declared.length ∧
      batches.fallback.length = batches.declared.length ∧
      batches.declared.flatten = tests ∧
      batches.execution = batches.declared.map executionTargets ∧
      batches.fallback = batches.declared.map parameterParents ∧
      (∀ declared ∈ batches.declared, declared ≠ []) ∧
      (∀ execution ∈ batches.execution, execution ≠ []) ∧
      ∀ execution ∈ batches.execution, WithinBounds maxArgs maxChars execution := by
  intro batches
  obtain ⟨hconcat, hexecution, hclosable⟩ := (@holds_foldl maxArgs maxChars tests).close
  have hexecution : batches.execution = batches.declared.map executionTargets := hexecution
  have hfallback : batches.fallback = batches.declared.map parameterParents :=
    List.map_congr_left fun declared _ => fallbackParents_eq declared
  refine ⟨by simp [hexecution], by simp [hfallback], hconcat, hexecution, hfallback,
    fun declared hdeclared => (hclosable declared hdeclared).nonempty, ?_, ?_⟩
  · rw [hexecution, List.forall_mem_map]
    intro declared hdeclared hempty
    obtain ⟨target, htarget⟩ := List.exists_mem_of_ne_nil _ (hclosable declared hdeclared).nonempty
    have hmem : executionTarget target ∈ executionTargets declared := by
      rw [executionTargets, dedupKeys, List.mem_eraseDups]
      exact List.mem_map_of_mem htarget
    simp [hempty] at hmem
  · rw [hexecution, List.forall_mem_map]
    exact fun declared hdeclared => (hclosable declared hdeclared).bounded

/-- A batch whose targets have no parameters has an empty fallback batch. -/
theorem fallback_batch_empty : ¬∀ fallback ∈
    (pythonParameterFallbackBatches [lit "tests/test_a.py::test_a"] 80 24000).fallback,
      fallback ≠ [] := by
  decide +kernel

end OpenCollabEval
