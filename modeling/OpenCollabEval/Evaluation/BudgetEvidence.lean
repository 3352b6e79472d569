import OpenCollabEval.Evaluation.Reconciliation
import OpenCollabEval.Order.HighWater
import OpenCollabEval.Python.Path

/-!
# Eval attempts beyond the budget

How the final report accounts for the official-eval attempts of its tasks. Every observed attempt
records a cumulative count of its candidate ledger and stands for what the count adds to the ledger.
Of the attempts of a task beyond the budget, those that still fit are accepted in order, and the
others are set aside as over-budget evidence.
-/

open Python

namespace OpenCollabEval.BudgetEvidence

/-- An observed attempt as far as the accounting reads it. A text is empty where there is none. -/
structure ObservedAttempt where
  task : Str
  generationLog : Str
  reportPath : Str
  sourceReport : Str
  round : Int
  evalStatus : Str
  resolved : Option Bool
  row : Obj

/-- What tells the ledgers of a task apart. -/
inductive LedgerKind
  | candidateRoot
  | generationLog
  | sourceReport
  deriving DecidableEq

/-- The key of a candidate ledger. -/
structure LedgerKey where
  task : Str
  kind : LedgerKind
  path : Str
  deriving DecidableEq

/-- `path.parents[n]` -/
def parents (path : PosixPath) (n : Nat) : PosixPath := PosixPath.parent^[n + 1] path

/-- `_eval_ledger_key` -/
def evalLedgerKey (attempt : ObservedAttempt) : LedgerKey :=
  let log := PosixPath.ofStr attempt.generationLog
  let report := PosixPath.ofStr attempt.reportPath
  if !attempt.generationLog.isEmpty && log.parent.name == lit "generation_logs" then
    ⟨attempt.task, .candidateRoot, log.parent.parent.asPosix⟩
  -- a path has as many parents as it has components
  else if !attempt.reportPath.isEmpty &&
      (4 ≤ report.components.length && (parents report 1).name == lit "reports") then
    ⟨attempt.task, .candidateRoot, (parents report 3).asPosix⟩
  else if !attempt.generationLog.isEmpty then
    ⟨attempt.task, .generationLog, attempt.generationLog⟩
  else ⟨attempt.task, .sourceReport, attempt.sourceReport⟩

/-- The cumulative count that an attempt records, which is never negative. -/
def recordedCount (attempt : ObservedAttempt) : Nat := (rowEvalAttemptCount attempt.row).toNat

/-- `eval_attempt_increments` -/
def evalAttemptIncrements (attempts : List ObservedAttempt) : List (ObservedAttempt × Nat) :=
  raises evalLedgerKey recordedCount attempts

/-- `combined_eval_attempt_count` -/
def combinedEvalAttemptCount (attempts : List ObservedAttempt) : Nat :=
  ((evalAttemptIncrements attempts).map Prod.snd).sum

/-- The attempts of a task. -/
def ofTask (task : Str) (attempts : List ObservedAttempt) : List ObservedAttempt :=
  attempts.filter (·.task == task)

/-- `eval_attempts_by_task[task]` -/
def observedEvalAttemptCount (observed : List ObservedAttempt) (task : Str) : Nat :=
  combinedEvalAttemptCount (ofTask task observed)

/-- `exhausted`: the tasks whose count is beyond the budget. -/
def exhausted (maxEvalAttempts : Int) (observed : List ObservedAttempt) : List Str :=
  (observed.map (·.task)).dedup.filter fun task =>
    decide (maxEvalAttempts < observedEvalAttemptCount observed task)

/-- What the acceptance has done so far. A task without an accepted attempt counts as 0. -/
structure Acceptance where
  acceptedAttempts : List ObservedAttempt
  acceptedEvalAttempts : Str → Nat
  /-- The attempts that are set aside, with what each adds to its ledger. -/
  overBudgetEvidence : List (ObservedAttempt × Nat)

/-- The acceptance before the first attempt. -/
def Acceptance.start : Acceptance := ⟨[], fun _ => 0, []⟩

section Acceptance

variable (maxRounds maxEvalAttempts : Int) (exhaustedTasks : List Str)

/-- One attempt with what it adds to its ledger. -/
def acceptStep (s : Acceptance) (item : ObservedAttempt × Nat) : Acceptance :=
  let task := item.1.task
  let nextCount := s.acceptedEvalAttempts task + item.2
  if !exhaustedTasks.contains task then
    if item.1.round ≤ maxRounds then { s with acceptedAttempts := s.acceptedAttempts ++ [item.1] }
    else s
  else if maxEvalAttempts < nextCount then
    { s with overBudgetEvidence := s.overBudgetEvidence ++ [item] }
  else
    { s with
      acceptedEvalAttempts := Function.update s.acceptedEvalAttempts task nextCount
      acceptedAttempts := s.acceptedAttempts ++ [item.1] }

/-- The acceptance of some attempts, one after the other. -/
def accepting (attempts : List ObservedAttempt) : Acceptance :=
  (evalAttemptIncrements attempts).foldl (acceptStep maxRounds maxEvalAttempts exhaustedTasks) .start

end Acceptance

/-- The attempts that `build_report` accepts, and those that it sets aside. -/
def acceptAttempts (maxRounds maxEvalAttempts : Int) (allowOverBudgetEvidence : Bool)
    (observed : List ObservedAttempt) : Except PyErr Acceptance :=
  let exhaustedTasks := exhausted maxEvalAttempts observed
  if !exhaustedTasks.isEmpty && !allowOverBudgetEvidence then .error .valueError
  else if exhaustedTasks.isEmpty then
    .ok { Acceptance.start with acceptedAttempts := observed.filter (·.round ≤ maxRounds) }
  else .ok (accepting maxRounds maxEvalAttempts exhaustedTasks observed)

/-- `over_budget_eval_attempts` -/
def Acceptance.overBudgetEvalAttempts (s : Acceptance) : Nat :=
  (s.overBudgetEvidence.map Prod.snd).sum

/-- What the attempts of a task that are set aside add to their ledgers. -/
def Acceptance.setAside (s : Acceptance) (task : Str) : Nat :=
  ((s.overBudgetEvidence.filter (·.1.task == task)).map Prod.snd).sum

/-- `str` of a verdict. -/
def verdictText : Option Bool → Str
  | some true => "True"
  | some false => "False"
  | none => "None"

/-- The order of the attempts in the record of a task: by source, round, status and verdict. -/
def attemptLe (a b : ObservedAttempt) : Bool :=
  let key := fun attempt : ObservedAttempt => toLex (attempt.sourceReport, toLex (attempt.round,
    toLex (attempt.evalStatus, verdictText attempt.resolved)))
  decide (key a ≤ key b)

/-- `task_attempts` -/
def Acceptance.taskAttempts (s : Acceptance) (task : Str) : List ObservedAttempt :=
  (ofTask task s.acceptedAttempts).insertionSort (attemptLe · ·)

/-- `eval_attempt_count` of the record of a task. -/
def Acceptance.evalAttemptCount (s : Acceptance) (task : Str) : Nat :=
  combinedEvalAttemptCount (s.taskAttempts task)

/-- The tasks that the report has a record of: those with an accepted attempt. -/
def Acceptance.recordedTasks (s : Acceptance) : List Str :=
  (s.acceptedAttempts.map (·.task)).dedup.filter (!·.isEmpty)

end OpenCollabEval.BudgetEvidence
