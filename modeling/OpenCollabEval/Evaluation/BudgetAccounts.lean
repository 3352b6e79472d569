import OpenCollabEval.Evaluation.BudgetEvidence
import Mathlib.Algebra.BigOperators.Group.Finset.Basic

/-!
# The accounts of over-budget attempts

The observed count of a task is what its ledgers record together. The count that the report gives for
a task counts the marks of the accepted attempts, not what these add to their ledgers: once an attempt
is set aside, a later one of the same ledger can bring its count back into the report.
-/

open Python

namespace OpenCollabEval.BudgetEvidence

/-- The highest count that some attempts record in a ledger. -/
abbrev ledgerMark (attempts : List ObservedAttempt) (ledger : LedgerKey) : Nat :=
  highWater evalLedgerKey recordedCount attempts ledger

/-- The ledgers of a task. -/
def ledgersOf (task : Str) (attempts : List ObservedAttempt) : Finset LedgerKey :=
  ((ofTask task attempts).map evalLedgerKey).toFinset

@[simp] theorem evalLedgerKey_task (attempt : ObservedAttempt) :
    (evalLedgerKey attempt).task = attempt.task := by
  unfold evalLedgerKey
  dsimp only
  split_ifs <;> rfl

theorem ledgerMark_append_singleton (attempts : List ObservedAttempt) (attempt : ObservedAttempt)
    (ledger : LedgerKey) :
    ledgerMark (attempts ++ [attempt]) ledger =
      if evalLedgerKey attempt = ledger then max (ledgerMark attempts ledger) (recordedCount attempt)
      else ledgerMark attempts ledger := by
  rw [ledgerMark, highWater_append_singleton]
  split_ifs with hledger
  · rw [← hledger, Function.update_self]
  · rw [Function.update_of_ne (Ne.symm hledger)]

section Counts

variable {attempts observed : List ObservedAttempt} {attempt : ObservedAttempt} {task : Str}
  {ledger : LedgerKey}

theorem mem_ofTask : attempt ∈ ofTask task attempts ↔ attempt ∈ attempts ∧ attempt.task = task := by
  simp [ofTask]

theorem mem_ledgersOf :
    ledger ∈ ledgersOf task attempts ↔
      ∃ attempt ∈ attempts, attempt.task = task ∧ evalLedgerKey attempt = ledger := by
  simp [ledgersOf, mem_ofTask, and_assoc]

theorem task_of_mem_ledgersOf (h : ledger ∈ ledgersOf task attempts) : ledger.task = task := by
  obtain ⟨attempt, -, rfl, rfl⟩ := mem_ledgersOf.mp h
  exact evalLedgerKey_task attempt

/-- What a ledger records does not depend on the attempts of other tasks. -/
theorem ledgerMark_ofTask (hledger : ledger.task = task) :
    ledgerMark (ofTask task attempts) ledger = ledgerMark attempts ledger := by
  apply highWater_filter
  rintro attempt - rfl
  simpa using hledger

/-- The count of some attempts of a task is what they record in the ledgers of the task. -/
theorem combinedEvalAttemptCount_ofTask (h : attempts ⊆ observed) :
    combinedEvalAttemptCount (ofTask task attempts) =
      ∑ ledger ∈ ledgersOf task observed, ledgerMark attempts ledger := by
  have hkeys : ∀ attempt ∈ ofTask task attempts, evalLedgerKey attempt ∈ ledgersOf task observed := by
    intro attempt hattempt
    obtain ⟨hmem, htask⟩ := mem_ofTask.mp hattempt
    exact mem_ledgersOf.mpr ⟨attempt, h hmem, htask, rfl⟩
  rw [combinedEvalAttemptCount, evalAttemptIncrements, sum_raises hkeys]
  exact Finset.sum_congr rfl fun ledger hledger => ledgerMark_ofTask (task_of_mem_ledgersOf hledger)

/-- The count of a task is the sum of the largest counts of its ledgers. -/
theorem observedEvalAttemptCount_eq (observed : List ObservedAttempt) (task : Str) :
    observedEvalAttemptCount observed task =
      ∑ ledger ∈ ledgersOf task observed, ledgerMark observed ledger :=
  combinedEvalAttemptCount_ofTask (List.Subset.refl _)

/-- The order of the attempts in a record makes no difference to its count. -/
theorem Acceptance.evalAttemptCount_eq {s : Acceptance} (h : s.acceptedAttempts ⊆ observed) :
    s.evalAttemptCount task =
      ∑ ledger ∈ ledgersOf task observed, ledgerMark s.acceptedAttempts ledger := by
  have hperm : (s.taskAttempts task).Perm (ofTask task s.acceptedAttempts) :=
    List.perm_insertionSort _ _
  have hofTask : ofTask task (s.taskAttempts task) = s.taskAttempts task := by
    apply List.filter_eq_self.mpr
    intro attempt hattempt
    simpa using (mem_ofTask.mp (hperm.mem_iff.mp hattempt)).2
  have hsubset : s.taskAttempts task ⊆ observed := fun attempt hattempt =>
    h (mem_ofTask.mp (hperm.mem_iff.mp hattempt)).1
  rw [Acceptance.evalAttemptCount, ← hofTask, combinedEvalAttemptCount_ofTask hsubset]
  refine Finset.sum_congr rfl fun ledger hledger => ?_
  exact (highWater_perm hperm).trans (ledgerMark_ofTask (task_of_mem_ledgersOf hledger))

theorem mem_exhausted {maxEvalAttempts : Int} :
    task ∈ exhausted maxEvalAttempts observed ↔
      (∃ attempt ∈ observed, attempt.task = task) ∧
        maxEvalAttempts < observedEvalAttemptCount observed task := by
  simp [exhausted]

end Counts

section Run

variable (maxRounds maxEvalAttempts : Int) (exhaustedTasks : List Str)

/-- What an attempt adds to its ledger after others. -/
def increment (earlier : List ObservedAttempt) (attempt : ObservedAttempt) : Nat :=
  recordedCount attempt - ledgerMark earlier (evalLedgerKey attempt)

/-- An attempt fits the budget of its task after others. -/
def Fits (earlier : List ObservedAttempt) (attempt : ObservedAttempt) : Prop :=
  ((accepting maxRounds maxEvalAttempts exhaustedTasks earlier).acceptedEvalAttempts attempt.task +
    increment earlier attempt : Nat) ≤ maxEvalAttempts

/-- An attempt that fits the budget records no more than the accepted attempts of its ledger, unless
all that the ledger records was accepted. -/
def KeepsEvidenceOut (earlier : List ObservedAttempt) (attempt : ObservedAttempt) : Prop :=
  Fits maxRounds maxEvalAttempts exhaustedTasks earlier attempt →
    let acceptedMark := ledgerMark
      (accepting maxRounds maxEvalAttempts exhaustedTasks earlier).acceptedAttempts
      (evalLedgerKey attempt)
    recordedCount attempt ≤ acceptedMark ∨ ledgerMark earlier (evalLedgerKey attempt) ≤ acceptedMark

/-- Something holds of every item after those that come before it. -/
def AtEach {α : Type} (P : List α → α → Prop) (items : List α) : Prop :=
  ∀ earlier item later, items = earlier ++ item :: later → P earlier item

theorem atEach_append_singleton {α : Type} {P : List α → α → Prop} {items : List α} {last : α} :
    AtEach P (items ++ [last]) ↔ AtEach P items ∧ P items last := by
  constructor
  · intro h
    refine ⟨?_, h items last [] rfl⟩
    rintro earlier item later rfl
    exact h earlier item (later ++ [last]) (by simp)
  · rintro ⟨h, hlast⟩ earlier item later hsplit
    rcases List.eq_nil_or_concat later with rfl | ⟨later, final, rfl⟩
    · obtain ⟨rfl, hitem⟩ := List.append_inj' hsplit rfl
      obtain rfl := List.singleton_inj.mp hitem
      exact hlast
    · rw [List.concat_eq_append, ← List.cons_append, ← List.append_assoc] at hsplit
      exact h earlier item later (List.append_inj' hsplit rfl).1

/-- What the attempts of a ledger that are set aside add to it. -/
def Acceptance.heldBack (s : Acceptance) (ledger : LedgerKey) : Nat :=
  ((s.overBudgetEvidence.filter fun item => decide (evalLedgerKey item.1 = ledger)).map Prod.snd).sum

theorem accepting_append_singleton (attempts : List ObservedAttempt) (attempt : ObservedAttempt) :
    accepting maxRounds maxEvalAttempts exhaustedTasks (attempts ++ [attempt]) =
      acceptStep maxRounds maxEvalAttempts exhaustedTasks
        (accepting maxRounds maxEvalAttempts exhaustedTasks attempts)
        (attempt, increment attempts attempt) := by
  rw [accepting, evalAttemptIncrements, raises_append_singleton, List.foldl_append]
  rfl

variable {maxRounds maxEvalAttempts exhaustedTasks} {s : Acceptance}
  {item : ObservedAttempt × Nat} {attempts : List ObservedAttempt}

/-- What one step can do: the attempt is left out, set aside or accepted. -/
theorem acceptStep_cases :
    (item.1.task ∉ exhaustedTasks ∧
        acceptStep maxRounds maxEvalAttempts exhaustedTasks s item = s) ∨
      (item.1.task ∉ exhaustedTasks ∧
        acceptStep maxRounds maxEvalAttempts exhaustedTasks s item =
          { s with acceptedAttempts := s.acceptedAttempts ++ [item.1] }) ∨
      (item.1.task ∈ exhaustedTasks ∧
        maxEvalAttempts < (s.acceptedEvalAttempts item.1.task + item.2 : Nat) ∧
        acceptStep maxRounds maxEvalAttempts exhaustedTasks s item =
          { s with overBudgetEvidence := s.overBudgetEvidence ++ [item] }) ∨
      (item.1.task ∈ exhaustedTasks ∧
        (s.acceptedEvalAttempts item.1.task + item.2 : Nat) ≤ maxEvalAttempts ∧
        acceptStep maxRounds maxEvalAttempts exhaustedTasks s item =
          { s with
            acceptedEvalAttempts := Function.update s.acceptedEvalAttempts item.1.task
              (s.acceptedEvalAttempts item.1.task + item.2)
            acceptedAttempts := s.acceptedAttempts ++ [item.1] }) := by
  unfold acceptStep
  dsimp only
  by_cases hexhausted : item.1.task ∈ exhaustedTasks
  · rw [if_neg (by simpa using hexhausted)]
    split_ifs with hover
    · exact .inr (.inr (.inl ⟨hexhausted, hover, rfl⟩))
    · exact .inr (.inr (.inr ⟨hexhausted, not_lt.mp hover, rfl⟩))
  · rw [if_pos (by simpa using hexhausted)]
    split_ifs with hround
    · exact .inr (.inl ⟨hexhausted, rfl⟩)
    · exact .inl ⟨hexhausted, rfl⟩

/-- What is accepted or set aside was observed. -/
theorem accepting_subset :
    (accepting maxRounds maxEvalAttempts exhaustedTasks attempts).acceptedAttempts ⊆ attempts ∧
      ∀ item ∈ (accepting maxRounds maxEvalAttempts exhaustedTasks attempts).overBudgetEvidence,
        item.1 ∈ attempts := by
  induction attempts using List.reverseRecOn with
  | nil => simp [accepting, evalAttemptIncrements, raises, Acceptance.start]
  | append_singleton attempts attempt ih =>
    obtain ⟨haccepted, hevidence⟩ := ih
    have hkept : (accepting maxRounds maxEvalAttempts exhaustedTasks attempts).acceptedAttempts ⊆
        attempts ++ [attempt] := fun _ hmem => List.mem_append_left _ (haccepted hmem)
    rw [accepting_append_singleton]
    rcases acceptStep_cases with ⟨-, hstep⟩ | ⟨-, hstep⟩ | ⟨-, -, hstep⟩ | ⟨-, -, hstep⟩ <;> rw [hstep]
    · exact ⟨hkept, fun item hitem => List.mem_append_left _ (hevidence item hitem)⟩
    · exact ⟨List.append_subset.mpr ⟨hkept, by simp⟩,
        fun item hitem => List.mem_append_left _ (hevidence item hitem)⟩
    · refine ⟨hkept, fun item hitem => ?_⟩
      rcases List.mem_append.mp hitem with hitem | hitem
      · exact List.mem_append_left _ (hevidence item hitem)
      · rw [List.mem_singleton.mp hitem]
        simp
    · exact ⟨List.append_subset.mpr ⟨hkept, by simp⟩,
        fun item hitem => List.mem_append_left _ (hevidence item hitem)⟩

theorem heldBack_append_singleton (evidence : List (ObservedAttempt × Nat)) (ledger : LedgerKey) :
    Acceptance.heldBack { s with overBudgetEvidence := evidence ++ [item] } ledger =
      Acceptance.heldBack { s with overBudgetEvidence := evidence } ledger +
        if evalLedgerKey item.1 = ledger then item.2 else 0 := by
  unfold Acceptance.heldBack
  rw [List.filter_append, List.map_append, List.sum_append]
  by_cases hledger : evalLedgerKey item.1 = ledger <;> simp [hledger]

/-- What one step does to the books of a ledger: they change only with an attempt of the ledger, which
counts as set aside or, when it fits the budget, as accepted. -/
theorem acceptStep_books {ledger : LedgerKey} (hexhausted : ledger.task ∈ exhaustedTasks) :
    let s' := acceptStep maxRounds maxEvalAttempts exhaustedTasks s item
    if evalLedgerKey item.1 = ledger then
      if (s.acceptedEvalAttempts item.1.task + item.2 : Nat) ≤ maxEvalAttempts then
        ledgerMark s'.acceptedAttempts ledger =
            max (ledgerMark s.acceptedAttempts ledger) (recordedCount item.1) ∧
          s'.heldBack ledger = s.heldBack ledger
      else
        ledgerMark s'.acceptedAttempts ledger = ledgerMark s.acceptedAttempts ledger ∧
          s'.heldBack ledger = s.heldBack ledger + item.2
    else
      ledgerMark s'.acceptedAttempts ledger = ledgerMark s.acceptedAttempts ledger ∧
        s'.heldBack ledger = s.heldBack ledger := by
  dsimp only
  have hmark := ledgerMark_append_singleton s.acceptedAttempts item.1 ledger
  have hheld := @heldBack_append_singleton s item s.overBudgetEvidence ledger
  rcases @acceptStep_cases maxRounds maxEvalAttempts exhaustedTasks s item with
    ⟨hnot, hstep⟩ | ⟨hnot, hstep⟩ | ⟨-, hover, hstep⟩ | ⟨-, hfits, hstep⟩ <;> rw [hstep]
  · have hother : evalLedgerKey item.1 ≠ ledger := by
      rintro rfl
      exact hnot (by simpa using hexhausted)
    rw [if_neg hother]
    exact ⟨rfl, rfl⟩
  · have hother : evalLedgerKey item.1 ≠ ledger := by
      rintro rfl
      exact hnot (by simpa using hexhausted)
    rw [if_neg hother] at hmark ⊢
    exact ⟨hmark, rfl⟩
  · split_ifs at hheld ⊢ with hledger hfits
    · exact absurd hover (not_lt.mpr hfits)
    · exact ⟨rfl, hheld⟩
    · exact ⟨rfl, hheld⟩
  · split_ifs at hmark ⊢ with hledger
    · exact ⟨hmark, rfl⟩
    · exact ⟨hmark, rfl⟩

/-- The books of a ledger of an exhausted task. What is accepted and what is set aside are together at
least what the ledger records, and they are no more just when no accepted attempt brings the count of
one that was set aside back in. -/
theorem ledger_balance {ledger : LedgerKey} (hexhausted : ledger.task ∈ exhaustedTasks) :
    ledgerMark (accepting maxRounds maxEvalAttempts exhaustedTasks attempts).acceptedAttempts ledger ≤
        ledgerMark attempts ledger ∧
      ledgerMark attempts ledger ≤
        ledgerMark (accepting maxRounds maxEvalAttempts exhaustedTasks attempts).acceptedAttempts
            ledger +
          (accepting maxRounds maxEvalAttempts exhaustedTasks attempts).heldBack ledger ∧
      (ledgerMark (accepting maxRounds maxEvalAttempts exhaustedTasks attempts).acceptedAttempts
            ledger +
          (accepting maxRounds maxEvalAttempts exhaustedTasks attempts).heldBack ledger =
          ledgerMark attempts ledger ↔
        AtEach (fun earlier attempt => evalLedgerKey attempt = ledger →
          KeepsEvidenceOut maxRounds maxEvalAttempts exhaustedTasks earlier attempt) attempts) := by
  induction attempts using List.reverseRecOn with
  | nil =>
    simp [AtEach, accepting, evalAttemptIncrements, raises, Acceptance.start, Acceptance.heldBack,
      ledgerMark, highWater]
  | append_singleton attempts attempt ih =>
    obtain ⟨hle, hcovered, hiff⟩ := ih
    have hbooks := @acceptStep_books maxRounds maxEvalAttempts exhaustedTasks
      (accepting maxRounds maxEvalAttempts exhaustedTasks attempts)
      (attempt, increment attempts attempt) ledger hexhausted
    dsimp only at hbooks
    rw [atEach_append_singleton, ← hiff, accepting_append_singleton, ledgerMark_append_singleton,
      KeepsEvidenceOut, Fits]
    generalize accepting maxRounds maxEvalAttempts exhaustedTasks attempts = s at *
    split_ifs at hbooks ⊢ with hledger hfits
    · obtain ⟨hmark, hheld⟩ := hbooks
      subst hledger
      rw [hmark, hheld]
      simp only [hfits, true_imp_iff]
      omega
    · obtain ⟨hmark, hheld⟩ := hbooks
      subst hledger
      rw [hmark, hheld]
      simp only [hfits, false_imp_iff, imp_true_iff, and_true]
      unfold increment
      omega
    · obtain ⟨hmark, hheld⟩ := hbooks
      rw [hmark, hheld]
      simp only [hledger, false_imp_iff, and_true]
      exact ⟨hle, hcovered⟩

theorem setAside_append_singleton (evidence : List (ObservedAttempt × Nat)) (task : Str) :
    Acceptance.setAside { s with overBudgetEvidence := evidence ++ [item] } task =
      Acceptance.setAside { s with overBudgetEvidence := evidence } task +
        if item.1.task = task then item.2 else 0 := by
  unfold Acceptance.setAside
  rw [List.filter_append, List.map_append, List.sum_append]
  by_cases htask : item.1.task = task <;> simp [htask]

/-- One more attempt counts for its task what it adds to its ledger. -/
theorem combinedEvalAttemptCount_ofTask_append_singleton (attempts : List ObservedAttempt)
    (attempt : ObservedAttempt) (task : Str) :
    combinedEvalAttemptCount (ofTask task (attempts ++ [attempt])) =
      combinedEvalAttemptCount (ofTask task attempts) +
        if attempt.task = task then increment attempts attempt else 0 := by
  unfold ofTask combinedEvalAttemptCount evalAttemptIncrements
  rw [List.filter_append]
  by_cases htask : attempt.task = task
  · subst htask
    have hmark : ledgerMark (ofTask attempt.task attempts) (evalLedgerKey attempt) =
        ledgerMark attempts (evalLedgerKey attempt) := ledgerMark_ofTask (evalLedgerKey_task attempt)
    rw [ledgerMark, ofTask] at hmark
    simp [raises_append_singleton, hmark, increment]
  · simp [htask]

/-- What is accepted within the budget of an exhausted task and what is set aside are all that is
observed of it, and what is accepted is within the budget. -/
theorem task_balance {task : Str} (hexhausted : task ∈ exhaustedTasks) :
    (accepting maxRounds maxEvalAttempts exhaustedTasks attempts).acceptedEvalAttempts task +
          (accepting maxRounds maxEvalAttempts exhaustedTasks attempts).setAside task =
        combinedEvalAttemptCount (ofTask task attempts) ∧
      ((∃ attempt ∈ (accepting maxRounds maxEvalAttempts exhaustedTasks attempts).acceptedAttempts,
          attempt.task = task) →
        ((accepting maxRounds maxEvalAttempts exhaustedTasks attempts).acceptedEvalAttempts task : Int) ≤
          maxEvalAttempts) := by
  induction attempts using List.reverseRecOn with
  | nil => exact ⟨rfl, by simp [accepting, evalAttemptIncrements, raises, Acceptance.start]⟩
  | append_singleton attempts attempt ih =>
    rw [accepting_append_singleton, combinedEvalAttemptCount_ofTask_append_singleton]
    generalize accepting maxRounds maxEvalAttempts exhaustedTasks attempts = s at *
    obtain ⟨hsum, hle⟩ := ih
    rcases @acceptStep_cases maxRounds maxEvalAttempts exhaustedTasks s
        (attempt, increment attempts attempt) with
      ⟨hnot, hstep⟩ | ⟨hnot, hstep⟩ | ⟨-, hover, hstep⟩ | ⟨-, hfits, hstep⟩ <;> rw [hstep]
    · rw [if_neg (ne_of_mem_of_not_mem hexhausted hnot).symm]
      exact ⟨hsum, hle⟩
    · have htask : attempt.task ≠ task := (ne_of_mem_of_not_mem hexhausted hnot).symm
      rw [if_neg htask]
      refine ⟨hsum, fun haccepted => hle ?_⟩
      simpa [htask, or_and_right, exists_or] using haccepted
    · have hheld := @setAside_append_singleton s (attempt, increment attempts attempt)
        s.overBudgetEvidence task
      refine ⟨?_, hle⟩
      rw [hheld, ← hsum]
      exact (Nat.add_assoc _ _ _).symm
    · by_cases htask : attempt.task = task
      · subst htask
        simp only [Function.update_self, if_true]
        refine ⟨?_, fun _ => hfits⟩
        rw [← hsum]
        exact Nat.add_right_comm _ _ _
      · rw [if_neg htask]
        simp only [Function.update_of_ne (Ne.symm htask)]
        refine ⟨hsum, fun haccepted => hle ?_⟩
        simpa [htask, or_and_right, exists_or] using haccepted

/-- What is set aside of a task is what is set aside of its ledgers. -/
theorem setAside_eq_sum {observed : List ObservedAttempt} {task : Str}
    (h : ∀ item ∈ s.overBudgetEvidence, item.1 ∈ observed) :
    s.setAside task = ∑ ledger ∈ ledgersOf task observed, s.heldBack ledger := by
  unfold Acceptance.setAside Acceptance.heldBack
  generalize s.overBudgetEvidence = evidence at h
  induction evidence with
  | nil => simp
  | cons item rest ih =>
    obtain ⟨hitem, hrest⟩ := List.forall_mem_cons.mp h
    have hmem : evalLedgerKey item.1 ∈ ledgersOf task observed ↔ item.1.task = task := by
      constructor
      · intro hledger
        simpa using task_of_mem_ledgersOf hledger
      · intro htask
        exact mem_ledgersOf.mpr ⟨item.1, hitem, htask, rfl⟩
    have hledgers : ∀ ledger, ((((item :: rest).filter fun item =>
        decide (evalLedgerKey item.1 = ledger)).map Prod.snd).sum) =
        (if evalLedgerKey item.1 = ledger then item.2 else 0) +
          ((rest.filter fun item => decide (evalLedgerKey item.1 = ledger)).map Prod.snd).sum := by
      intro ledger
      by_cases hledger : evalLedgerKey item.1 = ledger <;> simp [hledger]
    simp only [hledgers]
    rw [Finset.sum_add_distrib, Finset.sum_ite_eq, ← ih hrest]
    by_cases htask : item.1.task = task
    · simp [htask, hmem.mpr htask]
    · simp [htask, mt hmem.mp htask]

end Run

section Accounts

variable {maxRounds maxEvalAttempts : Int} {observed : List ObservedAttempt} {s : Acceptance}

/-- The accounts of the final report: the count of every task is what its ledgers record, no task is
reported with more attempts than the budget has, and those of a task beyond the budget are reported
or set aside. -/
structure AccountsConserved (maxEvalAttempts : Int) (observed : List ObservedAttempt)
    (s : Acceptance) : Prop where
  observed_eq : ∀ task, observedEvalAttemptCount observed task =
    ∑ ledger ∈ ledgersOf task observed, ledgerMark observed ledger
  reported_le : ∀ task ∈ s.recordedTasks, (s.evalAttemptCount task : Int) ≤ maxEvalAttempts
  balanced : ∀ task ∈ exhausted maxEvalAttempts observed,
    s.evalAttemptCount task + s.setAside task = observedEvalAttemptCount observed task

/-- No attempt of a task beyond the budget is accepted whose count is above those accepted of its
ledger, once a higher count of the ledger was set aside. -/
def EvidenceStaysOut (maxRounds maxEvalAttempts : Int) (observed : List ObservedAttempt) : Prop :=
  AtEach (fun earlier attempt => attempt.task ∈ exhausted maxEvalAttempts observed →
    KeepsEvidenceOut maxRounds maxEvalAttempts (exhausted maxEvalAttempts observed) earlier attempt)
    observed

/-- A task within the budget is reported within it. -/
theorem evalAttemptCount_le_of_within (hsubset : s.acceptedAttempts ⊆ observed) {task : Str}
    (hrecorded : task ∈ s.recordedTasks) (hwithin : task ∉ exhausted maxEvalAttempts observed) :
    (s.evalAttemptCount task : Int) ≤ maxEvalAttempts := by
  obtain ⟨attempt, hattempt, htask⟩ : ∃ attempt ∈ s.acceptedAttempts, attempt.task = task := by
    simpa [Acceptance.recordedTasks] using (List.mem_filter.mp hrecorded).1
  have hobserved : (observedEvalAttemptCount observed task : Int) ≤ maxEvalAttempts :=
    not_lt.mp fun hlt => hwithin (mem_exhausted.mpr ⟨⟨attempt, hsubset hattempt, htask⟩, hlt⟩)
  have hle : s.evalAttemptCount task ≤ observedEvalAttemptCount observed task := by
    rw [Acceptance.evalAttemptCount_eq hsubset, observedEvalAttemptCount_eq]
    exact Finset.sum_le_sum fun ledger _ => highWater_mono hsubset
  omega

/-- A task beyond the budget is reported within it, as long as its accounts balance. -/
theorem evalAttemptCount_le_of_balanced {task : Str} {exhaustedTasks : List Str}
    (hexhausted : task ∈ exhaustedTasks)
    (hrecorded : task ∈ (accepting maxRounds maxEvalAttempts exhaustedTasks observed).recordedTasks)
    (hbalanced : (accepting maxRounds maxEvalAttempts exhaustedTasks observed).evalAttemptCount task +
        (accepting maxRounds maxEvalAttempts exhaustedTasks observed).setAside task =
      observedEvalAttemptCount observed task) :
    ((accepting maxRounds maxEvalAttempts exhaustedTasks observed).evalAttemptCount task : Int) ≤
      maxEvalAttempts := by
  have haccepted : ∃ attempt ∈
      (accepting maxRounds maxEvalAttempts exhaustedTasks observed).acceptedAttempts,
      attempt.task = task := by
    simpa [Acceptance.recordedTasks] using (List.mem_filter.mp hrecorded).1
  obtain ⟨hsum, hle⟩ := @task_balance maxRounds maxEvalAttempts exhaustedTasks observed task hexhausted
  have hcount := hle haccepted
  rw [observedEvalAttemptCount] at hbalanced
  omega

/-- The accounts of a task beyond the budget balance just when those of all its ledgers do. -/
theorem balanced_iff {task : Str} {exhaustedTasks : List Str} (hexhausted : task ∈ exhaustedTasks) :
    (accepting maxRounds maxEvalAttempts exhaustedTasks observed).evalAttemptCount task +
        (accepting maxRounds maxEvalAttempts exhaustedTasks observed).setAside task =
        observedEvalAttemptCount observed task ↔
      ∀ ledger ∈ ledgersOf task observed,
        AtEach (fun earlier attempt => evalLedgerKey attempt = ledger →
          KeepsEvidenceOut maxRounds maxEvalAttempts exhaustedTasks earlier attempt) observed := by
  obtain ⟨hsubset, hevidence⟩ := @accepting_subset maxRounds maxEvalAttempts exhaustedTasks observed
  have hbooks := fun ledger (hledger : ledger ∈ ledgersOf task observed) =>
    @ledger_balance maxRounds maxEvalAttempts exhaustedTasks observed ledger
      (by rwa [task_of_mem_ledgersOf hledger])
  rw [Acceptance.evalAttemptCount_eq hsubset, setAside_eq_sum hevidence, observedEvalAttemptCount_eq,
    ← Finset.sum_add_distrib, eq_comm,
    Finset.sum_eq_sum_iff_of_le fun ledger hledger => (hbooks ledger hledger).2.1]
  refine forall₂_congr fun ledger hledger => ?_
  rw [eq_comm]
  exact (hbooks ledger hledger).2.2

/-- The accounts are conserved just when evidence that is set aside stays out of the report. -/
theorem accounts_conserved_iff (maxRounds maxEvalAttempts : Int) (observed : List ObservedAttempt) :
    ∃ s, acceptAttempts maxRounds maxEvalAttempts true observed = .ok s ∧
      (AccountsConserved maxEvalAttempts observed s ↔
        EvidenceStaysOut maxRounds maxEvalAttempts observed) := by
  by_cases hnone : exhausted maxEvalAttempts observed = []
  · refine ⟨_, by rw [acceptAttempts, hnone]; rfl, iff_of_true ⟨?_, ?_, ?_⟩ ?_⟩
    · exact observedEvalAttemptCount_eq observed
    · intro task hrecorded
      refine evalAttemptCount_le_of_within (List.filter_subset_self _) hrecorded ?_
      rw [hnone]
      exact List.not_mem_nil
    · simp [hnone]
    · intro earlier attempt later _ hexhausted
      rw [hnone] at hexhausted
      exact absurd hexhausted List.not_mem_nil
  · refine ⟨accepting maxRounds maxEvalAttempts (exhausted maxEvalAttempts observed) observed, ?_, ?_⟩
    · simp [acceptAttempts, hnone]
    constructor
    · rintro ⟨-, -, hbalanced⟩ earlier attempt later hsplit hexhausted
      have hledger : evalLedgerKey attempt ∈ ledgersOf attempt.task observed :=
        mem_ledgersOf.mpr ⟨attempt, by simp [hsplit], rfl, rfl⟩
      exact (balanced_iff hexhausted).mp (hbalanced _ hexhausted) _ hledger earlier attempt later hsplit
        rfl
    · intro hout
      have hbalanced : ∀ task ∈ exhausted maxEvalAttempts observed,
          (accepting maxRounds maxEvalAttempts (exhausted maxEvalAttempts observed)
              observed).evalAttemptCount task +
            (accepting maxRounds maxEvalAttempts (exhausted maxEvalAttempts observed)
              observed).setAside task = observedEvalAttemptCount observed task := by
        intro task htask
        refine (balanced_iff htask).mpr fun ledger hledger earlier attempt later hsplit hkey => ?_
        refine hout earlier attempt later hsplit ?_
        rwa [← evalLedgerKey_task attempt, hkey, task_of_mem_ledgersOf hledger]
      refine ⟨observedEvalAttemptCount_eq observed, fun task hrecorded => ?_, hbalanced⟩
      by_cases htask : task ∈ exhausted maxEvalAttempts observed
      · exact evalAttemptCount_le_of_balanced htask hrecorded (hbalanced task htask)
      · exact evalAttemptCount_le_of_within accepting_subset.1 hrecorded htask

/-- An attempt that records a cumulative count in the ledger of one candidate. -/
def sampleAttempt (count round : Int) : ObservedAttempt where
  task := "a"
  generationLog := "/r/generation_logs/a.log"
  reportPath := []
  sourceReport := "1.json"
  round := round
  evalStatus := "eval_done"
  resolved := some false
  row := [(lit "eval", .dict [(lit "attempt_count", .int count)])]

/-- With a budget of four, an attempt with count 6 is set aside and a mirrored copy of it is accepted:
the report gives six attempts for the task. -/
theorem mirroredEvidence_reported :
    ∃ s, acceptAttempts 3 4 true [sampleAttempt 1 1, sampleAttempt 6 2, sampleAttempt 6 3] = .ok s ∧
      s.evalAttemptCount "a" = 6 ∧
      ¬AccountsConserved 4 [sampleAttempt 1 1, sampleAttempt 6 2, sampleAttempt 6 3] s := by
  refine ⟨_, rfl, by decide +kernel, fun h => ?_⟩
  exact absurd (h.reported_le "a" (by decide +kernel)) (by decide +kernel)

end Accounts

end OpenCollabEval.BudgetEvidence
