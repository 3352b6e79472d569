import OpenCollabEval.Evidence.PytestCollection

/-!
# Soundness of pytest evidence

What the report loop knows about the events it has read is kept by one event, hence by the whole stream.
From it follows what a pass proof says about every declared target, and that a pass, a failure and a skip
exclude each other.
-/

open Python

namespace OpenCollabEval

namespace PytestProof

section Targets

/-- The node is the target itself, one of its parameter instances or one of its members. -/
def NamedBy (target node : Str) : Prop :=
  if Str.contains target "::" then node = target ∨ ∃ rest, node = target ++ lit "[" ++ rest
  else node = target.rstripOf (· == 47) ∨
    (∃ rest, node = target.rstripOf (· == 47) ++ lit "::" ++ rest) ∨
    ∃ rest, node = target.rstripOf (· == 47) ++ lit "/" ++ rest

/-- A node starts with a text when it is that text and something more. -/
theorem startsWith_iff (s start : Str) : s.startsWith start = true ↔ ∃ rest, s = start ++ rest := by
  rw [Str.startsWith, List.isPrefixOf_iff_prefix]
  exact ⟨fun ⟨rest, h⟩ => ⟨rest, h.symm⟩, fun ⟨rest, h⟩ => ⟨rest, h.symm⟩⟩

theorem targetMatchesNode_iff (target node : Str) :
    targetMatchesNode target node = true ↔ NamedBy target node := by
  rw [targetMatchesNode, NamedBy]
  split_ifs with hnode
  · simp only [Bool.or_eq_true, beq_iff_eq, startsWith_iff]
  · simp only [Bool.or_eq_true, beq_iff_eq, startsWith_iff, or_assoc]

/-- The node counts for the target: it is named by the target, or, when no collected node is, it is a
parameter instance of the target's parent and the parent is a fallback parent. -/
def StandsFor (nodeids parents : List Str) (target node : Str) : Prop :=
  NamedBy target node ∨
    (∀ other ∈ nodeids, ¬NamedBy target other) ∧ pytestParameterParent target ≠ [] ∧
      pytestParameterParent target ∈ parents ∧
      ∃ rest, node = pytestParameterParent target ++ lit "[" ++ rest

/-- The nodes of a target are the collected nodes that count for it, and there is one. -/
theorem mem_matchingNodes {nodeids parents nodes : List Str} {target : Str}
    (h : matchingNodes nodeids parents target = some nodes) :
    nodes ≠ [] ∧ ∀ node, node ∈ nodes ↔ node ∈ nodeids ∧ StandsFor nodeids parents target node := by
  simp only [matchingNodes] at h
  split_ifs at h with hexact hparent hinstances
  · -- some node is named by the target
    obtain rfl := Option.some.inj h
    have hexact : nodeids.filter (targetMatchesNode target) ≠ [] := by simpa using hexact
    refine ⟨hexact, fun node => ?_⟩
    rw [List.mem_filter, targetMatchesNode_iff]
    obtain ⟨other, hother⟩ := List.exists_mem_of_ne_nil _ hexact
    obtain ⟨hmem, hnamed⟩ := List.mem_filter.mp hother
    rw [targetMatchesNode_iff] at hnamed
    constructor
    · rintro ⟨hnode, hname⟩
      exact ⟨hnode, .inl hname⟩
    · rintro ⟨hnode, hname | ⟨hnone, -⟩⟩
      · exact ⟨hnode, hname⟩
      · exact absurd hnamed (hnone other hmem)
  · -- the parent is listed, and has instances
    obtain rfl := Option.some.inj h
    have hnone : ∀ other ∈ nodeids, ¬NamedBy target other := by
      intro other hother hnamed
      rw [← targetMatchesNode_iff] at hnamed
      have hmem : other ∈ nodeids.filter (targetMatchesNode target) :=
        List.mem_filter.mpr ⟨hother, hnamed⟩
      have hempty : nodeids.filter (targetMatchesNode target) = [] := by simpa using hexact
      simp [hempty] at hmem
    simp only [Bool.or_eq_true, List.isEmpty_iff, Bool.not_eq_true', not_or,
      Bool.not_eq_false, List.contains_iff_mem] at hparent
    refine ⟨by simpa using hinstances, fun node => ?_⟩
    rw [List.mem_filter, startsWith_iff]
    constructor
    · rintro ⟨hnode, hrest⟩
      exact ⟨hnode, .inr ⟨hnone, hparent.1, hparent.2, hrest⟩⟩
    · rintro ⟨hnode, hname | ⟨-, -, -, hrest⟩⟩
      · exact absurd hname (hnone node hnode)
      · exact ⟨hnode, hrest⟩

/-- The nodes that an execution selects are the ones that count for a declared target. -/
theorem mem_flatten_matchingNodes {nodeids parents : List Str} {targets : List Str}
    {targetNodes : List (List Str)}
    (h : targets.mapM (matchingNodes nodeids parents) = some targetNodes) (node : Str) :
    node ∈ targetNodes.flatten ↔
      node ∈ nodeids ∧ ∃ target ∈ targets, StandsFor nodeids parents target node := by
  induction targets generalizing targetNodes with
  | nil =>
    obtain rfl : [] = targetNodes := by simpa using h
    simp
  | cons target rest ih =>
    simp only [List.mapM_cons, Option.bind_eq_bind, Option.bind_eq_some_iff, Option.pure_def,
      Option.some.injEq] at h
    obtain ⟨nodes, hnodes, others, hothers, rfl⟩ := h
    rw [List.flatten_cons, List.mem_append, ih hothers, (mem_matchingNodes hnodes).2 node]
    constructor
    · rintro (⟨hnode, hstands⟩ | ⟨hnode, other, hother, hstands⟩)
      · exact ⟨hnode, target, List.mem_cons_self, hstands⟩
      · exact ⟨hnode, other, List.mem_cons_of_mem _ hother, hstands⟩
    · rintro ⟨hnode, other, hother, hstands⟩
      rcases List.mem_cons.mp hother with rfl | hother
      · exact .inl ⟨hnode, hstands⟩
      · exact .inr ⟨hnode, other, hother, hstands⟩

/-- Every declared target of an execution has a collected node. -/
theorem exists_standsFor {nodeids parents : List Str} {targets : List Str}
    {targetNodes : List (List Str)}
    (h : targets.mapM (matchingNodes nodeids parents) = some targetNodes) :
    ∀ target ∈ targets, ∃ node ∈ nodeids, StandsFor nodeids parents target node := by
  induction targets generalizing targetNodes with
  | nil => simp
  | cons target rest ih =>
    simp only [List.mapM_cons, Option.bind_eq_bind, Option.bind_eq_some_iff, Option.pure_def,
      Option.some.injEq] at h
    obtain ⟨nodes, hnodes, others, hothers, -⟩ := h
    rw [List.forall_mem_cons]
    obtain ⟨hnonempty, hmem⟩ := mem_matchingNodes hnodes
    obtain ⟨node, hnode⟩ := List.exists_mem_of_ne_nil _ hnonempty
    exact ⟨⟨node, (hmem node).mp hnode⟩, ih hothers⟩

end Targets

section Reading

/-- What is found in a set of strings is the string of the option found. -/
theorem eq_of_lookUp {α : Type} {name : α → Str} {options : List α} {v : Json} {option : α}
    (h : lookUp name options v = .ok (some option)) : v = .str (name option) := by
  rw [lookUp] at h
  split_ifs at h
  have hfound := List.find?_some (Except.ok.inj h)
  exact (Json.eqStr_iff v _).mp hfound

/-- A report of one phase of one node. -/
def isPhaseReport (node : Str) (phase : Phase) (event : Obj) : Bool :=
  isEvent "runtest_logreport" event && (event.get "nodeid").eqStr node &&
    (event.get "when").eqStr phase.name

/-- The reports of one phase of one node, in the order of the stream. -/
def phaseReports (events : List Obj) (node : Str) (phase : Phase) : List Obj :=
  events.filter (isPhaseReport node phase)

/-- A phase is spelled in one way. -/
theorem Phase.name_injective : Function.Injective Phase.name := by
  intro phase other h
  cases phase <;> cases other <;> first | rfl | exact absurd h (by decide)

/-- What one event does to the reports: nothing, or it records the outcome of a phase that had none. -/
theorem addReport_cases {nodeids : List Str} {reports reports' : Reports} {event : Obj}
    (h : addReport nodeids reports event = .ok (some reports')) :
    (isEvent "runtest_logreport" event = false ∧ reports' = reports) ∨
    (isEvent "runtest_logreport" event = true ∧ ∃ node phase outcome,
      event.get "nodeid" = .str node ∧ node ∈ nodeids ∧
      event.get "when" = .str (Phase.name phase) ∧
      event.get "outcome" = .str (Outcome.name outcome) ∧
      (reports.table node).outcomeAt phase = none ∧
      reports' = reports.record node phase outcome) := by
  rw [addReport] at h
  split_ifs at h with hevent
  · exact .inl ⟨by simpa using hevent, (Option.some.inj (Except.ok.inj h)).symm⟩
  · refine .inr ⟨by simpa using hevent, ?_⟩
    split at h
    · simp at h
    · rename_i node hnode
      have hnode : event.get "nodeid" = .str node := by
        revert hnode
        cases event.get (lit "nodeid") <;> simp [Json.asStr]
      by_cases hcollected : node ∈ nodeids
      swap
      · simp [hcollected] at h
      simp only [List.contains_iff_mem.mpr hcollected, Bool.not_true, Bool.false_eq_true,
        if_false] at h
      obtain ⟨phase, hphase, h⟩ := bind_eq_ok_iff.mp h
      obtain _ | phase := phase
      · simp at h
      obtain ⟨outcome, houtcome, h⟩ := bind_eq_ok_iff.mp h
      obtain _ | outcome := outcome
      · simp at h
      simp only at h
      split_ifs at h with hfresh
      · simp at h
      · refine ⟨node, phase, outcome, hnode, hcollected, eq_of_lookUp hphase,
          eq_of_lookUp houtcome, by simpa using hfresh, ?_⟩
        simpa using h.symm

/-- What the reports know about the events that were read. -/
structure Recorded (nodeids : List Str) (seen : List Obj) (reports : Reports) : Prop where
  collected : ∀ node ∈ reports.nodes, node ∈ nodeids
  reported : ∀ node phase outcome, (reports.table node).outcomeAt phase = some outcome →
    ∃ event, phaseReports seen node phase = [event] ∧
      event.get "outcome" = .str (Outcome.name outcome)
  unreported : ∀ node phase, (reports.table node).outcomeAt phase = none →
    phaseReports seen node phase = []

/-- No report is recorded before the first event. -/
theorem recorded_start (nodeids : List Str) : Recorded nodeids [] .start where
  collected := by simp [Reports.start]
  reported node phase outcome h := by
    cases phase <;> simp [Reports.start, PhaseTable.outcomeAt] at h
  unreported _ _ _ := rfl

/-- The outcome of a phase after one more report. -/
theorem outcomeAt_record (reports : Reports) (node other : Str) (phase phase' : Phase)
    (outcome : Outcome) :
    ((reports.record node phase outcome).table other).outcomeAt phase' =
      if other = node ∧ phase' = phase then some outcome
      else (reports.table other).outcomeAt phase' := by
  by_cases hother : other = node
  · subst hother
    simp [Reports.record, PhaseTable.outcomeAt_set]
  · simp [Reports.record, hother]

/-- One event keeps what the reports know. -/
theorem Recorded.add {nodeids : List Str} {seen : List Obj} {reports reports' : Reports}
    {event : Obj} (h : Recorded nodeids seen reports)
    (hadd : addReport nodeids reports event = .ok (some reports')) :
    Recorded nodeids (seen ++ [event]) reports' := by
  rcases addReport_cases hadd with ⟨hevent, rfl⟩ |
    ⟨hevent, node, phase, outcome, hnode, hcollected, hwhen, houtcome, hfresh, rfl⟩
  · -- another event: the reports of every phase stay
    have hsame (node : Str) (phase : Phase) :
        phaseReports (seen ++ [event]) node phase = phaseReports seen node phase := by
      simp [phaseReports, isPhaseReport, hevent]
    constructor
    · exact h.collected
    · intro node phase outcome houtcome
      rw [hsame]
      exact h.reported node phase outcome houtcome
    · intro node phase hnone
      rw [hsame]
      exact h.unreported node phase hnone
  · have hreport (other : Str) (phase' : Phase) :
        isPhaseReport other phase' event = decide (other = node ∧ phase' = phase) := by
      simp only [isPhaseReport, hevent, hnode, hwhen, Json.eqStr, Bool.true_and]
      by_cases hother : node = other
      · by_cases hphase : phase = phase'
        · simp [hother, hphase]
        · have hname : Phase.name phase ≠ Phase.name phase' := fun hsame =>
            hphase (Phase.name_injective hsame)
          simp [hname, Ne.symm hphase]
      · simp [hother, Ne.symm hother]
    have happend (other : Str) (phase' : Phase) : phaseReports (seen ++ [event]) other phase' =
        phaseReports seen other phase' ++ if other = node ∧ phase' = phase then [event] else [] := by
      simp only [phaseReports, List.filter_append, List.filter_cons, List.filter_nil, hreport,
        decide_eq_true_eq]
    constructor
    · intro other hother
      simp only [Reports.record, appendFresh] at hother
      split_ifs at hother
      · exact h.collected other hother
      · rcases List.mem_append.mp hother with hold | hnew
        · exact h.collected other hold
        · obtain rfl : other = node := by simpa using hnew
          exact hcollected
    · intro other phase' outcome' hat
      rw [outcomeAt_record] at hat
      rw [happend]
      split_ifs at hat with hhere
      · obtain ⟨rfl, rfl⟩ := hhere
        obtain rfl := Option.some.inj hat
        exact ⟨event, by simp [h.unreported _ _ hfresh], houtcome⟩
      · simpa [hhere] using h.reported other phase' outcome' hat
    · intro other phase' hat
      rw [outcomeAt_record] at hat
      rw [happend]
      split_ifs at hat with hhere
      simpa [hhere] using h.unreported other phase' hat

/-- The report loop keeps what the reports know. -/
theorem Recorded.collect {nodeids : List Str} {seen rest : List Obj} {reports reports' : Reports}
    (h : Recorded nodeids seen reports)
    (hloop : collectReports nodeids reports rest = .ok (some reports')) :
    Recorded nodeids (seen ++ rest) reports' := by
  induction rest generalizing seen reports with
  | nil =>
    obtain rfl : reports = reports' := by simpa [collectReports] using hloop
    simpa using h
  | cons event rest ih =>
    rw [collectReports] at hloop
    obtain ⟨next, hnext, hloop⟩ := bind_eq_ok_iff.mp hloop
    obtain _ | next := next
    · simp at hloop
    simpa using ih (h.add hnext) hloop

end Reading

end PytestProof

end OpenCollabEval
