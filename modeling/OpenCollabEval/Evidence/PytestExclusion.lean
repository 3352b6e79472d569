import OpenCollabEval.Evidence.PytestSoundness

/-!
# Unambiguous pytest evidence

At most one of the pass proof, the failure proofs and the skip proof holds of a stream, and a pass proof
says of every declared target that its nodes were collected and passed in every phase.
-/

open Python

namespace OpenCollabEval

namespace PytestProof

section Session

variable {rt : Runtime} {depth : Nat} {targets : List Str} {proofText : Str}
  {fallback commandSha256 : Json}

/-- The session that a proof text describes. -/
structure Session (rt : Runtime) (depth : Nat) (proofText : Str) (commandSha256 : Json)
    (events : List Obj) (nodeids : List Str) (exitstatus : Int) : Prop where
  /-- The lines of the text are the events. -/
  parsed : proofEvents depth proofText = .ok (some (events.map .dict))
  controller : controllerProofMatches rt events commandSha256 = true
  /-- The nodes are collected once. -/
  collection : ∃ collection, events.filter (isEvent "collection_finish") = [collection] ∧
    collection.get "nodeids" = Json.strs nodeids
  /-- The session finishes once. -/
  finish : ∃ finish, events.filter (isEvent "session_finish") = [finish] ∧
    finish.get "exitstatus" = .int exitstatus

/-- The items of a list that are all objects. -/
theorem eq_map_dict_of_mapM {items : List Json} {events : List Obj}
    (h : items.mapM Json.asDict = some events) : items = events.map .dict := by
  induction items generalizing events with
  | nil =>
    obtain rfl : [] = events := by simpa using h
    rfl
  | cons item rest ih =>
    simp only [List.mapM_cons, Option.bind_eq_bind, Option.bind_eq_some_iff, Option.pure_def,
      Option.some.injEq] at h
    obtain ⟨event, hevent, others, hothers, rfl⟩ := h
    cases item <;> simp [Json.asDict] at hevent
    rw [hevent, ih hothers, List.map_cons]

/-- The collected nodes are the strings of the list. -/
theorem eq_of_readNodeids {v : Json} {nodeids : List Str}
    (h : readNodeids v = .ok (some nodeids)) : v = Json.strs nodeids ∧ nodeids ≠ [] := by
  rw [readNodeids] at h
  split at h
  · simp at h
  · rename_i items hitems
    have hv : v = .list items := by
      cases v <;> simp_all [Json.asList]
    split_ifs at h with hempty
    · simp at h
    obtain ⟨faithful, -, h⟩ := bind_eq_ok_iff.mp h
    split_ifs at h with hdistinct
    · simp at h
    split at h
    · simp at h
    · rename_i texts htexts
      have htexts' := (Json.asStrs_eq_some_iff items texts).mp htexts
      have h := Except.ok.inj h
      split_ifs at h
      obtain rfl := Option.some.inj h
      refine ⟨by rw [hv, htexts', Json.strs], ?_⟩
      rintro rfl
      simp [htexts'] at hempty

/-- The events of a session are the items of the stream, from the start to the finish. -/
theorem eq_of_sessionEvents {items : List Json} {events : List Obj}
    (h : sessionEvents rt items commandSha256 = some events) :
    items = events.map .dict ∧ controllerProofMatches rt events commandSha256 = true := by
  simp only [sessionEvents, Option.bind_eq_bind, Option.bind_eq_some_iff] at h
  obtain ⟨objects, hobjects, h⟩ := h
  split_ifs at h with hsession
  obtain rfl := Option.some.inj h
  simp only [Bool.and_eq_true] at hsession
  exact ⟨eq_map_dict_of_mapM hobjects, hsession.1.1.1⟩

/-- The parents that are read: none, or the parameter parents of the targets as they are listed. -/
theorem readFallbackParents_cases {parents : List Str}
    (h : readFallbackParents targets fallback = some parents) :
    parents = fallbackStrings fallback ∧
      (parents = [] ∨ fallback = Json.strs parents ∧ parents = fallbackParents targets) := by
  rw [readFallbackParents] at h
  split_ifs at h with hfalsy
  · obtain rfl := Option.some.inj h
    refine ⟨?_, .inl rfl⟩
    cases fallback <;> simp_all [fallbackStrings, Json.asList, Json.truthy, Json.asStrs]
  · simp only [Option.bind_eq_bind, Option.bind_eq_some_iff] at h
    obtain ⟨texts, ⟨items, hitems, htexts⟩, h⟩ := h
    split_ifs at h with hmatch
    obtain rfl := Option.some.inj h
    have hstrs := (Json.asStrs_eq_some_iff items texts).mp htexts
    refine ⟨by simp [fallbackStrings, hitems, htexts], .inr ⟨?_, hmatch.1⟩⟩
    rw [hstrs] at hitems
    revert hitems
    cases fallback <;> simp [Json.asList, Json.strs]

/-- What an execution was read from. -/
structure ReadFrom (rt : Runtime) (depth : Nat) (targets : List Str) (proofText : Str)
    (fallback commandSha256 : Json) (execution : Execution) (events : List Obj)
    (nodeids : List Str) : Prop where
  session : Session rt depth proofText commandSha256 events nodeids execution.exitstatus
  nonempty : nodeids ≠ []
  /-- The parents that are listed are the parameter parents of the targets. -/
  parents : fallbackStrings fallback = [] ∨ fallback = Json.strs (fallbackStrings fallback) ∧
    fallbackStrings fallback = fallbackParents targets
  declared : ∀ node ∈ nodeids, ∃ target ∈ targets ++ fallbackStrings fallback, NamedBy target node
  reports : Recorded nodeids events execution.reports
  nodes : targets.mapM (matchingNodes nodeids (fallbackStrings fallback)) =
    some execution.targetNodes

/-- An execution is read from a session. -/
theorem exists_readFrom {execution : Execution}
    (h : structuredExecution rt depth targets proofText fallback commandSha256 =
      .ok (some execution)) :
    ∃ events nodeids,
      ReadFrom rt depth targets proofText fallback commandSha256 execution events nodeids := by
  rw [structuredExecution] at h
  obtain ⟨items, hitems, h⟩ := bind_eq_ok_iff.mp h
  obtain _ | items := items
  · simp at h
  simp only at h
  split at h
  · rename_i events hevents
    split at h
    · rename_i collection finish hparts
      split at h
      · rename_i exitstatus hexit
        obtain ⟨nodeids, hnodeids, h⟩ := bind_eq_ok_iff.mp h
        obtain _ | nodeids := nodeids
        · simp at h
        simp only [executionOf] at h
        split at h
        · simp at h
        rename_i parents hparents
        obtain ⟨hstrings, hlisted⟩ := readFallbackParents_cases hparents
        split_ifs at h with hdeclared
        · simp at h
        obtain ⟨reports, hreports, h⟩ := bind_eq_ok_iff.mp h
        obtain _ | reports := reports
        · simp at h
        obtain ⟨targetNodes, hnodes, rfl⟩ := Option.map_eq_some_iff.mp (Except.ok.inj h)
        obtain ⟨rfl, hcontroller⟩ := eq_of_sessionEvents hevents
        obtain ⟨hids, hnonempty⟩ := eq_of_readNodeids hnodeids
        rw [collectionAndFinish] at hparts
        split at hparts
        · rename_i collection' finish' hcollection hfinish
          obtain ⟨rfl, rfl⟩ := Prod.mk.inj (Option.some.inj hparts)
          refine ⟨events, nodeids, ⟨?_, hnonempty, ?_, ?_, ?_, ?_⟩⟩
          · refine ⟨hitems, hcontroller, ⟨collection', hcollection, hids⟩, finish', hfinish, ?_⟩
            revert hexit
            cases finish'.get (lit "exitstatus") <;> simp [Json.asInt]
          · rw [← hstrings]
            exact hlisted
          · intro node hnode
            rw [← hstrings]
            simp only [Bool.not_eq_true', Bool.not_eq_false, List.all_eq_true, List.any_eq_true,
              targetMatchesNode_iff] at hdeclared
            exact hdeclared node hnode
          · simpa using (recorded_start nodeids).collect hreports
          · rw [← hstrings]
            exact hnodes
        · simp at hparts
      · simp at h
    · simp at h
  · simp at h

end Session

section Exclusion

/-- A node that passed in every phase neither failed nor was skipped. -/
theorem Execution.not_fails_of_passes {execution : Execution} {parents : List Str}
    (h : execution.passes parents = true) : execution.fails = false := by
  simp only [Execution.passes, Bool.and_eq_true, List.all_eq_true, beq_iff_eq] at h
  rw [Execution.fails, Bool.and_eq_false_iff]
  refine .inr (List.any_eq_false.mpr fun node hnode => ?_)
  rw [h.1 node hnode, PhaseTable.has_completePass]
  simp

theorem Execution.not_skips_of_passes {execution : Execution} {parents : List Str}
    (h : execution.passes parents = true) : execution.skips = false := by
  simp only [Execution.passes, Bool.and_eq_true, List.all_eq_true, beq_iff_eq] at h
  rw [Execution.skips, Bool.and_eq_false_iff]
  refine .inr (List.any_eq_false.mpr fun report hreport => ?_)
  obtain ⟨node, hnode, rfl⟩ := List.mem_map.mp hreport
  rw [h.1 node hnode, PhaseTable.not_isCompleteSkip_completePass]
  simp

/-- A failure ends the session with an error, a skip does not. -/
theorem Execution.not_skips_of_fails {execution : Execution} (h : execution.fails = true) :
    execution.skips = false := by
  simp only [Execution.fails, Bool.and_eq_true, bne_iff_ne] at h
  simp [Execution.skips, h.1]

/-- A proof that reads an execution holds of one. -/
theorem exists_execution {x : Except PyErr (Option Execution)} {p : Execution → Bool}
    (h : (do
      let some execution ← x | return false
      return p execution) = .ok true) :
    ∃ execution, x = .ok (some execution) ∧ p execution = true := by
  obtain ⟨found, hfound, h⟩ := bind_eq_ok_iff.mp h
  obtain _ | execution := found
  · simp at h
  · exact ⟨execution, hfound, by simpa using h⟩

/-- A stream without collected nodes describes no execution. -/
theorem not_execution_of_collectionFailure {env : Env} {depth : Nat} {decimal : Nat → Option Nat}
    {targets : List Str} {proofText logText : Str} {fallback expectedCommand observedCommand : Json}
    {binding : CandidateBinding} {commandSha256 : Json} {execution : Execution}
    (h : collectionFailureProofMatches env depth decimal targets proofText logText expectedCommand
      observedCommand binding commandSha256 = .ok true) :
    structuredExecution env.toRuntime depth targets proofText fallback commandSha256 ≠
      .ok (some execution) := by
  intro hexecution
  obtain ⟨events, nodeids, hread⟩ := exists_readFrom hexecution
  rw [collectionFailureProofMatches] at h
  split_ifs at h with hcommand
  · simp at h
  obtain ⟨found, hfound, h⟩ := bind_eq_ok_iff.mp h
  obtain rfl : found = some (events.map .dict) := by
    rw [hread.session.parsed] at hfound
    exact (Except.ok.inj hfound).symm
  simp only at h
  split_ifs at h with hempty
  · simp at h
  simp only [Bool.not_eq_true', Bool.not_eq_false, emptyCollection] at hempty
  split at hempty
  · rename_i start collection finish hthree
    have hevents : events = [start, collection, finish] := by
      have hmap := eq_map_dict_of_mapM hthree
      exact List.map_injective_iff.mpr (fun a b hab => Json.dict.inj hab) hmap
    simp only [Bool.and_eq_true] at hempty
    obtain ⟨⟨⟨⟨⟨-, hstart⟩, hcollection⟩, hfinish⟩, hnodeids⟩, -⟩ := hempty
    obtain ⟨collection', hfilter, hids⟩ := hread.session.collection
    -- the only collection of the stream is its second event
    have hmem : collection ∈ events.filter (isEvent "collection_finish") := by
      rw [hevents]
      exact List.mem_filter.mpr ⟨by simp, hcollection⟩
    obtain rfl : collection = collection' := by simpa [hfilter] using hmem
    rw [hids] at hnodeids
    apply hread.nonempty
    cases nodeids with
    | nil => rfl
    | cons node rest => simp [Json.strs, Json.pyEq, Json.pyEqList] at hnodeids
  · simp at hempty

end Exclusion

section Pass

/-- What a pass proof says about a session. -/
structure SoundPass (targets parents nodeids : List Str) (exitstatus : Int) (events : List Obj) :
    Prop where
  /-- Every declared target was collected. -/
  covered : ∀ target ∈ targets, ∃ node ∈ nodeids, StandsFor nodeids parents target node
  /-- Every node that counts for a declared target is reported once in each phase, as passed. -/
  passed : ∀ target ∈ targets, ∀ node ∈ nodeids, StandsFor nodeids parents target node →
    ∀ phase, ∃ event, phaseReports events node phase = [event] ∧
      event.get "outcome" = .str (Outcome.name .passed)
  /-- Nothing else was collected. -/
  declared : ∀ node ∈ nodeids, ∃ target ∈ targets ++ parents, NamedBy target node
  /-- The session passed, or it failed in a sibling of a declared target. -/
  exit : exitstatus = 0 ∨ exitstatus = 1 ∧ ∃ node ∈ nodeids,
    (∀ target ∈ targets, ¬StandsFor nodeids parents target node) ∧
    (∃ parent ∈ parents, ∃ rest, node = parent ++ lit "[" ++ rest) ∧
    ∃ phase event, phaseReports events node phase = [event] ∧
      event.get "outcome" = .str (Outcome.name .failed)

/-- A pass proof holds of the session that its execution was read from. -/
theorem ReadFrom.soundPass {rt : Runtime} {depth : Nat} {targets : List Str} {proofText : Str}
    {fallback commandSha256 : Json} {execution : Execution} {events : List Obj}
    {nodeids : List Str}
    (h : ReadFrom rt depth targets proofText fallback commandSha256 execution events nodeids)
    (hpass : execution.passes (fallbackStrings fallback) = true) :
    SoundPass targets (fallbackStrings fallback) nodeids execution.exitstatus events := by
  have hselected := mem_flatten_matchingNodes h.nodes
  simp only [Execution.passes, Execution.selected, Bool.and_eq_true, List.all_eq_true, beq_iff_eq,
    Bool.or_eq_true] at hpass
  constructor
  · exact exists_standsFor h.nodes
  · intro target htarget node hnode hstands phase
    have htable : execution.reports.table node = .completePass :=
      hpass.1 node ((hselected node).mpr ⟨hnode, target, htarget, hstands⟩)
    apply h.reports.reported node phase .passed
    rw [htable]
    cases phase <;> rfl
  · exact h.declared
  · refine hpass.2.imp id ?_
    rintro ⟨⟨hone, -⟩, hsibling⟩
    obtain ⟨node, hnode, hsibling⟩ := List.any_eq_true.mp hsibling
    simp only [Bool.and_eq_true, Bool.not_eq_true', List.any_eq_true, startsWith_iff] at hsibling
    obtain ⟨⟨hundeclared, parent, hparent, hrest⟩, hfailed⟩ := hsibling
    have hcollected := h.reports.collected node hnode
    refine ⟨hone, node, hcollected, ?_, ⟨parent, hparent, hrest⟩, ?_⟩
    · intro target htarget hstands
      have hmem := (hselected node).mpr ⟨hcollected, target, htarget, hstands⟩
      simp [hmem] at hundeclared
    · obtain ⟨phase, hphase⟩ := (PhaseTable.has_iff _ _).mp hfailed
      exact ⟨phase, h.reports.reported node phase .failed hphase⟩

end Pass

section Evidence

variable (env : Env) (depth : Nat) (decimal : Nat → Option Nat) (targets : List Str)
  (proofText logText : Str) (fallback commandSha256 expectedCommand observedCommand : Json)
  (binding : CandidateBinding)

/-- The pass proof holds. -/
def PassProof : Prop :=
  structuredProofMatches env.toRuntime depth targets proofText fallback commandSha256 = .ok true

/-- One of the failure proofs holds. -/
def FailureProof : Prop :=
  structuredFailureProofMatches env.toRuntime depth targets proofText fallback commandSha256 =
      .ok true ∨
    collectionFailureProofMatches env depth decimal targets proofText logText expectedCommand
      observedCommand binding commandSha256 = .ok true

/-- The skip proof holds. -/
def SkipProof : Prop :=
  structuredSkipProofMatches env.toRuntime depth targets proofText fallback commandSha256 = .ok true

/-- At most one of the pass proof, the failure proofs and the skip proof holds. A pass proof describes a
session in which every declared target was collected and all its nodes passed in every phase. -/
theorem pytest_evidence_sound :
    (¬(PassProof env depth targets proofText fallback commandSha256 ∧
        FailureProof env depth decimal targets proofText logText fallback commandSha256
          expectedCommand observedCommand binding) ∧
      ¬(PassProof env depth targets proofText fallback commandSha256 ∧
        SkipProof env depth targets proofText fallback commandSha256) ∧
      ¬(FailureProof env depth decimal targets proofText logText fallback commandSha256
          expectedCommand observedCommand binding ∧
        SkipProof env depth targets proofText fallback commandSha256)) ∧
    (PassProof env depth targets proofText fallback commandSha256 →
      ∃ parents events nodeids exitstatus,
        (parents = [] ∨ fallback = Json.strs parents ∧ parents = fallbackParents targets) ∧
        Session env.toRuntime depth proofText commandSha256 events nodeids exitstatus ∧
        SoundPass targets parents nodeids exitstatus events) := by
  refine ⟨⟨?_, ?_, ?_⟩, ?_⟩
  · rintro ⟨hpass, hfail | hfail⟩
    · obtain ⟨execution, hexecution, hpass⟩ := exists_execution hpass
      obtain ⟨other, hother, hfail⟩ := exists_execution hfail
      obtain rfl : execution = other := Option.some.inj (Except.ok.inj (hexecution.symm.trans hother))
      simp [Execution.not_fails_of_passes hpass] at hfail
    · obtain ⟨execution, hexecution, -⟩ := exists_execution hpass
      exact not_execution_of_collectionFailure hfail hexecution
  · rintro ⟨hpass, hskip⟩
    obtain ⟨execution, hexecution, hpass⟩ := exists_execution hpass
    obtain ⟨other, hother, hskip⟩ := exists_execution hskip
    obtain rfl : execution = other := Option.some.inj (Except.ok.inj (hexecution.symm.trans hother))
    simp [Execution.not_skips_of_passes hpass] at hskip
  · rintro ⟨hfail | hfail, hskip⟩
    · obtain ⟨execution, hexecution, hfail⟩ := exists_execution hfail
      obtain ⟨other, hother, hskip⟩ := exists_execution hskip
      obtain rfl : execution = other := Option.some.inj (Except.ok.inj (hexecution.symm.trans hother))
      simp [Execution.not_skips_of_fails hfail] at hskip
    · obtain ⟨execution, hexecution, -⟩ := exists_execution hskip
      exact not_execution_of_collectionFailure hfail hexecution
  · intro hpass
    obtain ⟨execution, hexecution, hpass⟩ := exists_execution hpass
    obtain ⟨events, nodeids, hread⟩ := exists_readFrom hexecution
    exact ⟨fallbackStrings fallback, events, nodeids, execution.exitstatus, hread.parents,
      hread.session, hread.soundPass hpass⟩

end Evidence

section Sample

/-- The digest of the sample's stream. -/
def sampleDigest : Str := "b9dd55176d7152b4142afe61acce1cc6d5128eeddbc63c1377201737a81d338f"

/-- The interpreter on the sample, whose digest is looked up. -/
def sampleEnv : Env :=
  { asciiEnv with
    sha256 := fun _ => sampleDigest
    sha256_ne_nil := fun _ => by decide }

/-- The digest of a command. -/
def sampleCommandSha256 : Json := .str (List.replicate 64 97)

/-- The report of one phase of the only test. -/
def sampleReport (phase : Phase) : Json :=
  .dict (Obj.of [("event", .str "runtest_logreport"), ("nodeid", .str "t.py::a[1]"),
    ("when", .str phase.name), ("outcome", .str "passed")])

/-- The events of a session with one test, a parameter instance of the declared one. -/
def sampleEvents : List Json := [
  .dict (Obj.of [("event", .str "session_start"), ("controller", .dict (Obj.of [
    ("schema", .str "opencollab.pytest_controller.v1"), ("worker_pid", .int 7),
    ("worker_uid", .int 1), ("controller_uid", .int 2),
    ("command_sha256", sampleCommandSha256)]))]),
  .dict (Obj.of [("event", .str "collection_finish"), ("nodeids", .list [.str "t.py::a[1]"])]),
  sampleReport .setup, sampleReport .call, sampleReport .teardown,
  .dict (Obj.of [("event", .str "session_finish"), ("exitstatus", .int 0), ("controller", .dict (Obj.of [
    ("termination", .str "normal_protocol_eof"), ("worker_returncode", .int 0),
    ("event_stream_sha256", .str sampleDigest)]))])]

/-- The proof text of the session. -/
def sampleProofText : Str := Str.join [10] (sampleEvents.map DumpFormat.compact.dumps)

/-- The pass proof of the session holds. -/
theorem passProof_sample :
    PassProof sampleEnv 100 ["t.py::a"] sampleProofText .null sampleCommandSha256 := by
  have hpass : (structuredProofMatches sampleEnv.toRuntime 100 ["t.py::a"] sampleProofText .null
      sampleCommandSha256).toOption.any id = true := by
    decide +kernel
  obtain ⟨holds, hreturn, rfl⟩ := exists_of_any_toOption hpass
  exact hreturn

/-- The session of the sample is one that passed. -/
theorem pytest_evidence_sound_sample : ∃ parents events nodeids exitstatus,
    (parents = [] ∨ Json.null = Json.strs parents ∧ parents = fallbackParents ["t.py::a"]) ∧
    Session sampleEnv.toRuntime 100 sampleProofText sampleCommandSha256 events nodeids exitstatus ∧
    SoundPass ["t.py::a"] parents nodeids exitstatus events :=
  (pytest_evidence_sound sampleEnv 100 (fun _ => none) ["t.py::a"] sampleProofText [] .null
    sampleCommandSha256 .null .null ⟨.null, .null, .null, .null⟩).2 passProof_sample

end Sample

end PytestProof

end OpenCollabEval
