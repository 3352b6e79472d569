import OpenCollabEval.Evidence.GoLog
import OpenCollabEval.Env

/-!
# Passing evidence of a Go test command

`go_pass_proof_matches` accepts a log in which every declared test passes. Under dynamic discovery a pass
event counts for the package that matches it; a plan of one package compares the packages of the events
with its own beforehand, and counts the pass events by their test alone.
-/

open Python

namespace OpenCollabEval

namespace GoProof

theorem asStr_eq_some_iff {v : Json} {s : Str} : v.asStr = some s ↔ v = .str s := by
  cases v <;> simp [Json.asStr]

/-- `event.get("Action") == action and event.get("Test") in expected`. -/
def namesDeclared (action : String) (expected : List Str) (event : Obj) : Except PyErr Bool :=
  if actionIs action event then (event.get "Test").inStrSet expected else .ok false

/-- The events with an action that name an expected test. -/
def declaredEvents (action : String) (expected : List Str) : List Obj → Except PyErr (List Obj)
  | [] => .ok []
  | event :: rest => do
    let named ← namesDeclared action expected event
    let found ← declaredEvents action expected rest
    return if named then event :: found else found

/-- The last step of `go_pass_proof_matches`: the tests of the pass events are the declared ones. -/
def exactPassesMatch (declared : List Str) (events : List Obj) : Except PyErr Bool := do
  let found ← declaredEvents "pass" declared events
  let passed := found.filterMap fun event => (event.get "Test").asStr
  return passed.all (fun test => declared.contains test) &&
    declared.all fun test => passed.contains test

section Pass

variable (rt : Runtime) (depth : Nat)

/-- `go_pass_proof_matches(proof, log_text)`. -/
def goPassProofMatches (proof : Obj) (logText : Str) : Except PyErr Bool := do
  let declared := declaredTests proof
  let parsed ← parseGoLog depth logText
  match parsed with
  | none => return false
  | some log =>
    if declared.isEmpty || !log.plainDiagnostics.isEmpty || !log.buildHeaders.isEmpty then
      return false
    else if (proof.get "dynamic_discovery").isTrue then
      let bindings := dynamicBindings log.discoveries declared
      return !bindings.isEmpty && eventsMatchBindings rt log.events bindings &&
        dynamicTestEventsMatchOwners log.events bindings &&
        dynamicPassesCoverBindings log.events bindings
    else if !log.discoveries.isEmpty then return false
    else
      let bindings := proofBindings proof log.discoveries declared
      if (proof.get "package").truthy && (bindings.isEmpty || !eventsMatchBindings rt log.events bindings)
      then return false
      else exactPassesMatch declared log.events

end Pass

/-! ## The events of a log -/

/-- A JSON event on a line of the log. -/
def Logged (depth : Nat) (logText : Str) (event : Obj) : Prop :=
  ∃ line ∈ logText.splitlines, ¬line.strip.startsWith goTargetDiscoveryPrefix ∧
    loads depth line.strip = .ok (.dict event)

/-- An event that a line of the log stands for. -/
def Reported (depth : Nat) (line : Str) (event : Obj) : Prop :=
  (¬line.startsWith goTargetDiscoveryPrefix ∧ loads depth line = .ok (.dict event)) ∨
    loads depth line = .error .jsonDecodeError ∧ ∃ failure,
      plainPackageFailure.fullmatch line = some failure ∧
        event ∈ GoLog.failureEvents (failure.group 1) line

namespace GoLog

variable {depth : Nat} {log after : GoLog} {line : Str}

theorem loads_nil : loads depth [] = .error .jsonDecodeError := by
  simp [loads, skipSpace, scanOnce]

theorem loadsOrNone_eq_some {text : Str} {v : Json} :
    loadsOrNone depth text = .ok (some v) ↔ loads depth text = .ok v := by
  rw [loadsOrNone]
  split <;> simp_all

theorem loadsOrNone_eq_none {text : Str} :
    loadsOrNone depth text = .ok none ↔ loads depth text = .error .jsonDecodeError := by
  rw [loadsOrNone]
  split <;> simp_all

/-- A line of plain text adds the events of a failed package, if any. -/
theorem events_of_readText (h : log.readText line = some after) :
    after.events = log.events ∨ ∃ failure, plainPackageFailure.fullmatch line = some failure ∧
      after.events = log.events ++ failureEvents (failure.group 1) line := by
  rw [readText] at h
  by_cases hdownload : ((goDownload.fullmatch line).isSome ||
      (goToolchainDownload.fullmatch line).isSome) = true
  · rw [if_pos hdownload] at h
    exact .inl (by cases h; rfl)
  rw [if_neg hdownload] at h
  rcases hdiagnostic : plainGoDiagnostic.fullmatch line with _ | diagnostic
  · rcases hpackage : testPackage line with _ | package
    · rcases hheader : goDependencyBuildHeader.fullmatch line with _ | header
      · rcases hfailure : plainPackageFailure.fullmatch line with _ | failure
        · simp only [hdiagnostic, hpackage, hheader, hfailure] at h
          split_ifs at h
          exact .inl (by cases h; rfl)
        · simp only [hdiagnostic, hpackage, hheader, hfailure] at h
          exact .inr ⟨failure, rfl, by cases h; rfl⟩
      · simp only [hdiagnostic, hpackage, hheader] at h
        exact .inl (by cases h; rfl)
    · simp only [hdiagnostic, hpackage] at h
      exact .inl (by cases h; rfl)
  · simp only [hdiagnostic] at h
    exact .inl (by cases h; rfl)

/-- The events after a line are those before it and those that the line stands for. -/
theorem reported_of_readLine (h : readLine depth log line = .ok (some after)) {event : Obj}
    (hevent : event ∈ after.events) : event ∈ log.events ∨ Reported depth line event := by
  rw [readLine] at h
  split_ifs at h with hempty hdiscovery
  · obtain rfl : log = after := by simpa using h
    exact .inl hevent
  · obtain ⟨discovery, -, h⟩ := bind_eq_ok_iff.mp h
    have hread : ((discovery.bind Json.asDict).map fun discovery =>
        { log with discoveries := log.discoveries ++ [discovery] }) = some after := Except.ok.inj h
    obtain ⟨_, _, rfl⟩ := Option.map_eq_some_iff.mp hread
    exact .inl hevent
  · obtain ⟨found, hfound, h⟩ := bind_eq_ok_iff.mp h
    cases found with
    | some v =>
      have hread : (v.asDict.map fun event =>
        { log with events := log.events ++ [event] }) = some after := Except.ok.inj h
      obtain ⟨entries, hentries, rfl⟩ := Option.map_eq_some_iff.mp hread
      rcases List.mem_append.mp hevent with hbefore | hnew
      · exact .inl hbefore
      · obtain rfl := List.mem_singleton.mp hnew
        have hv := loadsOrNone_eq_some.mp hfound
        cases v with
        | dict o => exact .inr (.inl ⟨hdiscovery, by rw [hv, Option.some.inj hentries]⟩)
        | _ => cases hentries
    | none =>
      have hread : log.readText line = some after := Except.ok.inj h
      rcases events_of_readText hread with hsame | ⟨failure, hfailure, hnew⟩
      · exact .inl (hsame ▸ hevent)
      · rw [hnew] at hevent
        rcases List.mem_append.mp hevent with hbefore | hadded
        · exact .inl hbefore
        · exact .inr (.inr ⟨loadsOrNone_eq_none.mp hfound, failure, hfailure, hadded⟩)

/-- No event is dropped, and the event of a JSON line is added. -/
theorem mem_of_readLine (h : readLine depth log line = .ok (some after)) :
    (∀ event ∈ log.events, event ∈ after.events) ∧ ∀ event : Obj,
      ¬line.startsWith goTargetDiscoveryPrefix → loads depth line = .ok (.dict event) →
        event ∈ after.events := by
  rw [readLine] at h
  split_ifs at h with hempty hdiscovery
  · obtain rfl : log = after := by simpa using h
    refine ⟨fun event hevent => hevent, fun event _ hloads => ?_⟩
    rw [List.isEmpty_iff.mp hempty, loads_nil] at hloads
    cases hloads
  · obtain ⟨discovery, -, h⟩ := bind_eq_ok_iff.mp h
    have hread : ((discovery.bind Json.asDict).map fun discovery =>
        { log with discoveries := log.discoveries ++ [discovery] }) = some after := Except.ok.inj h
    obtain ⟨_, _, rfl⟩ := Option.map_eq_some_iff.mp hread
    exact ⟨fun event hevent => hevent, fun event hnot => absurd hdiscovery hnot⟩
  · obtain ⟨found, hfound, h⟩ := bind_eq_ok_iff.mp h
    cases found with
    | some v =>
      have hread : (v.asDict.map fun event =>
        { log with events := log.events ++ [event] }) = some after := Except.ok.inj h
      obtain ⟨entries, hentries, rfl⟩ := Option.map_eq_some_iff.mp hread
      refine ⟨fun event hevent => List.mem_append_left _ hevent, fun event _ hloads => ?_⟩
      rw [loadsOrNone_eq_some.mp hfound] at hloads
      obtain rfl : v = .dict event := Except.ok.inj hloads
      obtain rfl : event = entries := Option.some.inj hentries
      simp
    | none =>
      have hread : log.readText line = some after := Except.ok.inj h
      constructor
      · intro event hevent
        rcases events_of_readText hread with hsame | ⟨failure, -, hnew⟩
        · exact hsame ▸ hevent
        · exact hnew ▸ List.mem_append_left _ hevent
      · intro event _ hloads
        rw [loadsOrNone_eq_none.mp hfound] at hloads
        cases hloads

/-- The events after some lines are those before them and those that the lines stand for. -/
theorem reported_of_readLines {lines : List Str} (h : readLines depth log lines = .ok (some after))
    {event : Obj} (hevent : event ∈ after.events) :
    event ∈ log.events ∨ ∃ line ∈ lines, Reported depth line.strip event := by
  -- by induction on the lines that are still to be read
  induction lines generalizing log with
  | nil =>
    obtain rfl : log = after := by simpa [readLines] using h
    exact .inl hevent
  | cons line rest ih =>
    rw [readLines] at h
    obtain ⟨next, hline, h⟩ := bind_eq_ok_iff.mp h
    cases next with
    | none => cases h
    | some next =>
      rcases ih h with hnext | ⟨other, hother, hreported⟩
      · rcases reported_of_readLine hline hnext with hbefore | hreported
        · exact .inl hbefore
        · exact .inr ⟨line, List.mem_cons_self, hreported⟩
      · exact .inr ⟨other, List.mem_cons_of_mem _ hother, hreported⟩

/-- Every JSON event of the lines is among the events. -/
theorem mem_of_readLines {lines : List Str} (h : readLines depth log lines = .ok (some after)) :
    (∀ event ∈ log.events, event ∈ after.events) ∧ ∀ line ∈ lines, ∀ event : Obj,
      ¬line.strip.startsWith goTargetDiscoveryPrefix → loads depth line.strip = .ok (.dict event) →
        event ∈ after.events := by
  induction lines generalizing log with
  | nil =>
    obtain rfl : log = after := by simpa [readLines] using h
    exact ⟨fun event hevent => hevent, fun line hline => absurd hline List.not_mem_nil⟩
  | cons line rest ih =>
    rw [readLines] at h
    obtain ⟨next, hline, h⟩ := bind_eq_ok_iff.mp h
    cases next with
    | none => cases h
    | some next =>
      obtain ⟨hkept, hadded⟩ := mem_of_readLine hline
      obtain ⟨hkeptAfter, haddedAfter⟩ := ih h
      refine ⟨fun event hevent => hkeptAfter event (hkept event hevent), ?_⟩
      intro other hother event hnot hloads
      rcases List.mem_cons.mp hother with rfl | hrest
      · exact hkeptAfter event (hadded event hnot hloads)
      · exact haddedAfter other hrest event hnot hloads

end GoLog

variable {depth : Nat} {logText : Str} {log : GoLog}

/-- What the text of a failed package stands for names no test. -/
theorem get_test_of_mem_failureEvents {package line : Str} {event : Obj}
    (h : event ∈ GoLog.failureEvents package line) : event.get "Test" = .null := by
  simp only [GoLog.failureEvents, List.mem_cons, List.not_mem_nil, or_false] at h
  rcases h with rfl | rfl <;> simp [Obj.of, Obj.get, List.lookup_cons, lit]

/-- An event that names a test comes from a JSON line. -/
theorem logged_of_mem (h : parseGoLog depth logText = .ok (some log)) {event : Obj}
    (hevent : event ∈ log.events) {test : Str} (htest : event.get "Test" = .str test) :
    Logged depth logText event := by
  rcases GoLog.reported_of_readLines h hevent with hnone | ⟨line, hline, hreported⟩
  · exact absurd hnone List.not_mem_nil
  · rcases hreported with ⟨hnot, hloads⟩ | ⟨-, failure, -, hadded⟩
    · exact ⟨line, hline, hnot, hloads⟩
    · rw [get_test_of_mem_failureEvents hadded] at htest
      cases htest

theorem mem_of_logged (h : parseGoLog depth logText = .ok (some log)) {event : Obj}
    (hevent : Logged depth logText event) : event ∈ log.events := by
  obtain ⟨line, hline, hnot, hloads⟩ := hevent
  exact (GoLog.mem_of_readLines h).2 line hline event hnot hloads

/-! ## The tests that pass -/

theorem actionIs_iff {action : String} {event : Obj} :
    actionIs action event = true ↔ event.get "Action" = .str (lit action) := by
  rw [actionIs, Json.eqStr_iff]

/-- The events that a run of the comprehension keeps. -/
theorem mem_declaredEvents {action : String} {expected : List Str} {events found : List Obj}
    (h : declaredEvents action expected events = .ok found) (event : Obj) :
    event ∈ found ↔ event ∈ events ∧ event.get "Action" = .str (lit action) ∧
      ∃ test ∈ expected, event.get "Test" = .str test := by
  induction events generalizing found with
  | nil =>
    obtain rfl : [] = found := by simpa [declaredEvents] using h
    simp
  | cons head rest ih =>
    obtain ⟨named, hnamed, h⟩ := bind_eq_ok_iff.mp h
    obtain ⟨kept, hkept, h⟩ := bind_eq_ok_iff.mp h
    obtain rfl : (if named then head :: kept else kept) = found := Except.ok.inj h
    have hhead : named = true ↔ head.get "Action" = .str (lit action) ∧
        ∃ test ∈ expected, head.get "Test" = .str test := by
      rw [namesDeclared] at hnamed
      split_ifs at hnamed with haction
      · rw [Json.inStrSet] at hnamed
        split_ifs at hnamed
        rw [← Except.ok.inj hnamed, ← actionIs_iff, List.any_eq_true]
        simp only [haction, true_and, Json.eqStr_iff]
      · rw [← Except.ok.inj hnamed, ← actionIs_iff]
        simp [haction]
    rw [List.mem_cons, or_and_right, ← ih hkept]
    cases named with
    | true =>
      simp only [if_true, List.mem_cons]
      constructor
      · rintro (rfl | hmem)
        · exact .inl ⟨rfl, hhead.mp rfl⟩
        · exact .inr hmem
      · rintro (⟨rfl, -⟩ | hmem)
        · exact .inl rfl
        · exact .inr hmem
    | false =>
      simp only [Bool.false_eq_true, if_false]
      constructor
      · exact .inr
      · rintro (⟨rfl, hdeclared⟩ | hmem)
        · exact absurd (hhead.mpr hdeclared) (by simp)
        · exact hmem

/-- The only binding that matches. -/
theorem matchingBinding_spec {bindings : List Binding} {observed : Str} {binding : Binding}
    (h : matchingBinding bindings observed = some binding) :
    binding ∈ bindings ∧ packageMatches binding.package observed = true ∧
      ∀ other ∈ bindings, packageMatches other.package observed = true → other = binding := by
  rw [matchingBinding] at h
  split at h
  · rename_i found hfound
    obtain rfl := Option.some.inj h
    have hmem : ∀ other, other ∈ bindings ∧ packageMatches other.package observed = true ↔
        other = found := by
      intro other
      have hfilter : other ∈ bindings.filter (fun binding => packageMatches binding.package observed) ↔
          other ∈ [found] := by rw [hfound]
      simpa using hfilter
    exact ⟨((hmem found).mpr rfl).1, ((hmem found).mpr rfl).2,
      fun other hother hmatches => (hmem other).mp ⟨hother, hmatches⟩⟩
  · cases h

variable (rt : Runtime)

/-- A pass event of a test, in a package that matches one binding of the plan and no other. -/
structure PassesIn (bindings : List Binding) (binding : Binding) (test : Str) (event : Obj) : Prop where
  action : event.get "Action" = .str "pass"
  test : event.get "Test" = .str test
  package : packageMatches binding.package (packageText rt event) = true
  only : ∀ other ∈ bindings, packageMatches other.package (packageText rt event) = true →
    other = binding

/-- Every declared test has a package, and every test of a package passes in it. -/
def BoundPasses (depth : Nat) (proof : Obj) (logText : Str) : Prop :=
  ∀ log, parseGoLog depth logText = .ok (some log) →
    let bindings := proofBindings proof log.discoveries (declaredTests proof)
    (∀ test ∈ declaredTests proof, ∃ binding ∈ bindings, test ∈ binding.tests) ∧
      ∀ binding ∈ bindings, ∀ test ∈ binding.tests, ∃ event,
        Logged depth logText event ∧ PassesIn rt bindings binding test event

/-- No declared test passes without a package only. -/
def PackagedPasses (depth : Nat) (proof : Obj) (logText : Str) : Prop :=
  (proof.get "dynamic_discovery").isTrue = true ∨ ∀ test ∈ declaredTests proof, ∀ event : Obj,
    Logged depth logText event → event.get "Action" = .str "pass" → event.get "Test" = .str test →
      (event.get "Package").truthy = false → ∃ other : Obj, Logged depth logText other ∧
        other.get "Action" = .str "pass" ∧ other.get "Test" = .str test ∧
        (other.get "Package").truthy = true

variable {rt}

/-- Discovered bindings own every declared test. -/
theorem exists_owner_of_dynamicBindings {discoveries : List Obj} {declared : List Str}
    (h : (dynamicBindings discoveries declared).isEmpty = false) :
    ∀ test ∈ declared, ∃ binding ∈ dynamicBindings discoveries declared, test ∈ binding.tests := by
  rw [dynamicBindings] at h ⊢
  rcases hread : readDiscoveries declared [] discoveries with _ | bindings
  · simp [hread] at h
  · simp only [hread] at h ⊢
    split_ifs at h ⊢ with howned
    · simpa using howned
    · cases h

/-- Under dynamic discovery the accepted passes are bound. -/
theorem passesIn_of_dynamic {events : List Obj} {bindings : List Binding}
    (h : dynamicPassesCoverBindings events bindings = true) {binding : Binding}
    (hbinding : binding ∈ bindings) {test : Str} (htest : test ∈ binding.tests) :
    ∃ event ∈ events, PassesIn rt bindings binding test event := by
  rw [dynamicPassesCoverBindings, Bool.and_eq_true] at h
  have hexpected := List.all_eq_true.mp h.2 (binding.package, test)
    (List.mem_flatMap.mpr ⟨binding, hbinding, List.mem_map_of_mem htest⟩)
  obtain ⟨event, hevent, hpassed⟩ := List.mem_filterMap.mp (List.contains_iff_mem.mp hexpected)
  simp only [passedTarget, bindingOf, Option.bind_eq_bind, Option.bind_eq_some_iff] at hpassed
  obtain ⟨found, hfound, owner, ⟨package, hpackage, howner⟩, hpassed⟩ := hpassed
  split_ifs at hpassed with haction
  obtain ⟨hname, rfl⟩ := Prod.mk.inj (Option.some.inj hpassed)
  obtain ⟨hmem, hmatches, honly⟩ := matchingBinding_spec howner
  have htext : packageText rt event = package := by
    rw [packageText, asStr_eq_some_iff.mp hpackage, Runtime.strOrEmpty_str]
  -- the owner has the package of the binding, so it matches as the binding does
  obtain rfl : binding = owner := honly binding hbinding (hname ▸ hmatches)
  rw [Bool.and_eq_true, actionIs_iff] at haction
  refine ⟨event, hevent, haction.1, asStr_eq_some_iff.mp hfound, ?_, ?_⟩
  · rw [htext]
    exact hmatches
  · rw [htext]
    exact honly

/-- An event with a package matches a binding of the plan. -/
theorem exists_binding_of_eventsMatch {events : List Obj} {bindings : List Binding}
    (h : eventsMatchBindings rt events bindings = true) {event : Obj} (hevent : event ∈ events)
    (hpackage : (event.get "Package").truthy = true) :
    ∃ binding, matchingBinding bindings (packageText rt event) = some binding := by
  rw [eventsMatchBindings, Bool.and_eq_true] at h
  have hobserved := List.all_eq_true.mp h.2 (packageText rt event)
    (List.mem_map_of_mem (List.mem_filter.mpr ⟨hevent, hpackage⟩))
  exact Option.isSome_iff_exists.mp hobserved

/-- A package that matches is not empty. -/
theorem truthy_of_packageMatches {event : Obj} {declared : Str}
    (h : packageMatches declared (packageText rt event) = true) :
    (event.get "Package").truthy = true := by
  by_contra hfalsy
  rw [packageText, Runtime.strOrEmpty, if_neg hfalsy] at h
  have hempty : ((Str.replaceChar 92 "/" []).strip.rstripOf (· == 47)).isEmpty = true := rfl
  simp [packageMatches, hempty] at h

/-- The bindings of a plan that declares one package. -/
theorem proofBindings_exact {proof : Obj}
    (hstatic : (proof.get "dynamic_discovery").isTrue = false) (discoveries : List Obj)
    (declared : List Str) :
    proofBindings proof discoveries declared = [] ∨ ∃ package testFile,
      proofBindings proof discoveries declared = [⟨package, declared, [testFile]⟩] := by
  rw [proofBindings, hstatic]
  simp only [Bool.false_eq_true, if_false]
  split_ifs
  · exact .inl rfl
  · split
    · split_ifs
      · exact .inl rfl
      · exact .inr ⟨_, _, rfl⟩
    · exact .inl rfl

/-- **An accepted Go log binds its passes** exactly when no declared test passes without a package
only. Dynamic discovery always does. -/
theorem goPassProofMatches_bound_iff {proof : Obj}
    (hplan : (proof.get "dynamic_discovery").isTrue = true ∨ (proof.get "package").truthy = true) :
    (goPassProofMatches rt depth proof logText = .ok true → BoundPasses rt depth proof logText) ↔
      (goPassProofMatches rt depth proof logText = .ok true → PackagedPasses depth proof logText) := by
  refine forall_congr' fun haccepted => ?_
  obtain ⟨parsed, hparsed, h⟩ := bind_eq_ok_iff.mp haccepted
  rcases parsed with _ | log
  · cases h
  simp only at h
  split_ifs at h with hrejected hdynamic hdiscoveries hunbound
  · cases h
  · -- dynamic discovery
    have h := Except.ok.inj h
    simp only [Bool.and_eq_true, Bool.not_eq_true'] at h
    obtain ⟨⟨⟨hnonempty, -⟩, -⟩, hcover⟩ := h
    refine iff_of_true (fun other hother => ?_) (.inl hdynamic)
    obtain rfl : log = other := by simpa [hparsed] using hother
    simp only [proofBindings, hdynamic, if_true]
    refine ⟨exists_owner_of_dynamicBindings hnonempty, fun binding hbinding test htest => ?_⟩
    obtain ⟨event, hevent, hpasses⟩ := passesIn_of_dynamic hcover hbinding htest
    exact ⟨event, logged_of_mem hparsed hevent hpasses.test, hpasses⟩
  · cases h
  · cases h
  · -- a plan of one package
    have hstatic : (proof.get "dynamic_discovery").isTrue = false := by simpa using hdynamic
    have hpackage : (proof.get "package").truthy = true := hplan.resolve_left (by simp [hstatic])
    simp only [hpackage, Bool.true_and, Bool.or_eq_true, not_or, Bool.not_eq_true,
      Bool.not_eq_false'] at hunbound
    obtain ⟨hnonempty, hmatch⟩ := hunbound
    obtain ⟨package, testFile, hbindings⟩ := (proofBindings_exact hstatic log.discoveries
      (declaredTests proof)).resolve_left fun hnil => by simp [hnil] at hnonempty
    obtain ⟨found, hfound, h⟩ := bind_eq_ok_iff.mp h
    have hpassed : ∀ test ∈ declaredTests proof, ∃ event ∈ log.events,
        event.get "Action" = .str "pass" ∧ event.get "Test" = .str test := by
      intro test htest
      have hall := (Bool.and_eq_true_iff.mp (Except.ok.inj h)).2
      obtain ⟨event, hevent, hname⟩ := List.mem_filterMap.mp
        (List.contains_iff_mem.mp (List.all_eq_true.mp hall test htest))
      obtain ⟨hmem, haction, -⟩ := (mem_declaredEvents hfound event).mp hevent
      exact ⟨event, hmem, haction, asStr_eq_some_iff.mp hname⟩
    constructor
    · intro hbound
      refine .inr fun test htest event _ _ _ _ => ?_
      have hbound := (hbound log hparsed).2
      simp only [hbindings, List.mem_singleton, forall_eq] at hbound
      obtain ⟨other, hlogged, hpasses⟩ := hbound test htest
      exact ⟨other, hlogged, hpasses.action, hpasses.test,
        truthy_of_packageMatches hpasses.package⟩
    · intro hpackaged other hother
      obtain rfl : log = other := by simpa [hparsed] using hother
      have hpackaged := hpackaged.resolve_left (by simp [hstatic])
      simp only [hbindings, List.mem_singleton, exists_eq_left, forall_eq]
      refine ⟨fun test htest => htest, fun test htest => ?_⟩
      -- a pass event of the test that has a package
      obtain ⟨event, hevent, hlogged, haction, hname, htruthy⟩ : ∃ event ∈ log.events,
          Logged depth logText event ∧ event.get "Action" = .str "pass" ∧
            event.get "Test" = .str test ∧ (event.get "Package").truthy = true := by
        obtain ⟨event, hevent, haction, hname⟩ := hpassed test htest
        have hlogged := logged_of_mem hparsed hevent hname
        rcases hpackageless : (event.get "Package").truthy
        · obtain ⟨other, hother, haction, hname, htruthy⟩ :=
            hpackaged test htest event hlogged haction hname hpackageless
          exact ⟨other, mem_of_logged hparsed hother, hother, haction, hname, htruthy⟩
        · exact ⟨event, hevent, hlogged, haction, hname, hpackageless⟩
      obtain ⟨binding, hbinding⟩ := exists_binding_of_eventsMatch hmatch hevent htruthy
      obtain ⟨hmem, hmatches, honly⟩ := matchingBinding_spec hbinding
      rw [hbindings] at hmem honly
      obtain rfl := List.mem_singleton.mp hmem
      exact ⟨event, hlogged, haction, hname, hmatches, by simp⟩

section Sample

/-- A plan for one test of one package. -/
def samplePlan : Obj :=
  Obj.of [("kind", .str "go_json_test_pass"), ("package", .str "./pkg"), ("test", .str "TestA"),
    ("test_file", .str "pkg/a_test.go")]

/-- A log in which the package only starts, and the test passes in no package. -/
def packagelessLog : Str :=
  lit "\x7b\"Action\":\"start\",\"Package\":\"m/pkg\"\x7d\n" ++
    lit "\x7b\"Action\":\"pass\",\"Test\":\"TestA\"\x7d\n"

/-- The event without a package stands in for a pass of the planned package. -/
theorem packagelessLog_accepted :
    goPassProofMatches asciiEnv.toRuntime 10 samplePlan packagelessLog = .ok true ∧
      ¬BoundPasses asciiEnv.toRuntime 10 samplePlan packagelessLog := by
  have haccepted : goPassProofMatches asciiEnv.toRuntime 10 samplePlan packagelessLog = .ok true := by
    decide +kernel
  have hevents : (parseGoLog 10 packagelessLog).map (Option.map fun log => log.events.all fun event =>
      !(event.get "Test").eqStr (lit "TestA") || !(event.get "Package").truthy) =
        .ok (some true) := by
    decide +kernel
  refine ⟨haccepted, fun hbound => ?_⟩
  obtain ⟨parsed, hparsed, -⟩ := bind_eq_ok_iff.mp haccepted
  rw [hparsed] at hevents
  cases parsed with
  | none => cases hevents
  | some log =>
    obtain ⟨howned, hpasses⟩ := hbound log hparsed
    obtain ⟨binding, hbinding, htest⟩ := howned (lit "TestA") (by decide +kernel)
    obtain ⟨event, hlogged, hpass⟩ := hpasses binding hbinding (lit "TestA") htest
    have hall := Option.some.inj (Except.ok.inj hevents)
    have hevent := List.all_eq_true.mp hall event (mem_of_logged hparsed hlogged)
    simp [hpass.test, Json.eqStr, truthy_of_packageMatches hpass.package] at hevent

/-- The sample plan declares a package. -/
theorem goPassProofMatches_bound_iff_sample :
    (goPassProofMatches asciiEnv.toRuntime 10 samplePlan packagelessLog = .ok true →
        BoundPasses asciiEnv.toRuntime 10 samplePlan packagelessLog) ↔
      (goPassProofMatches asciiEnv.toRuntime 10 samplePlan packagelessLog = .ok true →
        PackagedPasses 10 samplePlan packagelessLog) :=
  goPassProofMatches_bound_iff (.inr (by decide +kernel))

end Sample

end GoProof

end OpenCollabEval
