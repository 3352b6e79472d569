import OpenCollabEval.Records.Publication

/-!
# Staged candidates are published once

However the publishers take turns and wherever they are stopped: no two rows of a log claim the same
record, no row is lost, and a pending file goes away only when both rows of its candidate are in
their logs.
-/

open Python

namespace OpenCollabEval

variable {host : LogHost}

theorem readable_of_get {depth : Nat} {o : Obj} (h : (Json.dict o).Readable depth) (key : Str)
    {value : Obj} (hvalue : o.get key = .dict value) : (Json.dict value).Readable depth := by
  cases h with
  | dict depth _ _ _ values =>
    have hlookup : o.lookup key = some (.dict value) := by
      rw [Obj.get] at hvalue
      cases hfound : o.lookup key with
      | none => simp [hfound] at hvalue
      | some found =>
        rw [hfound] at hvalue
        exact congrArg some hvalue
    obtain ⟨before, after, hsplit, -⟩ := List.lookup_eq_some_iff.mp hlookup
    exact (values (key, .dict value) (by rw [hsplit]; simp)).mono (Nat.le_succ depth)

/-- The rows of a candidate are those of its document. -/
theorem validatePendingCandidate_eq_ok {document : Obj} {candidate : PendingCandidate}
    (h : validatePendingCandidate host document = .ok candidate) :
    document.get "prediction" = .dict candidate.prediction ∧
      document.get "metric" = .dict candidate.metric := by
  rw [validatePendingCandidate] at h
  obtain ⟨-, -, h⟩ := bind_eq_ok_iff.mp h
  split at h
  next prediction metric hprediction hmetric =>
    obtain ⟨-, -, h⟩ := bind_eq_ok_iff.mp h
    obtain ⟨-, -, h⟩ := bind_eq_ok_iff.mp h
    obtain ⟨-, -, h⟩ := bind_eq_ok_iff.mp h
    dsimp only at h
    split at h
    · obtain ⟨-, -, h⟩ := bind_eq_ok_iff.mp h
      split at h
      · obtain ⟨predictionsPath, -, h⟩ := bind_eq_ok_iff.mp h
        obtain ⟨metricsPath, -, h⟩ := bind_eq_ok_iff.mp h
        obtain ⟨containerId, -, h⟩ := bind_eq_ok_iff.mp h
        obtain ⟨containerName, -, h⟩ := bind_eq_ok_iff.mp h
        obtain ⟨ownerToken, -, h⟩ := bind_eq_ok_iff.mp h
        obtain ⟨-, -, h⟩ := bind_eq_ok_iff.mp h
        cases h
        exact ⟨hprediction, hmetric⟩
      · cases h
    · cases h
  next => cases h

/-- What a publisher reads from a pending file can be written to a log. -/
theorem readable_of_readPending {content : List Nat} {candidate : PendingCandidate}
    (h : readPending host content = .ok candidate) :
    (Json.dict candidate.prediction).Readable host.depth ∧
      (Json.dict candidate.metric).Readable host.depth := by
  rw [readPending] at h
  split_ifs at h
  cases hloads : loadsUtf8 host content with
  | error e => cases e <;> simp [hloads] at h
  | ok value =>
    rw [hloads] at h
    cases value with
    | dict document =>
      have hreadable : (Json.dict document).Readable host.depth := by
        rw [loadsUtf8] at hloads
        cases hdecoded : Str.decodeUtf8 false content with
        | none => simp [hdecoded] at hloads
        | some text =>
          rw [hdecoded] at hloads
          exact readable_of_loads (decoded_of_decodeUtf8 hdecoded) hloads
      obtain ⟨hprediction, hmetric⟩ := validatePendingCandidate_eq_ok h
      exact ⟨readable_of_get hreadable _ hprediction, readable_of_get hreadable _ hmetric⟩
    | _ => cases h

/-- Both rows of the candidate that a pending file holds are in their logs. -/
def Published (host : LogHost) (logs : Str → List Nat) (content : List Nat) : Prop :=
  ∃ candidate, readPending host content = .ok candidate ∧
    Committed host (logs candidate.predictionsPath) candidate.prediction ∧
    Committed host (logs candidate.metricsPath) candidate.metric

/-- A log that only publishers wrote to. -/
def IsOnceLog (host : LogHost) (log : List Nat) : Prop :=
  ∃ records tail, OnceLog host log records tail

/-- No publisher is at work, every file there has been is at its path, and only publishers wrote to
the logs. -/
structure PublicationInitial (host : LogHost) (s : PublicationState) : Prop where
  logs : ∀ path, IsOnceLog host (s.logs path)
  pending : ∀ path serial, s.pending path = some serial → serial < s.serials
  staged : ∀ serial < s.serials, ∃ path, s.pending path = some serial
  idle : ∀ publisher, s.publishers publisher = .idle

/-- What is known where a publisher stands. -/
def PublisherHolds (host : LogHost) (s : PublicationState) : PublisherPhase → Prop
  | .idle => True
  | .opened _ serial | .locked _ serial => serial < s.serials
  | .predicting _ serial candidate =>
    serial < s.serials ∧ readPending host (s.contents serial) = .ok candidate
  | .measuring _ serial candidate =>
    serial < s.serials ∧ readPending host (s.contents serial) = .ok candidate ∧
      Committed host (s.logs candidate.predictionsPath) candidate.prediction
  | .removing _ serial candidate =>
    serial < s.serials ∧ readPending host (s.contents serial) = .ok candidate ∧
      Committed host (s.logs candidate.predictionsPath) candidate.prediction ∧
      Committed host (s.logs candidate.metricsPath) candidate.metric
  | .restoring _ serial => serial < s.serials ∧ Published host s.logs (s.contents serial)

/-- What holds in every state. -/
structure PublicationHolds (host : LogHost) (s : PublicationState) : Prop where
  logs : ∀ path, IsOnceLog host (s.logs path)
  pending : ∀ path serial, s.pending path = some serial → serial < s.serials
  staged : ∀ serial < s.serials,
    (∃ path, s.pending path = some serial) ∨ Published host s.logs (s.contents serial)
  publishers : ∀ publisher, PublisherHolds host s (s.publishers publisher)

/-- Nothing that is known is lost from one state to the next. -/
structure Grows (host : LogHost) (s s' : PublicationState) : Prop where
  serials : s.serials ≤ s'.serials
  contents : ∀ serial < s.serials, s'.contents serial = s.contents serial
  logs : ∀ path row, Committed host (s.logs path) row → Committed host (s'.logs path) row

variable {s s' : PublicationState} {publisher : Nat} {phase : PublisherPhase}

theorem PublicationInitial.holds (h : PublicationInitial host s) : PublicationHolds host s := by
  refine ⟨h.logs, h.pending, fun serial hserial => .inl (h.staged serial hserial),
    fun publisher => ?_⟩
  rw [h.idle publisher]
  trivial

theorem Grows.refl (s : PublicationState) : Grows host s s :=
  ⟨le_rfl, fun _ _ => rfl, fun _ _ => id⟩

theorem Grows.published (h : Grows host s s') {content : List Nat}
    (hpublished : Published host s.logs content) : Published host s'.logs content := by
  obtain ⟨candidate, hread, hprediction, hmetric⟩ := hpublished
  exact ⟨candidate, hread, h.logs _ _ hprediction, h.logs _ _ hmetric⟩

/-- What is known of a publisher stays true. -/
theorem PublisherHolds.grow (h : PublisherHolds host s phase) (hgrows : Grows host s s') :
    PublisherHolds host s' phase := by
  cases phase with
  | idle => trivial
  | opened path serial | locked path serial => exact h.trans_le hgrows.serials
  | predicting path serial candidate =>
    obtain ⟨hserial, hread⟩ := h
    exact ⟨hserial.trans_le hgrows.serials, by rwa [hgrows.contents serial hserial]⟩
  | measuring path serial candidate =>
    obtain ⟨hserial, hread, hprediction⟩ := h
    exact ⟨hserial.trans_le hgrows.serials, by rwa [hgrows.contents serial hserial],
      hgrows.logs _ _ hprediction⟩
  | removing path serial candidate =>
    obtain ⟨hserial, hread, hprediction, hmetric⟩ := h
    exact ⟨hserial.trans_le hgrows.serials, by rwa [hgrows.contents serial hserial],
      hgrows.logs _ _ hprediction, hgrows.logs _ _ hmetric⟩
  | restoring path serial =>
    obtain ⟨hserial, hpublished⟩ := h
    refine ⟨hserial.trans_le hgrows.serials, ?_⟩
    rw [hgrows.contents serial hserial]
    exact hgrows.published hpublished

/-- A publisher goes on. -/
theorem PublicationHolds.enter (h : PublicationHolds host s)
    (hphase : PublisherHolds host s phase) :
    PublicationHolds host (s.enter publisher phase) := by
  have hsame : Grows host s (s.enter publisher phase) := ⟨le_rfl, fun _ _ => rfl, fun _ _ => id⟩
  refine ⟨h.logs, h.pending, h.staged, fun other => ?_⟩
  show PublisherHolds host _ (Function.update s.publishers publisher phase other)
  by_cases hother : other = publisher
  · rw [hother, Function.update_self]
    exact hphase.grow hsame
  · rw [Function.update_of_ne hother]
    exact (h.publishers other).grow hsame

/-- The locks do not matter. -/
theorem PublicationHolds.locks (h : PublicationHolds host s) (locks : Nat → Option Nat) :
    PublicationHolds host { s with locks } :=
  ⟨h.logs, h.pending, h.staged, fun other =>
    (h.publishers other).grow ⟨le_rfl, fun _ _ => rfl, fun _ _ => id⟩⟩

theorem PublicationHolds.finish (h : PublicationHolds host s) :
    PublicationHolds host (s.finish publisher) := by
  have hidle : PublisherHolds host s .idle := trivial
  exact (h.enter hidle).locks _

/-- A file is created where none is. -/
theorem PublicationHolds.create (h : PublicationHolds host s) {path : Str} (content : List Nat)
    (hfree : s.pending path = none) :
    PublicationHolds host (s.create path content) ∧ Grows host s (s.create path content) := by
  have hgrows : Grows host s (s.create path content) :=
    ⟨Nat.le_succ _, fun serial hserial => Function.update_of_ne (Nat.ne_of_lt hserial) _ _,
      fun _ _ => id⟩
  refine ⟨⟨h.logs, fun other serial hother => ?_, fun serial hserial => ?_,
    fun other => (h.publishers other).grow hgrows⟩, hgrows⟩
  · show serial < s.serials + 1
    have hpending : Function.update s.pending path (some s.serials) other = some serial := hother
    by_cases hpath : other = path
    · rw [hpath, Function.update_self] at hpending
      cases hpending
      exact Nat.lt_succ_self _
    · rw [Function.update_of_ne hpath] at hpending
      exact Nat.lt_succ_of_lt (h.pending other serial hpending)
  · rcases Nat.lt_succ_iff_lt_or_eq.mp hserial with hold | rfl
    · rw [hgrows.contents serial hold]
      refine (h.staged serial hold).imp (fun ⟨other, hother⟩ => ⟨other, ?_⟩) hgrows.published
      show Function.update s.pending path _ other = _
      rwa [Function.update_of_ne]
      rintro rfl
      rw [hfree] at hother
      cases hother
    · exact .inl ⟨path, Function.update_self ..⟩

/-- A publisher that goes on after a step of its log. -/
theorem PublicationHolds.appendRow (h : PublicationHolds host s) {path : Str} {row : Obj}
    {cut : Option Nat} {next : PublisherPhase} (hreadable : (Json.dict row).Readable host.depth)
    (hnext : ∀ s' : PublicationState, Grows host s s' → Committed host (s'.logs path) row →
      PublisherHolds host s' next) :
    PublicationHolds host (s.appendRow host publisher path row cut next) ∧
      Grows host s (s.appendRow host publisher path row cut next) := by
  obtain ⟨records, tail, hlog⟩ := h.logs path
  obtain ⟨honce, hkept, hcompleted⟩ := hlog.append hreadable cut
  have hself : Function.update s.logs path (appendedOnce host (s.logs path) row cut).1 path =
      (appendedOnce host (s.logs path) row cut).1 := Function.update_self ..
  have hgrows : Grows host s { s with
      logs := Function.update s.logs path (appendedOnce host (s.logs path) row cut).1 } := by
    refine ⟨le_rfl, fun _ _ => rfl, fun other row' hrow' => ?_⟩
    by_cases hother : other = path
    · rw [hother] at hrow' ⊢
      show Committed host (Function.update s.logs path _ path) row'
      rw [hself]
      exact hkept row' hrow'
    · show Committed host (Function.update s.logs path _ other) row'
      rwa [Function.update_of_ne hother]
  have hholds : PublicationHolds host { s with
      logs := Function.update s.logs path (appendedOnce host (s.logs path) row cut).1 } := by
    refine ⟨fun other => ?_, h.pending, fun serial hserial =>
      (h.staged serial hserial).imp_right hgrows.published, fun other =>
      (h.publishers other).grow hgrows⟩
    show IsOnceLog host (Function.update s.logs path _ other)
    by_cases hother : other = path
    · rw [hother, hself]
      exact honce
    · rw [Function.update_of_ne hother]
      exact h.logs other
  rw [PublicationState.appendRow]
  split_ifs with hdone
  · refine ⟨hholds.enter (hnext _ hgrows ?_), hgrows.serials, hgrows.contents, hgrows.logs⟩
    show Committed host (Function.update s.logs path _ path) row
    rw [hself]
    exact hcompleted hdone
  · exact ⟨hholds.finish, hgrows.serials, hgrows.contents, hgrows.logs⟩

/-- A pending file goes away when its rows are in their logs. -/
theorem PublicationHolds.removed (h : PublicationHolds host s) {path : Str} {serial : Nat}
    (hpath : s.pending path = some serial)
    (hpublished : Published host s.logs (s.contents serial)) :
    PublicationHolds host { s with pending := Function.update s.pending path none } := by
  refine ⟨h.logs, fun other serial' hother => ?_, fun serial' hserial => ?_, fun other =>
    (h.publishers other).grow ⟨le_rfl, fun _ _ => rfl, fun _ _ => id⟩⟩
  · have hpending : Function.update s.pending path none other = some serial' := hother
    by_cases hsame : other = path
    · rw [hsame, Function.update_self] at hpending
      cases hpending
    · rw [Function.update_of_ne hsame] at hpending
      exact h.pending other serial' hpending
  · rcases h.staged serial' hserial with ⟨other, hother⟩ | hdone
    · by_cases hsame : other = path
      · rw [hsame, hpath] at hother
        cases hother
        exact .inr hpublished
      · refine .inl ⟨other, ?_⟩
        show Function.update s.pending path none other = _
        rwa [Function.update_of_ne hsame]
    · exact .inr hdone

/-- Every step keeps what holds, and loses nothing. -/
theorem PublicationHolds.step (h : PublicationHolds host s) (hstep : PublicationStep host s s') :
    PublicationHolds host s' ∧ Grows host s s' := by
  obtain ⟨action, hstep⟩ := hstep
  have hsame (phase : PublisherPhase) (publisher : Nat) : Grows host s (s.enter publisher phase) :=
    ⟨le_rfl, fun _ _ => rfl, fun _ _ => id⟩
  have hdone (publisher : Nat) :
      PublicationHolds host (s.finish publisher) ∧ Grows host s (s.finish publisher) :=
    ⟨h.finish, le_rfl, fun _ _ => rfl, fun _ _ => id⟩
  have hpublisher {publisher : Nat} {phase : PublisherPhase}
      (hphase : s.publishers publisher = phase) :
      PublisherHolds host s phase := hphase ▸ h.publishers publisher
  cases action with
  | stage path content =>
    rw [PublicationState.step] at hstep
    split_ifs at hstep with hfree
    cases hstep
    exact h.create content (Option.isNone_iff_eq_none.mp hfree)
  | publish publisher path =>
    rw [PublicationState.step] at hstep
    split at hstep
    · split at hstep
      next =>
        cases hstep
        exact ⟨h, Grows.refl s⟩
      next serial hpath =>
        cases hstep
        exact ⟨h.enter (h.pending path serial hpath), hsame _ _⟩
    · cases hstep
  | lock publisher =>
    rw [PublicationState.step] at hstep
    split at hstep
    next path serial hphase =>
      split_ifs at hstep
      cases hstep
      have hserial : serial < s.serials := hpublisher hphase
      have hlocked : PublisherHolds host s (.locked path serial) := hserial
      exact ⟨(h.enter hlocked).locks _, le_rfl, fun _ _ => rfl, fun _ _ => id⟩
    next => cases hstep
  | check publisher owner =>
    rw [PublicationState.step] at hstep
    split at hstep
    next path serial hphase =>
      cases hstep
      rw [PublicationState.checkCandidate]
      split_ifs
      · exact hdone publisher
      · split
        next => exact hdone publisher
        next candidate hread =>
          have hserial : serial < s.serials := hpublisher hphase
          split
          · exact ⟨h.enter ⟨hserial, hread⟩, hsame _ _⟩
          · exact ⟨h.enter ⟨hserial, hread⟩, hsame _ _⟩
          · exact hdone publisher
          · exact hdone publisher
    next => cases hstep
  | append publisher cut =>
    rw [PublicationState.step] at hstep
    split at hstep
    next path serial candidate hphase =>
      cases hstep
      obtain ⟨hserial, hread⟩ := hpublisher hphase
      refine h.appendRow (readable_of_readPending hread).1 fun s' hgrows hrow => ?_
      exact ⟨hserial.trans_le hgrows.serials, by rwa [hgrows.contents serial hserial], hrow⟩
    next path serial candidate hphase =>
      cases hstep
      obtain ⟨hserial, hread, hprediction⟩ := hpublisher hphase
      refine h.appendRow (readable_of_readPending hread).2 fun s' hgrows hrow => ?_
      exact ⟨hserial.trans_le hgrows.serials, by rwa [hgrows.contents serial hserial],
        hgrows.logs _ _ hprediction, hrow⟩
    next => cases hstep
  | remove publisher removal =>
    rw [PublicationState.step] at hstep
    split at hstep
    next path serial candidate hphase =>
      cases hstep
      obtain ⟨hserial, hread, hprediction, hmetric⟩ := hpublisher hphase
      have hpublished : Published host s.logs (s.contents serial) :=
        ⟨candidate, hread, hprediction, hmetric⟩
      rw [PublicationState.removePending]
      split_ifs with hother
      · exact hdone publisher
      · have hpath : s.pending path = some serial := by simpa using hother
        have hremoved := h.removed hpath hpublished
        cases removal with
        | failed => exact hdone publisher
        | durable => exact ⟨hremoved.finish, le_rfl, fun _ _ => rfl, fun _ _ => id⟩
        | undurable =>
          exact ⟨hremoved.enter ⟨hserial, hpublished⟩, le_rfl, fun _ _ => rfl, fun _ _ => id⟩
    next => cases hstep
  | restore publisher created =>
    rw [PublicationState.step] at hstep
    split at hstep
    next path serial hphase =>
      split_ifs at hstep with hfree
      · cases hstep
        rw [Bool.and_eq_true, Option.isNone_iff_eq_none] at hfree
        obtain ⟨hcreated, hgrows⟩ := h.create (s.contents serial) hfree.2
        exact ⟨hcreated.finish, hgrows.serials, hgrows.contents, hgrows.logs⟩
      · cases hstep
        exact hdone publisher
    next => cases hstep
  | stop publisher =>
    cases hstep
    exact hdone publisher

theorem Grows.trans {s'' : PublicationState} (h : Grows host s s') (h' : Grows host s' s'') :
    Grows host s s'' := by
  refine ⟨h.serials.trans h'.serials, fun serial hserial => ?_, fun path row hrow => ?_⟩
  · rw [h'.contents serial (hserial.trans_le h.serials), h.contents serial hserial]
  · exact h'.logs path row (h.logs path row hrow)

/-- No file was staged and nothing was logged. -/
def nothingStaged : PublicationState where
  pending _ := none
  contents _ := []
  serials := 0
  logs _ := []
  publishers _ := .idle
  locks _ := none

theorem nothingStaged_initial : PublicationInitial asciiLogHost nothingStaged := by
  refine ⟨fun path => ⟨[], [], onceLog_nil⟩, fun path serial hpath => ?_, fun serial hserial => ?_,
    fun publisher => rfl⟩
  · cases hpath
  · exact absurd hserial (Nat.not_lt_zero serial)

/-- A publisher locked a damaged file. -/
def damagedLocked : PublicationState :=
  { ((nothingStaged.create "p" []).enter 0 (.opened "p" 0)).enter 0 (.locked "p" 0) with
    locks := Function.update nothingStaged.locks 0 (some 0) }

/-- The publisher refused it. -/
def damagedRefused : PublicationState := damagedLocked.finish 0

end OpenCollabEval
