import OpenCollabEval.SafeFiles.AtomicWrite
import Mathlib.Data.List.Basic

/-!
# Atomic publication

What any number of interleaved calls of `write_regular_file_atomic` do to their target, whichever
operations raise. The target is what it was or a complete file of one of the calls, temporary files
are removed, and exclusive calls replace nothing. The one exception is a writer that lets another file
take its descriptor's number: the size check then looks at that file.
-/

namespace OpenCollabEval

section Writer

/-- The edits of some operations. -/
def writerEdits (ops : List WriterOp) : List (List Nat → List Nat) :=
  ops.filterMap fun op =>
    match op with
    | .edit change => some change
    | _ => none

theorem producedBytes_eq (ops : List WriterOp) : producedBytes ops = applyEdits [] (writerEdits ops) :=
  rfl

theorem applyEdits_append (bytes : List Nat) (edits more : List (List Nat → List Nat)) :
    applyEdits bytes (edits ++ more) = applyEdits (applyEdits bytes edits) more :=
  List.foldl_append ..

/-- A flush keeps the owner of the number, and leaves the temporary file with all edits. -/
theorem WriterStream.flush_spec {s s' : WriterStream} (h : s.flush = some s') :
    s'.owner = s.owner ∧ s'.pending = [] ∧
      (s.owner = .temporary → s'.stored = applyEdits s.stored s.pending) := by
  rw [flush] at h
  split at h
  next hnone =>
    obtain rfl := Option.some.inj h
    have hpending : s.pending = [] := List.isEmpty_iff.mp hnone
    exact ⟨rfl, hpending, fun _ => by rw [hpending]; rfl⟩
  next =>
    split at h
    next howner =>
      obtain rfl := Option.some.inj h
      exact ⟨rfl, rfl, fun _ => rfl⟩
    next howner =>
      obtain rfl := Option.some.inj h
      exact ⟨rfl, rfl, fun htemp => by simp [howner] at htemp⟩
    next => exact absurd h (by simp)

/-- While the number is the temporary file's, the file and the buffer hold what was written. -/
theorem WriterStream.step_spec {s s' : WriterStream} {op : WriterOp} (h : s.step op = some s')
    (howner : s'.owner = .temporary) : s.owner = .temporary ∧
      applyEdits s'.stored s'.pending =
        applyEdits (applyEdits s.stored s.pending) (writerEdits [op]) := by
  cases op with
  | edit change =>
    obtain rfl := Option.some.inj h
    exact ⟨howner, applyEdits_append ..⟩
  | flush =>
    obtain ⟨hkeep, hpending, hstored⟩ := flush_spec h
    have howner' := hkeep.symm.trans howner
    refine ⟨howner', ?_⟩
    rw [hpending, hstored howner']
    rfl
  | closeDescriptor =>
    rw [step] at h
    split at h
    · obtain rfl := Option.some.inj h
      simp at howner
    · exact absurd h (by simp)
  | openOther =>
    obtain rfl := Option.some.inj h
    have htemp : s.owner = .temporary := by
      by_contra hne
      cases hs : s.owner <;> simp [hs] at hne howner
    exact ⟨htemp, rfl⟩
  | raise => exact absurd h (by simp [step])

/-- While the number is the temporary file's, a writer has written what it produced. -/
theorem WriterStream.foldlM_spec {ops : List WriterOp} {s s' : WriterStream}
    (h : ops.foldlM step s = some s') (howner : s'.owner = .temporary) : s.owner = .temporary ∧
      applyEdits s'.stored s'.pending = applyEdits (applyEdits s.stored s.pending) (writerEdits ops) := by
  induction ops generalizing s with
  | nil =>
    obtain rfl := Option.some.inj h
    exact ⟨howner, rfl⟩
  | cons op rest ih =>
    obtain ⟨next, hstep, hrest⟩ := Option.bind_eq_some_iff.mp h
    obtain ⟨hnext, heq⟩ := ih hrest
    obtain ⟨hs, heq'⟩ := step_spec hstep hnext
    refine ⟨hs, ?_⟩
    rw [heq, heq', ← applyEdits_append]
    congr 1
    exact (List.filterMap_append (l := [op]) ..).symm

/-- A stream that still has its number has put in the temporary file what the writer produced. -/
theorem stored_of_temporary {ops : List WriterOp} {stream : WriterStream}
    (h : runWriter ops = some stream) (howner : stream.owner = .temporary) :
    stream.stored = producedBytes ops := by
  obtain ⟨before, hrun, hflush⟩ := Option.bind_eq_some_iff.mp h
  obtain ⟨hkeep, -, hstored⟩ := WriterStream.flush_spec hflush
  have hbefore := hkeep.symm.trans howner
  rw [hstored hbefore, (WriterStream.foldlM_spec hrun hbefore).2]
  rfl

/-- A writer that lets another file take the number of its descriptor has by then put all that it
produces in the temporary file, within the limit. -/
def WriterKeeps (options : AtomicOptions) : Prop :=
  ∀ stream, runWriter options.writer = some stream → stream.owner = .other →
    stream.stored = producedBytes options.writer ∧ stream.stored.length ≤ options.maxBytes

/-- What passes the size check is what the writer produced. -/
theorem written_spec {options : AtomicOptions} (hkeeps : WriterKeeps options) {otherSize : Nat}
    {bytes : List Nat} (h : AtomicState.written options otherSize = some bytes) :
    bytes = producedBytes options.writer ∧ bytes.length ≤ options.maxBytes := by
  obtain ⟨stream, hrun, hrest⟩ := Option.bind_eq_some_iff.mp h
  obtain ⟨size, hsize, hrest⟩ := Option.bind_eq_some_iff.mp hrest
  split at hrest
  next => exact absurd hrest (by simp)
  next hle =>
    obtain rfl : stream.stored = bytes := by simpa using hrest
    cases howner : stream.owner with
    | temporary =>
      obtain rfl : stream.stored.length = size := by simpa [WriterStream.size, howner] using hsize
      exact ⟨stored_of_temporary hrun howner, Nat.not_lt.mp hle⟩
    | other => exact hkeeps stream hrun howner
    | nobody => simp [WriterStream.size, howner] at hsize

end Writer

section Calls

variable {ι : Type} {host : AtomicHost} {calls : ι → AtomicOptions} {initial : DirEntry}

/-- An exclusive call with an expected target cannot pass its checks. -/
def NeverCommits (options : AtomicOptions) : Prop :=
  options.exclusive = true ∧ options.expectedTarget.isSome = true

/-- A call that publishes only what its writer produced. -/
def PublishesFaithfully (options : AtomicOptions) : Prop :=
  NeverCommits options ∨ WriterKeeps options

/-- A file that holds all that the writer of a call produced, within its limit. -/
def CompleteFile (options : AtomicOptions) (file : RegularFile) : Prop :=
  file.bytes = producedBytes options.writer ∧ file.bytes.length ≤ options.maxBytes

/-- What holds of a call in its phase: whether it has a temporary file, and whether it has published. -/
def PhaseHolds (options : AtomicOptions) (temporary : Option RegularFile)
    (published unlinkFailed : Bool) : AtomicPhase → Prop
  | .starting | .checking => temporary = none ∧ published = false
  | .opening current =>
    temporary = none ∧ published = false ∧ ¬NeverCommits options ∧
      (options.exclusive = true → current = none)
  | .writing => temporary.isSome = true ∧ published = false ∧ ¬NeverCommits options
  | .publishing =>
    (∃ file, temporary = some file ∧ CompleteFile options file) ∧ published = false
  | .unlinking => published = true
  | .syncing => temporary = none ∧ published = true
  | .closing returns | .removing returns => returns = true → published = true
  | .ending returns | .done returns =>
    (returns = true → published = true) ∧ (temporary = none ∨ unlinkFailed = true)

/-- The invariant of the calls and their target. -/
structure AtomicHolds (calls : ι → AtomicOptions) (initial : DirEntry) (s : AtomicState ι) : Prop where
  untouched : (∀ call, s.published call = false) → s.target = initial
  complete : (∃ call, s.published call = true) → ∃ call file, s.published call = true ∧
    s.target = .regular file ∧ CompleteFile (calls call) file
  /-- An exclusive call publishes where nothing was and no call has published. -/
  first : ∀ call, (calls call).exclusive = true → s.published call = true → initial = .absent
  single : ∀ call other, (calls call).exclusive = true → (calls other).exclusive = true →
    s.published call = true → s.published other = true → call = other
  phases : ∀ call, PhaseHolds (calls call) (s.temporary call) (s.published call)
    (s.unlinkFailed call) (s.phase call)

theorem atomicHolds_init (calls : ι → AtomicOptions) (initial : DirEntry) :
    AtomicHolds calls initial (AtomicState.init ι initial) where
  untouched _ := rfl
  complete := by simp [AtomicState.init]
  first := by simp [AtomicState.init]
  single := by simp [AtomicState.init]
  phases _ := ⟨rfl, rfl⟩

/-- Where nothing is at the target, nothing was and no call has published. -/
theorem AtomicHolds.of_absent {s : AtomicState ι} (h : AtomicHolds calls initial s)
    (habsent : s.target = .absent) : initial = .absent ∧ ∀ call, s.published call = false := by
  have hnone : ∀ call, s.published call = false := by
    intro call
    by_contra hne
    obtain ⟨-, file, -, htarget, -⟩ := h.complete ⟨call, by simpa using hne⟩
    rw [habsent] at htarget
    exact absurd htarget (by simp)
  exact ⟨(h.untouched hnone).symm.trans habsent, hnone⟩

variable [DecidableEq ι] {s : AtomicState ι} {call : ι}

/-- A call goes on to a phase, with another temporary file or without. -/
theorem AtomicHolds.move (h : AtomicHolds calls initial s) {temporary : Option RegularFile}
    {failed : Bool} {phase : AtomicPhase} (nextId : Nat)
    (hphase : PhaseHolds (calls call) temporary (s.published call) failed phase) :
    AtomicHolds calls initial
      { s with
        nextId := nextId
        temporary := Function.update s.temporary call temporary
        unlinkFailed := Function.update s.unlinkFailed call failed
        phase := Function.update s.phase call phase } where
  untouched := h.untouched
  complete := h.complete
  first := h.first
  single := h.single
  phases other := by
    by_cases heq : other = call
    · subst heq
      simpa using hphase
    · simpa [Function.update_of_ne heq] using h.phases other

/-- A call goes on to a phase. -/
theorem AtomicHolds.enter (h : AtomicHolds calls initial s) {phase : AtomicPhase}
    (hphase : PhaseHolds (calls call) (s.temporary call) (s.published call) (s.unlinkFailed call)
      phase) : AtomicHolds calls initial (s.enter call phase) := by
  simpa [AtomicState.enter] using h.move s.nextId hphase

/-- A call goes on to a phase with another temporary file. -/
theorem AtomicHolds.setTemporary (h : AtomicHolds calls initial s) {temporary : Option RegularFile}
    {phase : AtomicPhase} (hphase : PhaseHolds (calls call) temporary (s.published call)
      (s.unlinkFailed call) phase) :
    AtomicHolds calls initial ((s.setTemporary call temporary).enter call phase) := by
  simpa [AtomicState.setTemporary, AtomicState.enter] using h.move s.nextId hphase

/-- A call opens its temporary file. -/
theorem AtomicHolds.openTemporary (h : AtomicHolds calls initial s) {current : Option RegularFile}
    {phase : AtomicPhase} (hphase : ∀ file, PhaseHolds (calls call) (some file) (s.published call)
      (s.unlinkFailed call) phase) :
    AtomicHolds calls initial ((s.openTemporary host calls call current).enter call phase) := by
  simpa [AtomicState.openTemporary, AtomicState.setTemporary, AtomicState.enter] using
    h.move (s.nextId + 1) (hphase _)

/-- The removal of a temporary file raises. -/
theorem AtomicHolds.unlinkFailed (h : AtomicHolds calls initial s) {phase : AtomicPhase}
    (hphase : PhaseHolds (calls call) (s.temporary call) (s.published call) true phase) :
    AtomicHolds calls initial
      ({ s with unlinkFailed := Function.update s.unlinkFailed call true }.enter call phase) := by
  simpa [AtomicState.enter] using h.move s.nextId hphase

/-- A call puts its file in the target's place. -/
theorem AtomicHolds.publish (h : AtomicHolds calls initial s) {file : RegularFile}
    {temporary : Option RegularFile} {phase : AtomicPhase} (hfile : CompleteFile (calls call) file)
    (habsent : (calls call).exclusive = true → s.target = .absent)
    (hphase : PhaseHolds (calls call) temporary true (s.unlinkFailed call) phase) :
    AtomicHolds calls initial (((s.publish call file).setTemporary call temporary).enter call phase) := by
  have hpublished : ∀ other, Function.update s.published call true other = true ↔
      other = call ∨ s.published other = true := by
    intro other
    by_cases heq : other = call
    · simp [heq]
    · simp [heq]
  have hself : Function.update s.published call true call = true := Function.update_self ..
  refine ⟨fun hnone => ?_, fun _ => ⟨call, file, hself, rfl, hfile⟩, fun other hexclusive hother => ?_,
    fun other third hexclusive hexclusive' hother hthird => ?_, fun other => ?_⟩
  · exact absurd ((hnone call).symm.trans hself) (by simp)
  · rcases (hpublished other).mp hother with rfl | hother
    · exact (h.of_absent (habsent hexclusive)).1
    · exact h.first other hexclusive hother
  · rcases (hpublished other).mp hother with rfl | hbefore <;>
      rcases (hpublished third).mp hthird with rfl | hbefore'
    · rfl
    · exact absurd ((h.of_absent (habsent hexclusive)).2 third) (by simp [hbefore'])
    · exact absurd ((h.of_absent (habsent hexclusive')).2 other) (by simp [hbefore])
    · exact h.single other third hexclusive hexclusive' hbefore hbefore'
  · by_cases heq : other = call
    · subst heq
      simpa [AtomicState.enter, AtomicState.setTemporary, AtomicState.publish] using hphase
    · simpa [AtomicState.enter, AtomicState.setTemporary, AtomicState.publish,
        Function.update_of_ne heq] using h.phases other

omit [DecidableEq ι] in
/-- What the checks leave of a call: nothing is at the target of an exclusive one. -/
theorem AtomicState.check_spec {options : AtomicOptions} {current : Option RegularFile}
    (h : s.check host options = some current) :
    ¬NeverCommits options ∧ (options.exclusive = true → current = none) := by
  rw [AtomicState.check] at h
  split at h
  next => exact absurd h (by simp)
  next =>
  obtain ⟨found, hstat, hrest⟩ := Option.bind_eq_some_iff.mp h
  split at hrest
  next => exact absurd hrest (by simp)
  next hexclusive =>
  split at hrest
  next => exact absurd hrest (by simp)
  next htarget =>
  obtain rfl : found = current := by simpa using hrest
  have hnone : options.exclusive = true → found = none := fun hexcl => by
    simpa [hexcl] using hexclusive
  refine ⟨fun ⟨hexcl, hexpected⟩ => htarget ?_, hnone⟩
  rw [hnone hexcl, hexpected]
  simpa [Option.isSome_iff_ne_none] using hexpected

/-- What a publication that does not raise does. -/
theorem AtomicState.commit_spec {next : AtomicState ι} (h : s.commit calls call = some next) :
    ∃ file, s.temporary call = some file ∧
      ((calls call).exclusive = true → s.target = .absent) ∧
      next = (s.publish call file).setTemporary call
        (if (calls call).exclusive = true then some file else none) := by
  obtain ⟨file, hfile, hrest⟩ := Option.bind_eq_some_iff.mp h
  refine ⟨file, hfile, ?_⟩
  split at hrest
  next hexclusive =>
    split at hrest
    next habsent =>
      obtain rfl := Option.some.inj hrest
      refine ⟨fun _ => habsent, ?_⟩
      rw [if_pos hexclusive, AtomicState.setTemporary, ← hfile]
      simp [AtomicState.publish]
    next => exact absurd hrest (by simp)
  next hreplace =>
    split at hrest
    next => exact absurd hrest (by simp)
    next =>
      obtain rfl := Option.some.inj hrest
      exact ⟨fun hexclusive => absurd hexclusive hreplace, by rw [if_neg hreplace]⟩

/-- Every operation of a call keeps the invariant. -/
theorem AtomicHolds.step (h : AtomicHolds calls initial s)
    (hcalls : ∀ call, PublishesFaithfully (calls call)) {action : AtomicAction ι} {s' : AtomicState ι}
    (hstep : s.step host calls action = some s') : AtomicHolds calls initial s' := by
  obtain ⟨call, fault, otherSize⟩ := action
  have hphase := h.phases call
  rw [AtomicState.step] at hstep
  cases hat : s.phase call with
  | starting =>
    rw [hat] at hphase hstep
    obtain rfl := Option.some.inj hstep
    refine h.enter ?_
    split
    · exact ⟨by simp, .inl hphase.1⟩
    · exact hphase
  | checking =>
    rw [hat] at hphase
    simp only [hat] at hstep
    split at hstep
    next current hcheck =>
      obtain rfl := Option.some.inj hstep
      obtain ⟨hcommits, hnone⟩ := AtomicState.check_spec hcheck
      refine h.enter ?_
      split
      · simp [PhaseHolds]
      · exact ⟨hphase.1, hphase.2, hcommits, hnone⟩
    next =>
      obtain rfl := Option.some.inj hstep
      exact h.enter (by simp [PhaseHolds])
  | opening current =>
    rw [hat] at hphase
    simp only [hat] at hstep
    split at hstep
    next =>
      obtain rfl := Option.some.inj hstep
      exact h.enter (by simp [PhaseHolds])
    next =>
      obtain rfl := Option.some.inj hstep
      exact h.openTemporary fun _ => by simp [PhaseHolds]
    next =>
      obtain rfl := Option.some.inj hstep
      exact h.openTemporary fun _ => ⟨rfl, hphase.2.1, hphase.2.2.1⟩
  | writing =>
    rw [hat] at hphase
    simp only [hat] at hstep
    split at hstep
    next bytes file hwritten hfile =>
      obtain rfl := Option.some.inj hstep
      have hkeeps := (hcalls call).resolve_left hphase.2.2
      refine h.setTemporary ?_
      split
      · simp [PhaseHolds]
      · exact ⟨⟨_, rfl, written_spec hkeeps hwritten⟩, hphase.2.1⟩
    next =>
      obtain rfl := Option.some.inj hstep
      exact h.enter (by simp [PhaseHolds])
  | publishing =>
    rw [hat] at hphase
    simp only [hat] at hstep
    obtain ⟨⟨file, hfile, hcomplete⟩, hpublished⟩ := hphase
    split at hstep
    next =>
      obtain rfl := Option.some.inj hstep
      exact h.enter (by simp [PhaseHolds])
    next =>
      split at hstep
      next next hcommit =>
        obtain rfl := Option.some.inj hstep
        obtain ⟨file', hfile', habsent, rfl⟩ := AtomicState.commit_spec hcommit
        obtain rfl : file = file' := Option.some.inj (hfile.symm.trans hfile')
        refine h.publish hcomplete habsent ?_
        by_cases hfault : fault.isSome = true
        · rw [if_pos hfault]
          exact fun _ => rfl
        · rw [if_neg hfault]
          by_cases hexclusive : (calls call).exclusive = true
          · rw [if_pos hexclusive, if_pos hexclusive]
            rfl
          · rw [if_neg hexclusive, if_neg hexclusive]
            exact ⟨rfl, rfl⟩
      next =>
        obtain rfl := Option.some.inj hstep
        exact h.enter (by simp [PhaseHolds])
  | unlinking =>
    rw [hat] at hphase
    simp only [hat] at hstep
    split at hstep
    next =>
      obtain rfl := Option.some.inj hstep
      exact h.enter (by simp [PhaseHolds])
    next =>
      obtain rfl := Option.some.inj hstep
      exact h.setTemporary (by simp [PhaseHolds])
    next =>
      obtain rfl := Option.some.inj hstep
      exact h.setTemporary ⟨rfl, hphase⟩
  | syncing =>
    rw [hat] at hphase
    simp only [hat] at hstep
    obtain rfl := Option.some.inj hstep
    exact h.enter fun _ => hphase.2
  | closing returns =>
    rw [hat] at hphase
    simp only [hat] at hstep
    obtain rfl := Option.some.inj hstep
    exact h.enter fun hreturns => hphase (by simp at hreturns; exact hreturns.1)
  | removing returns =>
    rw [hat] at hphase
    simp only [hat] at hstep
    split at hstep
    next =>
      obtain rfl := Option.some.inj hstep
      exact h.unlinkFailed ⟨by simp, .inr rfl⟩
    next =>
      obtain rfl := Option.some.inj hstep
      exact h.setTemporary ⟨by simp, .inl rfl⟩
    next =>
      obtain rfl := Option.some.inj hstep
      exact h.setTemporary ⟨hphase, .inl rfl⟩
  | ending returns =>
    rw [hat] at hphase
    simp only [hat] at hstep
    obtain rfl := Option.some.inj hstep
    exact h.enter ⟨fun hreturns => hphase.1 (by simp at hreturns; exact hreturns.1), hphase.2⟩
  | done returns =>
    simp [hat] at hstep

/-- Every run keeps the invariant. -/
theorem AtomicHolds.run (h : AtomicHolds calls initial s)
    (hcalls : ∀ call, PublishesFaithfully (calls call)) {actions : List (AtomicAction ι)}
    {s' : AtomicState ι} (hrun : s.run host calls actions = some s') :
    AtomicHolds calls initial s' := by
  induction actions generalizing s with
  | nil =>
    obtain rfl := Option.some.inj hrun
    exact h
  | cons action rest ih =>
    obtain ⟨next, hstep, hrest⟩ := Option.bind_eq_some_iff.mp hrun
    exact ih (h.step hcalls hstep) hrest

end Calls

section Publication

variable {ι : Type} [DecidableEq ι]

/-- Atomic publication in a state that calls have reached. -/
structure PublishesAtomically (host : AtomicHost) (calls : ι → AtomicOptions) (initial : DirEntry)
    (s : AtomicState ι) : Prop where
  /-- Before a call publishes the target is what it was. -/
  untouched : (∀ call, s.published call = false) → s.target = initial
  /-- From then on it is a complete file of a call that has published. -/
  complete : (∃ call, s.published call = true) → ∃ call file, s.published call = true ∧
    s.target = .regular file ∧ CompleteFile (calls call) file
  /-- A call that returns has published. -/
  visible : ∀ call, s.phase call = .done true → s.published call = true
  /-- A call that has ended leaves no temporary file unless its removal raised. -/
  cleaned : ∀ call returns, s.phase call = .done returns →
    s.temporary call = none ∨ s.unlinkFailed call = true
  /-- An exclusive call replaces nothing. -/
  keeps : ∀ action next, s.step host calls action = some next →
    (calls action.call).exclusive = true → s.target ≠ .absent → next.target = s.target
  /-- At most one exclusive call returns. -/
  single : ∀ call other, (calls call).exclusive = true → (calls other).exclusive = true →
    s.phase call = .done true → s.phase other = .done true → call = other

variable {host : AtomicHost} {calls : ι → AtomicOptions} {initial : DirEntry} {s : AtomicState ι}

/-- No operation of an exclusive call replaces what is at the target. -/
theorem AtomicState.step_target {action : AtomicAction ι} {next : AtomicState ι}
    (hstep : s.step host calls action = some next) (hexclusive : (calls action.call).exclusive = true)
    (hpresent : s.target ≠ .absent) : next.target = s.target := by
  obtain ⟨call, fault, otherSize⟩ := action
  rw [AtomicState.step] at hstep
  cases hat : s.phase call with
  | publishing =>
    simp only [hat] at hstep
    split at hstep
    next =>
      obtain rfl := Option.some.inj hstep
      rfl
    next =>
      split at hstep
      next committed hcommit =>
        obtain ⟨file, -, habsent, -⟩ := AtomicState.commit_spec hcommit
        exact absurd (habsent hexclusive) hpresent
      next =>
        obtain rfl := Option.some.inj hstep
        rfl
  | starting | syncing | closing | ending =>
    simp only [hat] at hstep
    obtain rfl := Option.some.inj hstep
    rfl
  | checking | opening | writing | unlinking | removing =>
    simp only [hat] at hstep
    split at hstep <;>
      · obtain rfl := Option.some.inj hstep
        rfl
  | done => simp [hat] at hstep

theorem AtomicHolds.publishesAtomically (h : AtomicHolds calls initial s) :
    PublishesAtomically host calls initial s where
  untouched := h.untouched
  complete := h.complete
  visible call hdone := by
    have hphase := h.phases call
    rw [hdone] at hphase
    exact hphase.1 rfl
  cleaned call returns hdone := by
    have hphase := h.phases call
    rw [hdone] at hphase
    exact hphase.2
  keeps action next hstep := AtomicState.step_target hstep
  single call other hexclusive hexclusive' hdone hdone' := by
    have hphase := h.phases call
    have hphase' := h.phases other
    rw [hdone] at hphase
    rw [hdone'] at hphase'
    exact h.single call other hexclusive hexclusive' (hphase.1 rfl) (hphase'.1 rfl)

section Steps

variable {call : ι}

@[simp]
theorem AtomicState.phase_enter_self (s : AtomicState ι) (call : ι) (phase : AtomicPhase) :
    (s.enter call phase).phase call = phase :=
  Function.update_self ..

theorem step_checking {current : Option RegularFile} (hat : s.phase call = .checking)
    (hcheck : s.check host (calls call) = some current) :
    s.step host calls ⟨call, none, 0⟩ = some (s.enter call (.opening current)) := by
  simp [AtomicState.step, hat, hcheck]

theorem step_opening {current : Option RegularFile} (hat : s.phase call = .opening current) :
    s.step host calls ⟨call, none, 0⟩ =
      some ((s.openTemporary host calls call current).enter call .writing) := by
  simp only [AtomicState.step, hat]

theorem step_writing (host : AtomicHost) {bytes : List Nat} {file : RegularFile}
    (hat : s.phase call = .writing) (hwritten : AtomicState.written (calls call) 0 = some bytes)
    (hfile : s.temporary call = some file) : s.step host calls ⟨call, none, 0⟩ =
      some ((s.setTemporary call (some { file with bytes })).enter call .publishing) := by
  simp [AtomicState.step, hat, hwritten, hfile]

theorem step_publishing (host : AtomicHost) {next : AtomicState ι} (hat : s.phase call = .publishing)
    (hcommit : s.commit calls call = some next) : s.step host calls ⟨call, none, 0⟩ =
      some (next.enter call (if (calls call).exclusive = true then .unlinking else .syncing)) := by
  simp [AtomicState.step, hat, hcommit]

end Steps

/-- A state of the target in which a call that can commit passes its checks. -/
def admittedTarget (options : AtomicOptions) : DirEntry :=
  match options.expectedTarget with
  | some id => .regular ⟨id, options.mode, []⟩
  | none => .absent

/-- The file at that target, as far as there is one. -/
def admittedFile (options : AtomicOptions) : Option RegularFile :=
  options.expectedTarget.map fun id => ⟨id, options.mode, []⟩

omit [DecidableEq ι] in
theorem check_admitted {options : AtomicOptions} (hcommits : ¬NeverCommits options)
    (htarget : s.target = admittedTarget options) :
    s.check ⟨options.expectedParent.getD 0, 0⟩ options = some (admittedFile options) := by
  have hparent : options.expectedParent.any (· != options.expectedParent.getD 0) = false := by
    cases options.expectedParent <;> simp
  cases hexpected : options.expectedTarget with
  | none =>
    simp [AtomicState.check, AtomicState.targetStat, htarget, admittedTarget, admittedFile, hexpected,
      hparent]
  | some id =>
    have hexclusive : options.exclusive = false := by
      by_contra hne
      exact hcommits ⟨by simpa using hne, by rw [hexpected]; rfl⟩
    simp [AtomicState.check, AtomicState.targetStat, htarget, admittedTarget, admittedFile, hexpected,
      hparent, hexclusive]

/-- A call that runs alone and without faults publishes what passes its size check. -/
theorem exists_published {call : ι} {bytes : List Nat} (hcommits : ¬NeverCommits (calls call))
    (hwritten : AtomicState.written (calls call) 0 = some bytes) :
    ∃ host actions s file, (AtomicState.init ι (admittedTarget (calls call))).run host calls actions =
        some s ∧ s.target = .regular file ∧ file.bytes = bytes ∧
      ∀ other, s.published other = true ↔ other = call := by
  set host : AtomicHost := ⟨(calls call).expectedParent.getD 0, 0⟩ with hhost
  set start := AtomicState.init ι (admittedTarget (calls call)) with hstart
  have hcheck : (start.enter call .checking).check host (calls call) =
      some (admittedFile (calls call)) := check_admitted hcommits rfl
  set opened := (((start.enter call .checking).enter call (.opening (admittedFile (calls call)))).openTemporary
    host calls call (admittedFile (calls call))).enter call .writing with hopened
  obtain ⟨file, hfile⟩ : ∃ file, opened.temporary call = some file :=
    ⟨_, by simp [hopened, AtomicState.openTemporary, AtomicState.setTemporary, AtomicState.enter]; rfl⟩
  set ready := (opened.setTemporary call (some { file with bytes })).enter call .publishing with hready
  obtain ⟨next, hcommit, htarget, hpublished⟩ : ∃ next, ready.commit calls call = some next ∧
      next.target = .regular { file with bytes } ∧
      next.published = Function.update (fun _ => false) call true := by
    have htemporary : ready.temporary call = some { file with bytes } := Function.update_self ..
    have htarget : ready.target = admittedTarget (calls call) := rfl
    cases hexclusive : (calls call).exclusive with
    | true =>
      have habsent : ready.target = .absent := by
        rw [htarget, admittedTarget]
        cases hexpected : (calls call).expectedTarget with
        | none => rfl
        | some id => exact absurd ⟨hexclusive, by rw [hexpected]; rfl⟩ hcommits
      exact ⟨_, by simp [AtomicState.commit, htemporary, hexclusive, habsent]; rfl, rfl, rfl⟩
    | false =>
      have hfile : ready.target ≠ .directory := by
        rw [htarget, admittedTarget]
        split <;> simp
      exact ⟨_, by simp [AtomicState.commit, htemporary, hexclusive, hfile]; rfl, rfl, rfl⟩
  have hrun : start.run host calls (List.replicate 5 ⟨call, none, 0⟩) = some (next.enter call
      (if (calls call).exclusive = true then .unlinking else .syncing)) := by
    have hstarting : start.step host calls ⟨call, none, 0⟩ = some (start.enter call .checking) := rfl
    have hchecking := @step_checking ι _ host calls _ call _ (AtomicState.phase_enter_self ..) hcheck
    have hopening : ((start.enter call .checking).enter call
        (.opening (admittedFile (calls call)))).step host calls ⟨call, none, 0⟩ = some opened :=
      step_opening (AtomicState.phase_enter_self ..)
    have hwriting : opened.step host calls ⟨call, none, 0⟩ = some ready :=
      step_writing host (AtomicState.phase_enter_self ..) hwritten hfile
    have hpublishing : ready.step host calls ⟨call, none, 0⟩ = some (next.enter call
        (if (calls call).exclusive = true then .unlinking else .syncing)) :=
      step_publishing host (AtomicState.phase_enter_self ..) hcommit
    simp only [AtomicState.run, List.replicate, List.foldlM_cons, List.foldlM_nil, hstarting,
      Option.bind_eq_bind, Option.bind_some, hchecking, hopening, hwriting, hpublishing]
    rfl
  refine ⟨host, _, _, _, hrun, htarget, rfl, fun other => ?_⟩
  rw [AtomicState.enter, hpublished]
  by_cases heq : other = call
  · simp [heq]
  · simp [heq]

/-- A call with a limit of one byte whose writer writes two, closes the descriptor's number and opens
another file. -/
def reusingCall : AtomicOptions where
  maxBytes := 1
  mode := 384
  expectedParent := none
  expectedTarget := none
  requireTargetAbsent := false
  createOnly := false
  writer := [.edit (· ++ [1, 2]), .flush, .closeDescriptor, .openOther]

end Publication

end OpenCollabEval
