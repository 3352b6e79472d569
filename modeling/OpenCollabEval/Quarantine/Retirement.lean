import OpenCollabEval.Quarantine.Exclusion

/-!
# What a quarantine takes away

No report is taken from the path twice, and none is taken away by a call that gives no marker. A
call takes away the report that it found, unless another report is published between its last look
at the path and the operation that takes it away, or gets the number of the report.

A call ends after a bounded number of operations, whatever the file system answers and whatever is
published meanwhile.
-/

open Python

namespace OpenCollabEval

open QuarantineState

/-- The call will take away what is at the path without another look at it. -/
def QuarantinePhase.looked : QuarantinePhase → Bool
  | .replacing _ | .comparingLink _ _ _ | .retiring _ _ => true
  | _ => false

/-- Nothing is published after the last look of a call, nor with the number of the report that it
found. -/
def Undisturbed (s : QuarantineState) : QuarantineAction → Prop
  | .publish inode _ =>
    s.phase.looked = false ∧ ∀ call, s.phase.call = some call → inode ≠ call.identity
  | _ => True

/-- An undisturbed action leads from one state to the next. -/
def UndisturbedStep (name : Str) (s s' : QuarantineState) : Prop :=
  ∃ action, Undisturbed s action ∧ s.step name action = some s'

/-- What is known of the report of a call that is under way. -/
structure CallDue (name : Str) (s : QuarantineState) (call : QuarantineCall) : Prop where
  suffix : call.suffix ∈ quarantineSuffixes
  called : call.serial ∈ s.called
  kept : call.serial ∉ s.retired
  serial : s.directory.lookup name = some call.identity →
    (s.directory.inodes call.identity).serial = call.serial

/-- What the last look at the path tells. -/
def LookHolds (name : Str) (s : QuarantineState) : QuarantinePhase → Prop
  | .replacing call | .retiring call _ => s.directory.lookup name = some call.identity
  | .comparingLink _ _ (some i) => s.directory.lookup name = some i
  | .returned call none => call.serial ∉ s.retired
  | _ => True

/-- Only reports that a call was made for are taken away, and each of them once. -/
structure RetirementHolds (name : Str) (s : QuarantineState) : Prop where
  serials : ∀ serial ∈ s.retired, serial < s.serials
  path : ∀ i, s.directory.lookup name = some i →
    (s.directory.inodes i).serial < s.serials ∧ (s.directory.inodes i).serial ∉ s.retired
  nodup : s.retired.Nodup
  called : s.retired ⊆ s.called
  call : ∀ call, s.phase.call = some call → CallDue name s call
  look : LookHolds name s s.phase

/-- The path and what is counted are the same in two states. -/
structure SamePath (name : Str) (s s' : QuarantineState) : Prop where
  lookup : s'.directory.lookup name = s.directory.lookup name
  serial : ∀ i, s.directory.lookup name = some i →
    (s'.directory.inodes i).serial = (s.directory.inodes i).serial
  serials : s.serials ≤ s'.serials
  called : s'.called = s.called
  retired : s'.retired = s.retired

variable {name : Str} {s s' : QuarantineState} {call : QuarantineCall} {ordinal : Nat}
  {d : QuarantineDirectory} {answer : FileAnswer}

theorem QuarantineInitial.retirementHolds (h : QuarantineInitial name s) :
    RetirementHolds name s := by
  refine ⟨?_, fun i hi => ⟨h.numbered.lt i ⟨name, hi⟩, ?_⟩, ?_, ?_, fun call hcall => ?_, ?_⟩
  · simp [h.retired]
  · simp [h.retired]
  · simp [h.retired]
  · simp [h.retired]
  · rw [h.phase] at hcall
    cases hcall
  · rw [h.phase]
    trivial

/-- The report of a call stays due while the path is the same. -/
theorem CallDue.same (h : CallDue name s call) (hsame : SamePath name s s') :
    CallDue name s' call := by
  refine ⟨h.suffix, hsame.called ▸ h.called, hsame.retired ▸ h.kept, fun hpath => ?_⟩
  rw [hsame.lookup] at hpath
  rw [hsame.serial _ hpath, h.serial hpath]

/-- A call goes on, and the path is the same. -/
theorem RetirementHolds.same (h : RetirementHolds name s) (hsame : SamePath name s s')
    (hcall : ∀ call, s'.phase.call = some call → s.phase.call = some call)
    (hlook : LookHolds name s' s'.phase) : RetirementHolds name s' := by
  refine ⟨fun serial hserial => ?_, fun i hi => ?_, hsame.retired ▸ h.nodup, ?_,
    fun call hnext => (h.call call (hcall call hnext)).same hsame, hlook⟩
  · rw [hsame.retired] at hserial
    exact (h.serials serial hserial).trans_le hsame.serials
  · rw [hsame.lookup] at hi
    obtain ⟨hlt, hkept⟩ := h.path i hi
    rw [hsame.serial i hi, hsame.retired]
    exact ⟨hlt.trans_le hsame.serials, hkept⟩
  · rw [hsame.retired, hsame.called]
    exact h.called

/-- A call takes the path away. -/
theorem RetirementHolds.retire {target : Str} (h : RetirementHolds name s)
    (hcall : s.phase.call = some call) (hpath : s.directory.lookup name = some call.identity)
    (hnone : d.lookup name = none) :
    RetirementHolds name (s.retire name d (.returned call (some target))) := by
  have hdue := h.call call hcall
  have hretired : s.retire name d (.returned call (some target)) =
      { s with directory := d, phase := .returned call (some target),
               retired := call.serial :: s.retired } := by
    rw [QuarantineState.retire, hpath, hnone, ← hdue.serial hpath]
  rw [hretired]
  refine ⟨fun serial hserial => ?_, fun i hi => ?_, ?_, ?_, (fun _ hcall => by cases hcall),
    trivial⟩
  · rcases List.mem_cons.mp hserial with rfl | hserial
    · exact hdue.serial hpath ▸ (h.path _ hpath).1
    · exact h.serials serial hserial
  · rw [hnone] at hi
    cases hi
  · exact List.nodup_cons.mpr ⟨hdue.kept, h.nodup⟩
  · exact List.cons_subset.mpr ⟨hdue.called, h.called⟩

/-- A report is published where no call is about to take the path away. -/
theorem RetirementHolds.publish {i : FileIdentity} {content : List Nat}
    (h : RetirementHolds name s) (hundisturbed : Undisturbed s (.publish i content)) :
    RetirementHolds name (s.publish name i content) := by
  obtain ⟨hlooked, hother⟩ := hundisturbed
  have hlookup : (s.publish name i content).directory.lookup name = some i :=
    Posix.LinkDirectory.lookup_put_self i
  refine ⟨fun serial hserial => Nat.lt_succ_of_lt (h.serials serial hserial), fun j hj => ?_,
    h.nodup, h.called, fun call hcall => ?_, ?_⟩
  · rw [hlookup] at hj
    cases hj
    have hserial : ((s.publish name i content).directory.inodes i).serial = s.serials := by
      rw [QuarantineState.publish, Posix.LinkDirectory.inodes_put,
        Posix.LinkDirectory.inodes_setInode_self]
    rw [hserial]
    exact ⟨Nat.lt_succ_self _, fun hmem => absurd (h.serials _ hmem) (lt_irrefl _)⟩
  · have hdue := h.call call hcall
    refine ⟨hdue.suffix, hdue.called, hdue.kept, fun hpath => ?_⟩
    rw [hlookup] at hpath
    exact absurd (Option.some.inj hpath) (hother call hcall)
  · have hlook := h.look
    show LookHolds name _ s.phase
    generalize s.phase = phase at hlooked hlook
    cases phase with
    | replacing | comparingLink | retiring => cases hlooked
    | returned call target =>
      cases target with
      | none => exact hlook
      | some target => trivial
    | idle | linking | comparing | discarding | marking | writing | removing | closing
    | raised => trivial

theorem RetirementHolds.start {suffix : Str} {replaceFirst : Bool} (h : RetirementHolds name s) :
    RetirementHolds name (s.start name suffix replaceFirst answer) := by
  have hidle (phase : QuarantinePhase) (hphase : phase = .idle ∨ phase = .raised) :
      RetirementHolds name (s.enter phase) := by
    refine h.same ⟨rfl, fun _ _ => rfl, le_rfl, rfl, rfl⟩ ?_ ?_
    · rcases hphase with rfl | rfl
      · exact fun _ hcall => by cases hcall
      · exact fun _ hcall => by cases hcall
    · rcases hphase with rfl | rfl
      · trivial
      · trivial
  rcases start_cases s name suffix replaceFirst answer with
    (hstart | hstart) | ⟨identity, hsuffix, hidentity, call, phase, hcall, hphase, hstart⟩
  · exact hstart ▸ hidle .idle (.inl rfl)
  · exact hstart ▸ hidle .raised (.inr rfl)
  · have hlookup := (regularIdentity_eq_some.mp hidentity).1
    have hphaseCall : phase.call = some call := by rcases hphase with rfl | rfl <;> rfl
    rw [hstart]
    refine ⟨h.serials, h.path, h.nodup, fun serial hserial => ?_, fun other hother => ?_, ?_⟩
    · exact List.mem_cons_of_mem _ (h.called hserial)
    · rw [hphaseCall] at hother
      cases hother
      rw [hcall]
      exact ⟨hsuffix, List.mem_cons_self, (h.path _ hlookup).2, fun _ => rfl⟩
    · rcases hphase with rfl | rfl
      · show s.directory.lookup name = some call.identity
        rw [hlookup, hcall]
      · trivial

theorem call_linkAt (call : QuarantineCall) (ordinal : Nat) :
    (call.linkAt ordinal).call = some call := by
  rw [QuarantineCall.linkAt]
  split_ifs
  · rfl
  · rfl

theorem call_of_markAt {other : QuarantineCall} (h : (call.markAt ordinal).call = some other) :
    other = call := by
  rw [QuarantineCall.markAt] at h
  split_ifs at h
  · exact (Option.some.inj h).symm
  · cases h

theorem lookHolds_linkAt (call : QuarantineCall) (ordinal : Nat) :
    LookHolds name s (call.linkAt ordinal) := by
  rw [QuarantineCall.linkAt]
  split_ifs
  · trivial
  · trivial

theorem CallDue.lookHolds_markAt (h : CallDue name s call) (ordinal : Nat) :
    LookHolds name s (call.markAt ordinal) := by
  rw [QuarantineCall.markAt]
  split_ifs
  · trivial
  · exact h.kept

/-- No operation of a call takes away anything but the report of the call. -/
theorem RetirementHolds.operate (h : RetirementHolds name s)
    (hstep : s.operate name answer = some s') : RetirementHolds name s' := by
  have hdue {phase : QuarantinePhase} {call : QuarantineCall} (hphase : s.phase = phase)
      (hcall : phase.call = some call) : CallDue name s call := h.call call (by rw [hphase, hcall])
  have hlook {phase : QuarantinePhase} (hphase : s.phase = phase) : LookHolds name s phase :=
    hphase ▸ h.look
  have hsame {d : QuarantineDirectory} {phase : QuarantinePhase}
      (hlookup : d.lookup name = s.directory.lookup name)
      (hinodes : d.inodes = s.directory.inodes) : SamePath name s (s.proceed d phase) :=
    ⟨hlookup, fun i _ => by rw [← hinodes]; rfl, le_rfl, rfl, rfl⟩
  have hnext {phase next : QuarantinePhase} {call : QuarantineCall} (hphase : s.phase = phase)
      (hcall : phase.call = some call)
      (hnextCall : ∀ other, next.call = some other → other = call) :
      ∀ other, next.call = some other → s.phase.call = some other := by
    intro other hother
    rw [hphase, hcall, hnextCall other hother]
  have hself {next : QuarantinePhase} {call : QuarantineCall} (hcall : next.call = some call) :
      ∀ other, next.call = some other → other = call :=
    fun other hother => Option.some.inj (hother.symm.trans hcall)
  rcases operate_cases hstep with
    @⟨call, d, hphase, hrename⟩ | @⟨call, hphase⟩ | @⟨call, ordinal, d, hphase, hlink⟩ |
    @⟨call, ordinal, next, hphase, hgoes⟩ | @⟨call, ordinal, current, hphase, hcurrent⟩ |
    @⟨call, ordinal, current, hphase⟩ | @⟨call, ordinal, hphase, hlinked⟩ |
    @⟨call, ordinal, d, hphase, hunlink⟩ | @⟨call, ordinal, hphase, -⟩ |
    @⟨call, ordinal, d, hphase, hunlink⟩ | @⟨call, ordinal, hphase⟩ |
    @⟨call, ordinal, d, hphase, hcreate, hfree⟩ | @⟨call, ordinal, hphase⟩ |
    @⟨call, ordinal, inode, hphase⟩ | @⟨call, ordinal, inode, written, left, hphase, -⟩ |
    @⟨call, ordinal, inode, rest, hphase⟩ | @⟨call, ordinal, d, hphase, hunlink⟩ |
    @⟨call, ordinal, hphase⟩ | @⟨call, ordinal, hphase⟩ |
    @⟨call, ordinal, created, next, hphase, hgoes⟩
  · -- replaced
    have hpath : s.directory.lookup name = some call.identity := hlook hphase
    have hne := replaced_ne name (hdue hphase rfl).suffix
    obtain ⟨i, hsource, ⟨rfl, -⟩ | rfl⟩ := Posix.LinkDirectory.rename_eq_some hrename
    · refine h.same ⟨rfl, fun _ _ => rfl, le_rfl, rfl, ?_⟩ (fun _ hcall => by cases hcall) trivial
      rw [QuarantineState.retire, hpath]
    · refine h.retire (by rw [hphase]; rfl) hpath ?_
      rw [Posix.LinkDirectory.lookup_put_of_ne hne.symm]
      exact Posix.LinkDirectory.lookup_remove_self
  · exact h.same (hsame rfl rfl) (hnext hphase rfl (hself rfl)) trivial
  · -- linked
    have hne := marker_ne name (hdue hphase rfl).suffix ordinal
    obtain ⟨i, -, -, rfl⟩ := Posix.LinkDirectory.link_eq_ok hlink
    exact h.same (hsame (Posix.LinkDirectory.lookup_put_of_ne hne.symm i) rfl)
      (hnext hphase rfl (hself rfl)) trivial
  · rcases hgoes with rfl | rfl
    · exact h.same (hsame rfl rfl) (hnext hphase rfl (hself (call_linkAt ..))) (lookHolds_linkAt ..)
    · exact h.same (hsame rfl rfl) (hnext hphase rfl (hself rfl)) trivial
  · -- the path is looked at
    refine h.same (hsame rfl rfl) (hnext hphase rfl (hself rfl)) ?_
    cases current with
    | none => trivial
    | some i => exact (regularIdentity_eq_some.mp (hcurrent i rfl)).1
  · exact h.same (hsame rfl rfl) (hnext hphase rfl (hself rfl)) trivial
  · -- the path was the report of the call
    have hpath : s.directory.lookup name = some call.identity := hlook hphase
    exact h.same (hsame rfl rfl) (hnext hphase rfl (hself rfl)) hpath
  · -- discarded
    have hne := marker_ne name (hdue hphase rfl).suffix ordinal
    cases Posix.LinkDirectory.unlink_eq_some hunlink
    exact h.same (hsame (Posix.LinkDirectory.lookup_remove_of_ne hne.symm) rfl)
      (hnext hphase rfl (hself (call_linkAt ..))) (lookHolds_linkAt ..)
  · exact h.same (hsame rfl rfl) (hnext hphase rfl (hself (call_linkAt ..))) (lookHolds_linkAt ..)
  · -- retired
    cases Posix.LinkDirectory.unlink_eq_some hunlink
    exact h.retire (by rw [hphase]; rfl) (hlook hphase) Posix.LinkDirectory.lookup_remove_self
  · exact h.same (hsame rfl rfl) (fun _ hcall => by cases hcall) trivial
  · -- created
    have hne := marker_ne name (hdue hphase rfl).suffix ordinal
    obtain ⟨-, rfl⟩ := Posix.LinkDirectory.create_eq_some hcreate
    refine h.same ⟨Posix.LinkDirectory.lookup_put_of_ne hne.symm _, fun i hi => ?_,
      Nat.le_succ _, rfl, rfl⟩ (hnext hphase rfl (hself rfl)) trivial
    rw [inodes_new_of_lookup hfree hi]
  · exact h.same (hsame rfl rfl) (hnext hphase rfl fun _ => call_of_markAt)
      (((hdue hphase rfl).same (hsame rfl rfl)).lookHolds_markAt _)
  · exact h.same (hsame rfl rfl) (hnext hphase rfl (hself rfl)) trivial
  · -- wrote
    exact h.same ⟨rfl, fun i _ => Posix.LinkDirectory.serial_append _, le_rfl, rfl, rfl⟩
      (hnext hphase rfl (hself rfl)) trivial
  · exact h.same (hsame rfl rfl) (hnext hphase rfl (hself rfl)) trivial
  · -- removed
    have hne := marker_ne name (hdue hphase rfl).suffix ordinal
    cases Posix.LinkDirectory.unlink_eq_some hunlink
    exact h.same (hsame (Posix.LinkDirectory.lookup_remove_of_ne hne.symm) rfl)
      (hnext hphase rfl (hself rfl)) trivial
  · exact h.same (hsame rfl rfl) (hnext hphase rfl (hself rfl)) trivial
  · exact h.same (hsame rfl rfl) (fun _ hcall => by cases hcall) trivial
  · rcases hgoes with rfl | rfl
    · exact h.same (hsame rfl rfl) (fun _ hcall => by cases hcall) trivial
    · exact h.same (hsame rfl rfl) (hnext hphase rfl fun _ => call_of_markAt)
        (((hdue hphase rfl).same (hsame rfl rfl)).lookHolds_markAt _)

/-- A report is taken away once, and only by a call that was made for it. A call that gives no
marker leaves its report. -/
theorem retired_of_undisturbed {s₀ : QuarantineState} (hinit : QuarantineInitial name s₀)
    (hrun : Relation.ReflTransGen (UndisturbedStep name) s₀ s) :
    s.retired.Nodup ∧ s.retired ⊆ s.called ∧
      ∀ call, s.phase = .returned call none → call.serial ∉ s.retired := by
  have hholds : RetirementHolds name s := by
    induction hrun with
    | refl => exact hinit.retirementHolds
    | tail _ hstep ih =>
      obtain ⟨action, hundisturbed, hstep⟩ := hstep
      rcases action with ⟨inode, content⟩ | ⟨suffix, replaceFirst, answer⟩ | answer
      · rw [QuarantineState.step] at hstep
        split_ifs at hstep
        cases hstep
        exact ih.publish hundisturbed
      · rw [QuarantineState.step] at hstep
        split_ifs at hstep
        cases hstep
        exact ih.start
      · exact ih.operate hstep
  refine ⟨hholds.nodup, hholds.called, fun call hphase => ?_⟩
  have hlook := hholds.look
  rw [hphase] at hlook
  exact hlook

/-- A report that a call is about to rename. -/
def reportFound : QuarantineState :=
  { reportAtPath with phase := .replacing ⟨".invalid", (0, 1), 0⟩, called := [0] }

/-- A report that a call renamed. -/
def reportRenamed : QuarantineState :=
  ⟨⟨[("r.invalid", (0, 1))], fun _ => ⟨0, .regular, []⟩⟩, 1,
    .returned ⟨".invalid", (0, 1), 0⟩ (some "r.invalid"), [0], [0]⟩

theorem retired_reportRenamed :
    reportRenamed.retired.Nodup ∧ reportRenamed.retired ⊆ reportRenamed.called ∧
      ∀ call, reportRenamed.phase = .returned call none → call.serial ∉ reportRenamed.retired := by
  have hfound : UndisturbedStep "r" reportAtPath reportFound :=
    ⟨.call ".invalid" true ⟨false, (0, 0), 0⟩, trivial, rfl⟩
  have hrenamed : UndisturbedStep "r" reportFound reportRenamed :=
    ⟨.operate ⟨false, (0, 0), 0⟩, trivial, rfl⟩
  exact retired_of_undisturbed reportAtPath_initial (.tail (.single hfound) hrenamed)

/-- How many operations a call has left at most, when a marker has so many bytes. -/
def QuarantinePhase.left (bytes : Nat) : QuarantinePhase → Nat
  | .idle | .returned _ _ | .raised => 0
  | .closing _ ordinal _ => (100 - ordinal) * (bytes + 5) + 1
  | .removing _ ordinal => (100 - ordinal) * (bytes + 5) + 2
  | .writing _ ordinal _ rest => (100 - ordinal) * (bytes + 5) + rest.length + 3
  | .marking _ ordinal => (100 - ordinal) * (bytes + 5) + (bytes + 5)
  | .discarding _ ordinal | .retiring _ ordinal => 101 * (bytes + 5) + (100 - ordinal) * 4 + 1
  | .comparingLink _ ordinal _ => 101 * (bytes + 5) + (100 - ordinal) * 4 + 2
  | .comparing _ ordinal => 101 * (bytes + 5) + (100 - ordinal) * 4 + 3
  | .linking _ ordinal => 101 * (bytes + 5) + (100 - ordinal) * 4 + 4
  | .replacing _ => 101 * (bytes + 5) + 101 * 4 + 1

/-- No metadata marker is longer. -/
def markerBytes : Nat := 65

theorem length_markerPayload (identity : FileIdentity) :
    (markerPayload identity).length ≤ markerBytes := by
  have hdevice := length_natStr_uint64 identity.1
  have hinode := length_natStr_uint64 identity.2
  have hopen : (lit "\"source_identity\": [").length = 20 := by decide
  have hcomma : (lit ", ").length = 2 := by decide
  have hclose : (lit "]").length = 1 := by decide
  rw [markerPayload_eq, markerBytes]
  simp only [identityBody, List.length_cons, List.length_append, List.length_nil, hopen, hcomma,
    hclose]
  omega

theorem left_linkAt_lt (bytes ordinal : Nat) (call : QuarantineCall) :
    (call.linkAt (ordinal + 1)).left bytes < 101 * (bytes + 5) + (100 - ordinal) * 4 + 1 := by
  rw [QuarantineCall.linkAt]
  split_ifs
  · simp only [QuarantinePhase.left]
    omega
  · simp only [QuarantinePhase.left]
    omega

theorem left_markAt_lt (bytes ordinal : Nat) (call : QuarantineCall) :
    (call.markAt (ordinal + 1)).left bytes < (100 - ordinal) * (bytes + 5) + 1 := by
  rw [QuarantineCall.markAt]
  split_ifs with hordinal
  · have hsucc : 100 - ordinal = 100 - (ordinal + 1) + 1 := by omega
    rw [QuarantinePhase.left, hsucc, Nat.succ_mul]
    exact Nat.lt_succ_self _
  · exact Nat.succ_pos _

/-- Every operation of a call leaves fewer to be done. -/
theorem left_operate_lt (hstep : s.operate name answer = some s') :
    s'.phase.left markerBytes < s.phase.left markerBytes := by
  rcases operate_cases hstep with
    @⟨call, d, hphase, -⟩ | @⟨call, hphase⟩ | @⟨call, ordinal, d, hphase, -⟩ |
    @⟨call, ordinal, next, hphase, hgoes⟩ | @⟨call, ordinal, current, hphase, -⟩ |
    @⟨call, ordinal, current, hphase⟩ | @⟨call, ordinal, hphase, -⟩ |
    @⟨call, ordinal, d, hphase, -⟩ | @⟨call, ordinal, hphase, -⟩ |
    @⟨call, ordinal, d, hphase, -⟩ | @⟨call, ordinal, hphase⟩ |
    @⟨call, ordinal, d, hphase, -, -⟩ | @⟨call, ordinal, hphase⟩ |
    @⟨call, ordinal, inode, hphase⟩ | @⟨call, ordinal, inode, written, left, hphase, hwritten⟩ |
    @⟨call, ordinal, inode, rest, hphase⟩ | @⟨call, ordinal, d, hphase, -⟩ |
    @⟨call, ordinal, hphase⟩ | @⟨call, ordinal, hphase⟩ |
    @⟨call, ordinal, created, next, hphase, hgoes⟩ <;> rw [hphase]
  · exact Nat.succ_pos _
  · exact Nat.lt_succ_self _
  · exact Nat.lt_succ_self _
  · -- the next attempt, or the metadata markers
    rcases hgoes with rfl | rfl
    · exact (left_linkAt_lt ..).trans_le (Nat.add_le_add_left (by decide) _)
    · show 100 * (markerBytes + 5) + (markerBytes + 5) < _
      simp only [QuarantinePhase.left]
      omega
  · exact Nat.lt_succ_self _
  · exact Nat.lt_succ_self _
  · exact Nat.lt_succ_self _
  · exact left_linkAt_lt ..
  · exact left_linkAt_lt ..
  · exact Nat.succ_pos _
  · exact Nat.succ_pos _
  · have hbytes := length_markerPayload call.identity
    simp only [QuarantinePhase.left]
    omega
  · exact (left_markAt_lt ..).trans_le (Nat.add_le_add_left (by decide) _)
  · show _ < (100 - ordinal) * (markerBytes + 5) + 0 + 3
    simp only [QuarantineState.enter, QuarantinePhase.left]
    omega
  · have hpos := List.length_pos_of_ne_nil hwritten
    simp only [QuarantineState.proceed, QuarantinePhase.left, List.length_append]
    omega
  · simp only [QuarantineState.enter, QuarantinePhase.left]
    omega
  · exact Nat.lt_succ_self _
  · exact Nat.lt_succ_self _
  · exact Nat.succ_pos _
  · rcases hgoes with rfl | rfl
    · exact Nat.succ_pos _
    · exact left_markAt_lt ..

/-- A call that was made, and what happens until the next one. -/
inductive CallRun (name : Str) : Nat → QuarantineState → QuarantineState → Prop where
  | start (s : QuarantineState) (suffix : Str) (replaceFirst : Bool) (answer : FileAnswer) :
      CallRun name 0 s (s.start name suffix replaceFirst answer)
  | publish {n : Nat} {s s' : QuarantineState} {inode : FileIdentity} {content : List Nat}
      (h : CallRun name n s s') : CallRun name n s (s'.publish name inode content)
  | operate {n : Nat} {s s' s'' : QuarantineState} {answer : FileAnswer} (h : CallRun name n s s')
      (hstep : s'.operate name answer = some s'') : CallRun name (n + 1) s s''

theorem callRun_left_le {n : Nat} (hrun : CallRun name n s s') :
    n + s'.phase.left markerBytes ≤ 7475 := by
  induction hrun with
  | start s suffix replaceFirst answer =>
    rw [Nat.zero_add]
    rcases start_cases s name suffix replaceFirst answer with
      (hstart | hstart) | ⟨identity, -, -, call, phase, -, hphase, hstart⟩
    · rw [hstart]
      exact Nat.zero_le _
    · rw [hstart]
      exact Nat.zero_le _
    · rw [hstart]
      rcases hphase with rfl | rfl
      · exact le_rfl
      · exact Nat.le_succ _
  | publish _ ih => exact ih
  | operate _ hstep ih =>
    have hlt := left_operate_lt hstep
    omega

/-- A call can go on whatever the file system answers. A number that is in use is no answer. -/
theorem isSome_operate (hcall : s.phase.call = some call)
    (hanswer : answer.failed = true ∨ s.directory.isFree answer.inode = true) :
    (s.operate name answer).isSome = true := by
  rw [QuarantineState.operate]
  generalize s.phase = phase at hcall
  cases phase with
  | idle | returned | raised => cases hcall
  | replacing call => dsimp only; split <;> rfl
  | linking call ordinal =>
    dsimp only
    split_ifs
    · rfl
    · split <;> rfl
  | comparing call ordinal => rfl
  | comparingLink call ordinal current => dsimp only; split_ifs <;> rfl
  | discarding call ordinal => dsimp only; split <;> rfl
  | retiring call ordinal => dsimp only; split <;> rfl
  | marking call ordinal =>
    dsimp only
    split
    next d hcreate =>
      have hfailed : answer.failed = false := by
        rw [QuarantineState.attempt] at hcreate
        split_ifs at hcreate with hfailed
        simpa using hfailed
      rw [if_pos (hanswer.resolve_left (by rw [hfailed]; exact Bool.false_ne_true))]
      rfl
    next => rfl
  | writing call ordinal inode rest =>
    cases rest with
    | nil => rfl
    | cons => dsimp only; split_ifs <;> rfl
  | removing call ordinal => dsimp only; split <;> rfl
  | closing call ordinal created => rfl

/-- A call ends: it does no more than this many operations, and until it has ended it can do the
next one. -/
theorem callRun_ends {n : Nat} (hrun : CallRun name n s s') :
    n ≤ 7475 ∧ ∀ call answer, s'.phase.call = some call →
      (answer.failed = true ∨ s'.directory.isFree answer.inode = true) →
      (s'.operate name answer).isSome = true := by
  have hleft := callRun_left_le hrun
  exact ⟨by omega, fun call answer => isSome_operate⟩

theorem callRun_ends_unrenamed :
    1 ≤ 7475 ∧ ∀ call answer, (reportFound.enter (.linking ⟨".invalid", (0, 1), 0⟩ 0)).phase.call =
      some call → (answer.failed = true ∨ reportFound.directory.isFree answer.inode = true) →
      ((reportFound.enter (.linking ⟨".invalid", (0, 1), 0⟩ 0)).operate "r" answer).isSome =
        true := by
  have hstart : CallRun "r" 0 reportAtPath reportFound :=
    .start reportAtPath ".invalid" true ⟨false, (0, 0), 0⟩
  have hunrenamed : reportFound.operate "r" ⟨true, (0, 0), 0⟩ =
      some (reportFound.enter (.linking ⟨".invalid", (0, 1), 0⟩ 0)) := rfl
  exact callRun_ends (hstart.operate hunrenamed)

end OpenCollabEval
