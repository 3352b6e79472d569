import Mathlib.Logic.Relation
import OpenCollabEval.Quarantine.Machine

/-!
# A quarantined report stays excluded

Whatever is published while a call of `quarantine_report` is under way, and whatever operation of it
fails: when the call gives the name of a marker, and the report that it found is at the path, then
the report has a marker. Until the call returns, the marker of its current attempt is known to be
the report itself or a beginning of the document that names it.
-/

open Python

namespace OpenCollabEval

open QuarantineState

/-- The markers of a report with this name match the patterns that they are searched with. -/
def SelfMatching (name : Str) : Prop :=
  Str.contains name "**" = false ∧ ∀ suffix ∈ quarantineSuffixes, ∀ rest,
    Glob.fnmatch (name ++ (suffix ++ rest)) (name ++ suffix ++ lit "*") = true

/-- Nothing was called yet, and there is a report at the path or nothing. -/
structure QuarantineInitial (name : Str) (s : QuarantineState) : Prop where
  numbered : s.directory.Numbered s.serials
  path : regularIdentity s.directory name = s.directory.lookup name
  phase : s.phase = .idle
  retired : s.retired = []

/-- Some action leads from one state to the next. -/
def QuarantineStep (name : Str) (s s' : QuarantineState) : Prop :=
  ∃ action, s.step name action = some s'

/-- The call that was made last. -/
def QuarantinePhase.latest : QuarantinePhase → Option QuarantineCall
  | .returned call _ => some call
  | phase => phase.call

/-- A call knows the file that it found: no other file that has a name has its serial number. -/
structure CallKnows (s : QuarantineState) (call : QuarantineCall) : Prop where
  suffix : call.suffix ∈ quarantineSuffixes
  serial : call.serial < s.serials
  identity : ∀ i, s.directory.Live i → (s.directory.inodes i).serial = call.serial →
    i = call.identity

/-- What is known of the marker of the current attempt. -/
def MarkerHolds (name : Str) (d : QuarantineDirectory) : QuarantinePhase → Prop
  | .retiring call ordinal => regularIdentity d (call.marker name ordinal) = some call.identity
  | .writing call ordinal inode rest =>
    regularIdentity d (call.marker name ordinal) = some inode ∧
      (d.inodes inode).content ++ rest = markerPayload call.identity
  | .closing call ordinal true =>
    metadataMarkerIdentity d (call.marker name ordinal) = some (identityNumbers call.identity)
  | .returned call (some _) => ∀ i, d.lookup name = some i → (d.inodes i).serial = call.serial →
    ∃ marker, Marks name marker ∧ marksIdentity d i marker = true
  | _ => True

/-- What holds in every state. -/
structure QuarantineHolds (name : Str) (s : QuarantineState) : Prop where
  numbered : s.directory.Numbered s.serials
  path : regularIdentity s.directory name = s.directory.lookup name
  call : ∀ call, s.phase.latest = some call → CallKnows s call
  marker : MarkerHolds name s.directory s.phase

variable {name : Str} {s s' : QuarantineState} {call : QuarantineCall} {ordinal : Nat}
  {d : QuarantineDirectory}

theorem markerTag_eq (suffix : Str) (ordinal : Nat) :
    ∃ rest, markerTag suffix ordinal = suffix ++ rest := by
  rw [markerTag]
  split_ifs
  · exact ⟨[], (List.append_nil _).symm⟩
  · exact ⟨lit "." ++ natStr ordinal, List.append_assoc ..⟩

/-- The names of markers are longer than that of the report. -/
theorem marker_ne (name : Str) (h : call.suffix ∈ quarantineSuffixes) (ordinal : Nat) :
    call.marker name ordinal ≠ name := by
  intro heq
  obtain ⟨rest, hrest⟩ := markerTag_eq call.suffix ordinal
  rw [QuarantineCall.marker, hrest, List.append_right_eq_self, List.append_eq_nil_iff] at heq
  exact (literal_of_mem_suffixes h).2 heq.1

theorem replaced_ne (name : Str) (h : call.suffix ∈ quarantineSuffixes) :
    name ++ call.suffix ≠ name := by
  intro heq
  exact (literal_of_mem_suffixes h).2 (List.append_right_eq_self.mp heq)

/-- The search looks at every marker of the report. -/
theorem SelfMatching.marks (hname : SelfMatching name) (h : call.suffix ∈ quarantineSuffixes)
    (ordinal : Nat) : Marks name (call.marker name ordinal) := by
  obtain ⟨rest, hrest⟩ := markerTag_eq call.suffix ordinal
  refine ⟨hname.1, call.suffix, h, ?_⟩
  rw [QuarantineCall.marker, hrest]
  exact hname.2 _ h rest

theorem SelfMatching.marks_replaced (hname : SelfMatching name)
    (h : call.suffix ∈ quarantineSuffixes) : Marks name (name ++ call.suffix) := by
  refine ⟨hname.1, call.suffix, h, ?_⟩
  have hmatch := hname.2 _ h []
  rwa [List.append_nil] at hmatch

/-- A name without pattern characters is such a name. -/
theorem selfMatching_of_literal (hliteral : Glob.Literal name) : SelfMatching name := by
  constructor
  · have hstars : (Str.find "**" name).isSome = false := by
      induction name with
      | nil => rfl
      | cons c name ih =>
        have hc : (42 == c) = false :=
          beq_eq_false_iff_ne.mpr (hliteral c List.mem_cons_self).1.symm
        have hstar : (lit "**").isPrefixOf (c :: name) = false := by
          show (42 == c && _) = false
          rw [hc, Bool.false_and]
        rw [Str.find, hstar]
        simpa using ih fun d hd => hliteral d (List.mem_cons_of_mem _ hd)
    exact hstars
  · intro suffix hsuffix rest
    rw [← List.append_assoc]
    refine Glob.fnmatch_literal_star (fun c hc => ?_) rest
    rcases List.mem_append.mp hc with hc | hc
    · exact hliteral c hc
    · exact (literal_of_mem_suffixes hsuffix).1 c hc

section Frame

variable {i : FileIdentity} {inode : Posix.Inode} {other : Str}

theorem live_of_regularIdentity (h : regularIdentity d other = some i) : d.Live i :=
  ⟨other, (regularIdentity_eq_some.mp h).1⟩

/-- The file at a name is the same when neither the name nor the inode is changed. -/
theorem regularIdentity_congr {d' : QuarantineDirectory}
    (hlookup : d'.lookup other = d.lookup other)
    (hkind : ∀ j, d.lookup other = some j → (d'.inodes j).kind = (d.inodes j).kind) :
    regularIdentity d' other = regularIdentity d other := by
  rw [regularIdentity, regularIdentity, hlookup]
  cases hother : d.lookup other with
  | none => rfl
  | some j => simp only [Option.filter_some, hkind j hother]

/-- A new file gets no name but its own, and no number that is in use. -/
theorem inodes_new_of_lookup (hfree : d.isFree i = true) {j : FileIdentity}
    (hj : d.lookup other = some j) : ((d.setInode i inode).put name i).inodes j = d.inodes j := by
  refine Posix.LinkDirectory.inodes_setInode_of_ne ?_ inode
  rintro rfl
  exact Posix.LinkDirectory.isFree_iff.mp hfree ⟨other, hj⟩

theorem regularIdentity_new (hother : other ≠ name) (hfree : d.isFree i = true) :
    regularIdentity ((d.setInode i inode).put name i) other = regularIdentity d other := by
  refine regularIdentity_congr (Posix.LinkDirectory.lookup_put_of_ne hother i) fun j hj => ?_
  rw [inodes_new_of_lookup hfree hj]

theorem metadataMarkerIdentity_new (hother : other ≠ name) (hfree : d.isFree i = true) :
    metadataMarkerIdentity ((d.setInode i inode).put name i) other =
      metadataMarkerIdentity d other := by
  rw [metadataMarkerIdentity, metadataMarkerIdentity, regularIdentity_new hother hfree]
  cases hidentity : regularIdentity d other with
  | none => rfl
  | some j =>
    rw [Option.bind_some, Option.bind_some,
      inodes_new_of_lookup hfree (regularIdentity_eq_some.mp hidentity).1]

/-- The path is not changed with another name. -/
theorem path_put (h : regularIdentity d name = d.lookup name) (hother : other ≠ name) :
    regularIdentity (d.put other i) name = (d.put other i).lookup name := by
  have hlookup := Posix.LinkDirectory.lookup_put_of_ne (d := d) hother.symm i
  rw [regularIdentity_congr hlookup fun _ _ => rfl, h, hlookup]

theorem path_remove (h : regularIdentity d name = d.lookup name) (hother : other ≠ name) :
    regularIdentity (d.remove other) name = (d.remove other).lookup name := by
  have hlookup := Posix.LinkDirectory.lookup_remove_of_ne (d := d) hother.symm
  rw [regularIdentity_congr hlookup fun _ _ => rfl, h, hlookup]

theorem path_of_none (h : d.lookup name = none) : regularIdentity d name = d.lookup name := by
  rw [regularIdentity, h]
  rfl

end Frame

theorem QuarantineInitial.holds (h : QuarantineInitial name s) : QuarantineHolds name s := by
  refine ⟨h.numbered, h.path, fun call hcall => ?_, ?_⟩
  · rw [h.phase] at hcall
    cases hcall
  · rw [h.phase]
    trivial

/-- What a call knows stays true when no file gets live. -/
theorem CallKnows.mono (h : CallKnows s call) (hserials : s'.serials = s.serials)
    (hlive : ∀ j, s'.directory.Live j →
      s.directory.Live j ∧ (s'.directory.inodes j).serial = (s.directory.inodes j).serial) :
    CallKnows s' call := by
  refine ⟨h.suffix, hserials ▸ h.serial, fun i hi hserial => ?_⟩
  rw [(hlive i hi).2] at hserial
  exact h.identity i (hlive i hi).1 hserial

/-- What a call knows stays true when a new file gets a name. -/
theorem CallKnows.new {other : Str} {i : FileIdentity} {inode : Posix.Inode} (h : CallKnows s call)
    (hinode : inode.serial = s.serials) (hserials : s'.serials = s.serials + 1)
    (hdirectory : s'.directory = (s.directory.setInode i inode).put other i) :
    CallKnows s' call := by
  refine ⟨h.suffix, hserials ▸ Nat.lt_succ_of_lt h.serial, fun j hj hserial => ?_⟩
  rw [hdirectory] at hj hserial
  by_cases hji : j = i
  · have hserialCall := h.serial
    rw [hji, Posix.LinkDirectory.inodes_put, Posix.LinkDirectory.inodes_setInode_self] at hserial
    omega
  · rw [Posix.LinkDirectory.inodes_put, Posix.LinkDirectory.inodes_setInode_of_ne hji] at hserial
    exact h.identity j (hj.of_new.resolve_left hji) hserial

/-- The marker is not touched by a report that is published. -/
theorem QuarantineHolds.publish {i : FileIdentity} {content : List Nat} (h : QuarantineHolds name s)
    (hfree : s.directory.isFree i = true) : QuarantineHolds name (s.publish name i content) := by
  have hinode : (s.publish name i content).directory.inodes i = ⟨s.serials, .regular, content⟩ :=
    Posix.LinkDirectory.inodes_setInode_self _
  have hlookup : (s.publish name i content).directory.lookup name = some i :=
    Posix.LinkDirectory.lookup_put_self i
  refine ⟨h.numbered.new rfl, ?_, fun call hcall => (h.call call hcall).new rfl rfl rfl, ?_⟩
  · rw [hlookup]
    exact regularIdentity_eq_some.mpr ⟨hlookup, by rw [hinode]⟩
  · have hmarker := h.marker
    have hcall := h.call
    rw [QuarantineState.publish]
    generalize s.phase = phase at hmarker hcall ⊢
    cases phase with
    | retiring call ordinal =>
      have hne := marker_ne name (hcall call rfl).suffix ordinal
      exact (regularIdentity_new hne hfree).trans hmarker
    | writing call ordinal inode rest =>
      have hne := marker_ne name (hcall call rfl).suffix ordinal
      obtain ⟨hregular, hcontent⟩ := hmarker
      refine ⟨(regularIdentity_new hne hfree).trans hregular, ?_⟩
      rwa [inodes_new_of_lookup hfree (regularIdentity_eq_some.mp hregular).1]
    | closing call ordinal created =>
      have hne := marker_ne name (hcall call rfl).suffix ordinal
      cases created with
      | false => trivial
      | true => exact (metadataMarkerIdentity_new hne hfree).trans hmarker
    | returned call target =>
      cases target with
      | none => trivial
      | some target =>
        -- the new report is not the one that the call found
        intro j hj hserial
        have hlt := (hcall call rfl).serial
        rw [Posix.LinkDirectory.lookup_put_self] at hj
        cases hj
        rw [Posix.LinkDirectory.inodes_put, Posix.LinkDirectory.inodes_setInode_self] at hserial
        exact absurd hserial.symm (Nat.ne_of_lt hlt)
    | idle | replacing | linking | comparing | comparingLink | discarding | marking | removing
    | raised => trivial

variable {answer : FileAnswer}

/-- A call goes on, and no file is touched. -/
theorem QuarantineHolds.enter {phase : QuarantinePhase} (h : QuarantineHolds name s)
    (hlatest : ∀ call, phase.latest = some call → s.phase.latest = some call)
    (hmarker : MarkerHolds name s.directory phase) : QuarantineHolds name (s.enter phase) :=
  ⟨h.numbered, h.path, fun call hcall =>
    (h.call call (hlatest call hcall)).mono rfl fun j hj => ⟨hj, rfl⟩, hmarker⟩

/-- `quarantine_report` takes the file at the path for the one that it is to exclude. -/
theorem QuarantineHolds.start {suffix : Str} {replaceFirst : Bool} (h : QuarantineHolds name s) :
    QuarantineHolds name (s.start name suffix replaceFirst answer) := by
  rcases start_cases s name suffix replaceFirst answer with
    (hstart | hstart) | ⟨identity, hsuffix, hidentity, call, phase, hcall, hphase, hstart⟩
  · rw [hstart]
    exact h.enter (fun _ hcall => by cases hcall) trivial
  · rw [hstart]
    exact h.enter (fun _ hcall => by cases hcall) trivial
  · have hlive := live_of_regularIdentity hidentity
    have hknows : CallKnows s call := by
      rw [hcall]
      exact ⟨hsuffix, h.numbered.lt identity hlive,
        fun i hi hserial => h.numbered.injective i identity hi hlive hserial⟩
    have hlatest : phase.latest = some call := by rcases hphase with rfl | rfl <;> rfl
    rw [hstart]
    refine ⟨h.numbered, h.path, fun other hother => ?_, ?_⟩
    · rw [hlatest] at hother
      cases hother
      exact hknows.mono rfl fun j hj => ⟨hj, rfl⟩
    · rcases hphase with rfl | rfl
      · trivial
      · trivial

/-- A call goes on, and no file gets live. -/
theorem QuarantineHolds.proceed {phase : QuarantinePhase} {retired : List Nat}
    (h : QuarantineHolds name s)
    (hlive : ∀ j, d.Live j →
      s.directory.Live j ∧ (d.inodes j).serial = (s.directory.inodes j).serial)
    (hpath : regularIdentity d name = d.lookup name)
    (hlatest : ∀ call, phase.latest = some call → s.phase.latest = some call)
    (hmarker : MarkerHolds name d phase) :
    QuarantineHolds name { s with directory := d, phase, retired } :=
  ⟨h.numbered.mono hlive, hpath, fun call hcall =>
    (h.call call (hlatest call hcall)).mono rfl hlive, hmarker⟩

theorem latest_linkAt (call : QuarantineCall) (ordinal : Nat) :
    (call.linkAt ordinal).latest = some call := by
  rw [QuarantineCall.linkAt]
  split_ifs
  · rfl
  · rfl

theorem latest_markAt (call : QuarantineCall) (ordinal : Nat) :
    (call.markAt ordinal).latest = some call := by
  rw [QuarantineCall.markAt]
  split_ifs
  · rfl
  · rfl

theorem markerHolds_linkAt (call : QuarantineCall) (ordinal : Nat) :
    MarkerHolds name d (call.linkAt ordinal) := by
  rw [QuarantineCall.linkAt]
  split_ifs
  · trivial
  · trivial

theorem markerHolds_markAt (call : QuarantineCall) (ordinal : Nat) :
    MarkerHolds name d (call.markAt ordinal) := by
  rw [QuarantineCall.markAt]
  split_ifs
  · trivial
  · trivial

/-- No operation of a call unmakes what is known. -/
theorem QuarantineHolds.operate (hname : SelfMatching name) (h : QuarantineHolds name s)
    (hstep : s.operate name answer = some s') : QuarantineHolds name s' := by
  have hlatest {phase : QuarantinePhase} {call : QuarantineCall} (hphase : s.phase = phase)
      (hcall : phase.latest = some call) : CallKnows s call := h.call call (by rw [hphase, hcall])
  have hnext {phase next : QuarantinePhase} {call : QuarantineCall} (hphase : s.phase = phase)
      (hcall : phase.latest = some call) (hnextCall : next.latest = some call) :
      ∀ call, next.latest = some call → s.phase.latest = some call := by
    rw [hphase, hcall, hnextCall]
    exact fun _ => id
  have hmarker {phase : QuarantinePhase} (hphase : s.phase = phase) :
      MarkerHolds name s.directory phase := hphase ▸ h.marker
  -- a call that takes the path away has excluded the report
  have hgone {phase : QuarantinePhase} {retired : List Nat} {call : QuarantineCall}
      {target : Option Str} {d : QuarantineDirectory} (hphase : s.phase = phase)
      (hcall : phase.latest = some call)
      (hlive : ∀ j, d.Live j → s.directory.Live j ∧ d.inodes j = s.directory.inodes j)
      (hnone : d.lookup name = none) : QuarantineHolds name
        { s with directory := d, phase := .returned call target, retired } := by
    refine h.proceed (fun j hj => ⟨(hlive j hj).1, by rw [(hlive j hj).2]⟩) (path_of_none hnone)
      (hnext hphase hcall rfl) ?_
    cases target with
    | none => trivial
    | some target =>
      intro i hi
      rw [hnone] at hi
      cases hi
  rcases operate_cases hstep with
    @⟨call, d, hphase, hrename⟩ | @⟨call, hphase⟩ | @⟨call, ordinal, d, hphase, hlink⟩ |
    @⟨call, ordinal, next, hphase, hgoes⟩ | @⟨call, ordinal, current, hphase, -⟩ |
    @⟨call, ordinal, current, hphase⟩ | @⟨call, ordinal, hphase, hlinked⟩ |
    @⟨call, ordinal, d, hphase, hunlink⟩ | @⟨call, ordinal, hphase, -⟩ |
    @⟨call, ordinal, d, hphase, hunlink⟩ | @⟨call, ordinal, hphase⟩ |
    @⟨call, ordinal, d, hphase, hcreate, hfree⟩ | @⟨call, ordinal, hphase⟩ |
    @⟨call, ordinal, inode, hphase⟩ | @⟨call, ordinal, inode, written, left, hphase, -⟩ |
    @⟨call, ordinal, inode, rest, hphase⟩ | @⟨call, ordinal, d, hphase, hunlink⟩ |
    @⟨call, ordinal, hphase⟩ | @⟨call, ordinal, hphase⟩ |
    @⟨call, ordinal, created, next, hphase, hgoes⟩
  · -- replaced
    have hsuffix := (hlatest hphase rfl).suffix
    have hlive := fun j => Posix.LinkDirectory.Live.of_rename hrename (j := j)
    obtain ⟨i, hsource, ⟨rfl, htarget⟩ | rfl⟩ := Posix.LinkDirectory.rename_eq_some hrename
    · refine h.proceed (fun j hj => ⟨hj, rfl⟩) h.path (hnext hphase rfl rfl) ?_
      intro j hj _
      have hregular := h.path.trans hj
      rw [hsource] at hj
      cases hj
      refine ⟨_, hname.marks_replaced hsuffix, ?_⟩
      rw [marksIdentity, regularIdentity_eq_some.mpr
        ⟨htarget, (regularIdentity_eq_some.mp hregular).2⟩, beq_self_eq_true, Bool.true_or]
    · refine hgone hphase rfl hlive ?_
      rw [Posix.LinkDirectory.lookup_put_of_ne (replaced_ne name hsuffix).symm]
      exact Posix.LinkDirectory.lookup_remove_self
  · exact h.enter (hnext hphase rfl rfl) trivial
  · -- linked
    have hne := marker_ne name (hlatest hphase rfl).suffix ordinal
    obtain ⟨i, hsource, -, rfl⟩ := Posix.LinkDirectory.link_eq_ok hlink
    exact h.proceed (fun j hj => ⟨.of_put ⟨name, hsource⟩ hj, rfl⟩) (path_put h.path hne)
      (hnext hphase rfl rfl) trivial
  · rcases hgoes with rfl | rfl
    · exact h.enter (hnext hphase rfl (latest_linkAt ..)) (markerHolds_linkAt ..)
    · exact h.enter (hnext hphase rfl rfl) trivial
  · exact h.enter (hnext hphase rfl rfl) trivial
  · exact h.enter (hnext hphase rfl rfl) trivial
  · exact h.enter (hnext hphase rfl rfl) hlinked
  · -- discarded
    have hne := marker_ne name (hlatest hphase rfl).suffix ordinal
    cases Posix.LinkDirectory.unlink_eq_some hunlink
    exact h.proceed (fun j hj => ⟨hj.of_remove, rfl⟩) (path_remove h.path hne)
      (hnext hphase rfl (latest_linkAt ..)) (markerHolds_linkAt ..)
  · exact h.enter (hnext hphase rfl (latest_linkAt ..)) (markerHolds_linkAt ..)
  · -- retired
    cases Posix.LinkDirectory.unlink_eq_some hunlink
    exact hgone hphase rfl (fun j hj => ⟨hj.of_remove, rfl⟩) Posix.LinkDirectory.lookup_remove_self
  · -- the hard link stays beside the path
    have hknows := hlatest hphase rfl
    refine h.enter (hnext hphase rfl rfl) fun i hi hserial => ?_
    refine ⟨_, hname.marks hknows.suffix ordinal, ?_⟩
    rw [hknows.identity i ⟨name, hi⟩ hserial, marksIdentity, hmarker hphase, beq_self_eq_true,
      Bool.true_or]
  · -- created
    have hknows := hlatest hphase rfl
    have hne := marker_ne name hknows.suffix ordinal
    obtain ⟨-, rfl⟩ := Posix.LinkDirectory.create_eq_some hcreate
    refine ⟨h.numbered.new rfl, ?_, fun other hother => ?_, ?_⟩
    · rw [regularIdentity_new hne.symm hfree, h.path]
      exact (Posix.LinkDirectory.lookup_put_of_ne hne.symm _).symm
    · cases hother
      exact hknows.new rfl rfl rfl
    · have hinode := Posix.LinkDirectory.inodes_setInode_self (d := s.directory) (i := answer.inode)
        ⟨s.serials, .regular, []⟩
      refine ⟨regularIdentity_eq_some.mpr ⟨Posix.LinkDirectory.lookup_put_self _, ?_⟩, ?_⟩
      · rw [Posix.LinkDirectory.inodes_put, hinode]
      · rw [Posix.LinkDirectory.inodes_put, hinode, List.nil_append]
  · exact h.enter (hnext hphase rfl (latest_markAt ..)) (markerHolds_markAt ..)
  · -- synchronized
    obtain ⟨hregular, hcontent⟩ := hmarker hphase
    rw [List.append_nil] at hcontent
    refine h.enter (hnext hphase rfl rfl) ?_
    rw [MarkerHolds, metadataMarkerIdentity, hregular, Option.bind_some, hcontent,
      contentIdentity_markerPayload]
  · -- wrote
    obtain ⟨hregular, hcontent⟩ := hmarker hphase
    have hsame (other : Str) : regularIdentity (s.directory.append inode written) other =
        regularIdentity s.directory other :=
      regularIdentity_congr (d := s.directory) rfl fun j _ => Posix.LinkDirectory.kind_append _
    refine h.proceed (fun j hj => ⟨hj, Posix.LinkDirectory.serial_append _⟩) ?_
      (hnext hphase rfl rfl) ⟨?_, ?_⟩
    · exact (hsame name).trans h.path
    · exact (hsame _).trans hregular
    · rw [Posix.LinkDirectory.append, Posix.LinkDirectory.inodes_setInode_self, List.append_assoc,
        hcontent]
  · exact h.enter (hnext hphase rfl rfl) trivial
  · -- removed
    have hne := marker_ne name (hlatest hphase rfl).suffix ordinal
    cases Posix.LinkDirectory.unlink_eq_some hunlink
    exact h.proceed (fun j hj => ⟨hj.of_remove, rfl⟩) (path_remove h.path hne)
      (hnext hphase rfl rfl) trivial
  · exact h.enter (hnext hphase rfl rfl) trivial
  · -- the document names the report
    have hknows := hlatest hphase rfl
    refine h.enter (hnext hphase rfl rfl) fun i hi hserial => ?_
    refine ⟨_, hname.marks hknows.suffix ordinal, ?_⟩
    have hdocument : metadataMarkerIdentity s.directory (call.marker name ordinal) =
        some (identityNumbers call.identity) := hmarker hphase
    rw [hknows.identity i ⟨name, hi⟩ hserial, marksIdentity, hdocument, beq_self_eq_true,
      Bool.or_true]
  · rcases hgoes with rfl | rfl
    · exact h.enter (fun _ hcall => by cases hcall) trivial
    · exact h.enter (hnext hphase rfl (latest_markAt ..)) (markerHolds_markAt ..)

theorem QuarantineHolds.step (hname : SelfMatching name) (h : QuarantineHolds name s)
    (hstep : QuarantineStep name s s') : QuarantineHolds name s' := by
  obtain ⟨action, hstep⟩ := hstep
  cases action with
  | publish inode content =>
    rw [QuarantineState.step] at hstep
    split_ifs at hstep with hfree
    cases hstep
    exact h.publish hfree
  | call suffix replaceFirst answer =>
    rw [QuarantineState.step] at hstep
    split_ifs at hstep
    cases hstep
    exact h.start
  | operate answer => exact h.operate hname hstep

/-- When a call gives the name of a marker, the report that it found is excluded for as long as it
is at the path. -/
theorem hasQuarantineMarker_of_returned (hname : SelfMatching name) {s₀ : QuarantineState}
    (hinit : QuarantineInitial name s₀) (hrun : Relation.ReflTransGen (QuarantineStep name) s₀ s)
    {target : Str} (hphase : s.phase = .returned call (some target)) {i : FileIdentity}
    (hpath : s.directory.lookup name = some i)
    (hserial : (s.directory.inodes i).serial = call.serial) :
    hasQuarantineMarker s.directory name = .ok true := by
  have hholds : QuarantineHolds name s := by
    clear hphase hpath hserial
    induction hrun with
    | refl => exact hinit.holds
    | tail _ hstep ih => exact ih.step hname hstep
  have hmarker := hholds.marker
  rw [hphase] at hmarker
  exact hasQuarantineMarker_iff.mpr ⟨i, hholds.path.trans hpath, hmarker i hpath hserial⟩

/-- A report beside no marker. -/
def reportAtPath : QuarantineState :=
  ⟨⟨[("r", (0, 1))], fun _ => ⟨0, .regular, []⟩⟩, 1, .idle, [], []⟩

theorem reportAtPath_initial : QuarantineInitial "r" reportAtPath := by
  have hlive (i : FileIdentity) (hi : reportAtPath.directory.Live i) : i = (0, 1) := by
    obtain ⟨other, hother⟩ := hi
    obtain ⟨before, after, hsplit, -⟩ := List.lookup_eq_some_iff.mp hother
    have hmem : (other, i) ∈ reportAtPath.directory.names := by rw [hsplit]; simp
    exact (Prod.mk.inj (List.mem_singleton.mp hmem)).2
  refine ⟨⟨fun i _ => Nat.zero_lt_one, fun i j hi hj _ => ?_⟩, rfl, rfl, rfl⟩
  rw [hlive i hi, hlive j hj]

/-- The report after a call that made a hard link and could not take the path away. -/
def reportKept : QuarantineState :=
  ⟨⟨[("r.invalid", (0, 1)), ("r", (0, 1))], fun _ => ⟨0, .regular, []⟩⟩, 1,
    .returned ⟨".invalid", (0, 1), 0⟩ (some "r.invalid"), [0], []⟩

/-- The report while the call is under way, after it made the link. -/
def reportLinked (phase : QuarantineCall → QuarantinePhase) : QuarantineState :=
  { reportKept with phase := phase ⟨".invalid", (0, 1), 0⟩ }

theorem reportKept_reached :
    Relation.ReflTransGen (QuarantineStep "r") reportAtPath reportKept := by
  have hcalled : QuarantineStep "r" reportAtPath
      { reportAtPath with phase := .linking ⟨".invalid", (0, 1), 0⟩ 0, called := [0] } :=
    ⟨.call ".invalid" false ⟨false, (0, 0), 0⟩, rfl⟩
  have hlinked : QuarantineStep "r"
      { reportAtPath with phase := .linking ⟨".invalid", (0, 1), 0⟩ 0, called := [0] }
      (reportLinked (.comparing · 0)) :=
    ⟨.operate ⟨false, (0, 0), 0⟩, rfl⟩
  have hcompared : QuarantineStep "r" (reportLinked (.comparing · 0))
      (reportLinked (.comparingLink · 0 (some (0, 1)))) :=
    ⟨.operate ⟨false, (0, 0), 0⟩, rfl⟩
  have haccepted : QuarantineStep "r" (reportLinked (.comparingLink · 0 (some (0, 1))))
      (reportLinked (.retiring · 0)) :=
    ⟨.operate ⟨false, (0, 0), 0⟩, rfl⟩
  have hkept : QuarantineStep "r" (reportLinked (.retiring · 0)) reportKept :=
    ⟨.operate ⟨true, (0, 0), 0⟩, rfl⟩
  exact .tail (.tail (.tail (.tail (.single hcalled) hlinked) hcompared) haccepted) hkept

theorem hasQuarantineMarker_reportKept :
    hasQuarantineMarker reportKept.directory "r" = .ok true :=
  hasQuarantineMarker_of_returned (selfMatching_of_literal (by unfold Glob.Literal; decide))
    reportAtPath_initial reportKept_reached rfl rfl rfl

end OpenCollabEval
