import OpenCollabEval.Provider.SlotBounds

/-!
# A freed slot can be acquired again

From every state that a run reaches, calls that go on without exceptions lead to a lease on any slot
below the limit. A scan keeps the first free slot, and the leases are on slots below the limit only, so
that the count of busy slots never keeps it from being granted.
-/

namespace OpenCollabEval

/-- Whether an action is a step of a call that raises nothing. -/
def SlotAction.isCall {ι π : Type} : SlotAction ι π → Bool
  | .fail _ | .close _ | .crash _ => false
  | _ => true

variable {ι π : Type} [DecidableEq ι] [DecidableEq π]

/-- Steps of calls lead from one state to another. -/
def SlotState.Reaches (process : ι → π) (limit reserve : Nat) (s s' : SlotState ι) : Prop :=
  ∃ actions : List (SlotAction ι π), (∀ action ∈ actions, action.isCall = true) ∧
    s.run process limit reserve actions = some s'

variable {process : ι → π} {limit reserve : Nat} {s : SlotState ι}

theorem SlotState.Reaches.refl (s : SlotState ι) : s.Reaches process limit reserve s :=
  ⟨[], by simp, rfl⟩

theorem SlotState.Reaches.head {next s' : SlotState ι} {action : SlotAction ι π}
    (hstep : s.step process limit reserve action = some next) (hcall : action.isCall = true)
    (h : next.Reaches process limit reserve s') : s.Reaches process limit reserve s' := by
  obtain ⟨actions, hcalls, hrun⟩ := h
  refine ⟨action :: actions, List.forall_mem_cons.mpr ⟨hcall, hcalls⟩, ?_⟩
  rw [SlotState.run, List.foldlM_cons, hstep]
  exact hrun

theorem SlotState.Reaches.trans {next s' : SlotState ι} (h : s.Reaches process limit reserve next)
    (h' : next.Reaches process limit reserve s') : s.Reaches process limit reserve s' := by
  obtain ⟨actions, hcalls, hrun⟩ := h
  obtain ⟨actions', hcalls', hrun'⟩ := h'
  refine ⟨actions ++ actions', fun action hmem => ?_, ?_⟩
  · exact (List.mem_append.mp hmem).elim (hcalls action) (hcalls' action)
  · rw [SlotState.run] at hrun ⊢
    rw [List.foldlM_append, hrun]
    exact hrun'

theorem SlotsHold.reaches {s' : SlotState ι} (h : SlotsHold limit reserve s)
    (hreach : s.Reaches process limit reserve s') : SlotsHold limit reserve s' := by
  obtain ⟨actions, -, hrun⟩ := hreach
  exact h.run hrun

/-- Whether a lease is on a slot. -/
def SlotState.leasedSlot (s : SlotState ι) (slot : Nat) : Bool :=
  s.leases.any fun lease => lease.file = .slot slot

omit [DecidableEq ι] in
theorem SlotState.leasedSlot_iff {slot : Nat} :
    s.leasedSlot slot = true ↔ ∃ lease ∈ s.leases, lease.file = .slot slot := by
  simp [SlotState.leasedSlot]

/-- No call holds a lock. -/
def SlotState.Quiet (s : SlotState ι) : Prop := ∀ thread, (s.calls thread).locks = []

section Scan

/-- What a scan that nothing came between has found: it counted slots that are leased only, and all
slots before the one it keeps are leased. -/
structure Swept (s : SlotState ι) (keepOne : Bool) (index active : Nat)
    (free : Option (Descriptor ι)) : Prop where
  counted : active ≤ ((List.range index).filter s.leasedSlot).length
  before : keepOne = true → ∀ slot < index,
    (∀ fd ∈ free, ∀ kept, fd.file = .slot kept → slot < kept) → s.leasedSlot slot = true

omit [DecidableEq ι] in
/-- A slot that a scan finds busy is leased. -/
theorem SlotsHold.leased_of_busy (h : SlotsHold limit reserve s) {thread : ι} {keepOne : Bool}
    {lock : Descriptor ι} {index active : Nat} {free : Option (Descriptor ι)}
    (hcall : s.calls thread = .scanning keepOne lock index active free)
    (hbusy : s.isFree (.slot index) = false) : s.leasedSlot index = true := by
  obtain ⟨d, hd, hfile⟩ : ∃ d ∈ s.held, d.file = .slot index := by
    by_contra hnone
    push Not at hnone
    rw [SlotState.isFree_iff.mpr hnone] at hbusy
    exact absurd hbusy (by simp)
  refine SlotState.leasedSlot_iff.mpr ⟨d, (h.accounted d hd).resolve_right fun hmem => ?_, hfile⟩
  have hlocks : (s.calls thread).locks = lock :: free.toList := by rw [hcall]; rfl
  have hthread := h.thread_unique (List.ne_nil_of_mem hmem) (hlocks ▸ List.cons_ne_nil _ _)
  have hholds := h.call thread
  rw [hcall] at hholds
  rw [hthread, hlocks] at hmem
  rcases List.mem_cons.mp hmem with rfl | hmem
  · rw [hholds.1] at hfile
    exact absurd hfile (by simp)
  · exact (hholds.2.2.file_ne hmem).2 hfile

omit [DecidableEq ι] in
/-- A state with the same leases was swept alike. -/
theorem Swept.of_leases {s' : SlotState ι} {keepOne : Bool} {index active : Nat}
    {free : Option (Descriptor ι)} (h : Swept s keepOne index active free)
    (hleases : s'.leases = s.leases) : Swept s' keepOne index active free := by
  have hleased : s'.leasedSlot = s.leasedSlot := by
    funext slot
    rw [SlotState.leasedSlot, SlotState.leasedSlot, hleases]
  exact ⟨hleased ▸ h.counted, hleased ▸ h.before⟩

omit [DecidableEq ι] in
/-- One more slot is free, or it is leased and counted. -/
theorem Swept.next {keepOne : Bool} {index active active' : Nat} {free free' : Option (Descriptor ι)}
    (h : Swept s keepOne index active free)
    (hactive : active' = active ∨ active' = active + 1 ∧ s.leasedSlot index = true)
    (hfree : keepOne = true → free' = free ∨ free = none ∧ ∀ fd ∈ free', fd.file = .slot index)
    (hnext : keepOne = true → (∀ fd ∈ free', ∀ kept, fd.file = .slot kept → index < kept) →
      s.leasedSlot index = true) :
    Swept s keepOne (index + 1) active' free' := by
  refine ⟨?_, fun hkeep slot hslot hbefore => ?_⟩
  · have hcounted := h.counted
    rw [List.range_succ, List.filter_append, List.length_append]
    rcases hactive with rfl | ⟨rfl, hleased⟩
    · omega
    · rw [List.filter_singleton, hleased]
      exact Nat.succ_le_succ hcounted
  · rcases Nat.lt_succ_iff_lt_or_eq.mp hslot with hlt | rfl
    · refine h.before hkeep slot hlt fun fd hfd kept hfile => ?_
      rcases hfree hkeep with rfl | ⟨rfl, -⟩
      · exact hbefore fd hfd kept hfile
      · exact absurd hfd (by simp)
    · exact hnext hkeep hbefore

section Probe

variable {thread : ι} {keepOne : Bool} {lock : Descriptor ι} {index active : Nat}
  {free : Option (Descriptor ι)}

theorem step_probe_busy (hcall : s.calls thread = .scanning keepOne lock index active free)
    (hlt : index < slotCount) (hbusy : s.isFree (.slot index) = false) :
    s.step process limit reserve (.probe thread) =
      some (s.tryFile.enter thread (.scanning keepOne lock (index + 1) (active + 1) free)) := by
  simp [SlotState.step, hcall, hbusy, Nat.not_le.mpr hlt]

theorem step_probe_keep (hcall : s.calls thread = .scanning true lock index active none)
    (hlt : index < slotCount) (hfree : s.isFree (.slot index) = true) :
    s.step process limit reserve (.probe thread) =
      some ((s.take (s.nextFile thread (.slot index))).enter thread (.scanning true lock (index + 1)
        active (some (s.nextFile thread (.slot index))))) := by
  simp [SlotState.step, hcall, hfree, Nat.not_le.mpr hlt]

theorem step_probe_free (hcall : s.calls thread = .scanning keepOne lock index active free)
    (hlt : index < slotCount) (hfree : s.isFree (.slot index) = true)
    (hkeep : (keepOne && free.isNone) = false) :
    s.step process limit reserve (.probe thread) =
      some ((s.take (s.nextFile thread (.slot index))).enter thread (.probed keepOne lock index active
        free (s.nextFile thread (.slot index)))) := by
  simp only [SlotState.step, hcall, hfree, hkeep, if_neg (Nat.not_le.mpr hlt)]
  rfl

theorem step_drop {fd : Descriptor ι}
    (hcall : s.calls thread = .probed keepOne lock index active free fd) :
    s.step process limit reserve (.drop thread) =
      some ((s.closeAll [fd]).enter thread (.scanning keepOne lock (index + 1) active free)) := by
  simp only [SlotState.step, hcall]

end Probe

/-- A scan tries its next slot. -/
theorem SlotsHold.scan_next (h : SlotsHold limit reserve s) {thread : ι} {keepOne : Bool}
    {lock : Descriptor ι} {index active : Nat} {free : Option (Descriptor ι)}
    (hcall : s.calls thread = .scanning keepOne lock index active free) (hlt : index < slotCount) :
    ∃ s' active' free', s.Reaches process limit reserve s' ∧ s'.leases = s.leases ∧
      s'.calls thread = .scanning keepOne lock (index + 1) active' free' ∧
      (Swept s keepOne index active free → Swept s' keepOne (index + 1) active' free') := by
  have hholds := h.call thread
  rw [hcall] at hholds
  cases hbusy : s.isFree (.slot index) with
  | false =>
    have hleased := h.leased_of_busy hcall hbusy
    refine ⟨_, active + 1, free, .head (step_probe_busy hcall hlt hbusy) rfl (.refl _), rfl,
      SlotState.calls_enter_self, fun hswept => Swept.of_leases (s := s) ?_ rfl⟩
    exact hswept.next (.inr ⟨rfl, hleased⟩) (fun _ => .inl rfl) fun _ _ => hleased
  | true =>
    cases hkeep : keepOne && free.isNone with
    | true =>
      -- the first free slot is kept
      obtain ⟨rfl, rfl⟩ : keepOne = true ∧ free = none := by simpa using hkeep
      refine ⟨_, active, _, .head (step_probe_keep hcall hlt hbusy) rfl (.refl _), rfl,
        SlotState.calls_enter_self, fun hswept => Swept.of_leases (s := s) ?_ rfl⟩
      refine hswept.next (.inl rfl) (fun _ => .inr ⟨rfl, ?_⟩) fun _ hbefore => ?_
      · rintro fd ⟨⟩
        rfl
      · exact absurd (hbefore _ rfl index rfl) (Nat.lt_irrefl _)
    | false =>
      refine ⟨_, active, free, .head (step_probe_free hcall hlt hbusy hkeep) rfl
        (.head (step_drop SlotState.calls_enter_self) rfl (.refl _)), rfl,
        SlotState.calls_enter_self, fun hswept => Swept.of_leases (s := s) ?_ rfl⟩
      refine hswept.next (.inl rfl) (fun _ => .inl rfl) fun hkept hbefore => ?_
      -- a slot was kept before, so that this one does not come before it
      cases free with
      | none => simp [hkept] at hkeep
      | some fd =>
        obtain ⟨slot, hfile, -, hslot⟩ := hholds.2.2
        have hindex := hbefore fd rfl slot hfile
        omega

/-- A scan goes on to the last slot. -/
theorem SlotsHold.scan (h : SlotsHold limit reserve s) {thread : ι} {keepOne : Bool}
    {lock : Descriptor ι} {index active n : Nat} {free : Option (Descriptor ι)}
    (hcall : s.calls thread = .scanning keepOne lock index active free)
    (hn : index + n = slotCount) :
    ∃ s' active' free', s.Reaches process limit reserve s' ∧ s'.leases = s.leases ∧
      s'.calls thread = .scanning keepOne lock slotCount active' free' ∧
      (Swept s keepOne index active free → Swept s' keepOne slotCount active' free') := by
  induction n generalizing s index active free with
  | zero =>
    obtain rfl : index = slotCount := hn
    exact ⟨s, active, free, .refl s, rfl, hcall, id⟩
  | succ n ih =>
    obtain ⟨next, active', free', hreach, hleases, hcall', hswept⟩ :=
      @SlotsHold.scan_next _ _ _ _ process _ _ _ h _ _ _ _ _ _ hcall (by omega)
    obtain ⟨s', active'', free'', hreach', hleases', hcall'', hswept'⟩ :=
      ih (h.reaches hreach) hcall' (by omega)
    exact ⟨s', active'', free'', hreach.trans hreach', hleases'.trans hleases, hcall'',
      hswept' ∘ hswept⟩

end Scan

section Finish

variable (process) {thread : ι} {keepOne : Bool} {lock : Descriptor ι} {active : Nat}

/-- A call that leaves lets go of its only lock. -/
theorem SlotsHold.unlock (h : SlotsHold limit reserve s) (hcall : s.calls thread = .leaving lock) :
    ∃ s', s.Reaches process limit reserve s' ∧ s'.Quiet ∧ s'.calls thread = .idle ∧
      s'.leases = s.leases := by
  have hstep : s.step process limit reserve (.unlock thread) =
      some ((s.closeAll [lock]).enter thread .idle) := by
    simp only [SlotState.step, hcall]
  refine ⟨_, .head hstep rfl (.refl _), fun other => ?_, SlotState.calls_enter_self, rfl⟩
  by_cases heq : other = thread
  · subst heq
    rw [SlotState.calls_enter_self]
    rfl
  · rw [SlotState.calls_enter_of_ne heq]
    -- no other call holds a lock beside this one
    by_contra hlocks
    refine heq (h.thread_unique hlocks ?_)
    rw [hcall]
    exact List.cons_ne_nil _ _

/-- A slot that is granted becomes a lease. -/
theorem SlotsHold.finish_grant (h : SlotsHold limit reserve s) {fd : Descriptor ι}
    (hcall : s.calls thread = .granting lock fd) :
    ∃ s', s.Reaches process limit reserve s' ∧ s'.Quiet ∧ s'.calls thread = .idle ∧
      s'.leases = fd :: s.leases := by
  have hstep : s.step process limit reserve (.grant thread) =
      some ({ s with leases := fd :: s.leases }.enter thread (.leaving lock)) := by
    simp only [SlotState.step, hcall]
  obtain ⟨s', hreach, hquiet, hidle, hleases⟩ :=
    (h.step hstep).unlock process SlotState.calls_enter_self
  exact ⟨s', .head hstep rfl hreach, hquiet, hidle, hleases⟩

/-- A scan that kept a slot and counted few enough ends with a lease on it. -/
theorem SlotsHold.finish_kept (h : SlotsHold limit reserve s) {fd : Descriptor ι}
    (hcall : s.calls thread = .scanning keepOne lock slotCount active (some fd))
    (hlow : active + reserve < limit) :
    ∃ s', s.Reaches process limit reserve s' ∧ s'.Quiet ∧ s'.calls thread = .idle ∧
      s'.leases = fd :: s.leases := by
  have hstep : s.step process limit reserve (.decide thread) =
      some (s.enter thread (.granting lock fd)) := by
    simp [SlotState.step, hcall, hlow]
  obtain ⟨s', hreach, hquiet, hidle, hleases⟩ :=
    (h.step hstep).finish_grant process SlotState.calls_enter_self
  exact ⟨s', .head hstep rfl hreach, hquiet, hidle, hleases⟩

/-- A scan ends and keeps all leases. -/
theorem SlotsHold.finish_scan (h : SlotsHold limit reserve s) {free : Option (Descriptor ι)}
    (hcall : s.calls thread = .scanning keepOne lock slotCount active free) :
    ∃ s', s.Reaches process limit reserve s' ∧ s'.Quiet ∧ s'.calls thread = .idle ∧
      s.leases ⊆ s'.leases := by
  cases free with
  | none =>
    have hstep : s.step process limit reserve (.decide thread) =
        some (s.enter thread (.leaving lock)) := by
      simp [SlotState.step, hcall]
    obtain ⟨s', hreach, hquiet, hidle, hleases⟩ :=
      (h.step hstep).unlock process SlotState.calls_enter_self
    exact ⟨s', .head hstep rfl hreach, hquiet, hidle, fun d hd => hleases ▸ hd⟩
  | some fd =>
    by_cases hlow : active + reserve < limit
    · obtain ⟨s', hreach, hquiet, hidle, hleases⟩ := h.finish_kept process hcall hlow
      exact ⟨s', hreach, hquiet, hidle, fun d hd => hleases ▸ List.mem_cons_of_mem _ hd⟩
    · have hstep : s.step process limit reserve (.decide thread) =
          some ((s.closeAll [fd]).enter thread (.leaving lock)) := by
        simp [SlotState.step, hcall, hlow]
      obtain ⟨s', hreach, hquiet, hidle, hleases⟩ :=
        (h.step hstep).unlock process SlotState.calls_enter_self
      exact ⟨s', .head hstep rfl hreach, hquiet, hidle, fun d hd => hleases ▸ hd⟩

/-- A scan comes to its end from any slot. -/
theorem SlotsHold.finish_scanning (h : SlotsHold limit reserve s) {index : Nat}
    {free : Option (Descriptor ι)} (hcall : s.calls thread = .scanning keepOne lock index active free)
    (hindex : index ≤ slotCount) :
    ∃ s', s.Reaches process limit reserve s' ∧ s'.Quiet ∧ s'.calls thread = .idle ∧
      s.leases ⊆ s'.leases := by
  obtain ⟨next, active', free', hreach, hleases, hcall', -⟩ :=
    @SlotsHold.scan _ _ _ _ process _ _ _ h _ _ _ _ _ _ _ hcall (Nat.add_sub_cancel' hindex)
  obtain ⟨s', hreach', hquiet, hidle, hsub⟩ := (h.reaches hreach).finish_scan process hcall'
  exact ⟨s', hreach.trans hreach', hquiet, hidle, hleases ▸ hsub⟩

/-- A call that holds locks comes to its end. -/
theorem SlotsHold.finish (h : SlotsHold limit reserve s) (hlocks : (s.calls thread).locks ≠ []) :
    ∃ s', s.Reaches process limit reserve s' ∧ s'.Quiet ∧ s'.calls thread = .idle ∧
      s.leases ⊆ s'.leases := by
  have hholds := h.call thread
  cases hcall : s.calls thread with
  | idle => simp [hcall, SlotCall.locks] at hlocks
  | waiting => simp [hcall, SlotCall.locks] at hlocks
  | scanning keepOne lock index active free =>
    rw [hcall] at hholds
    exact h.finish_scanning process hcall hholds.2.1
  | probed keepOne lock index active free fd =>
    rw [hcall] at hholds
    have hstep := @step_drop _ π _ _ process limit reserve s _ _ _ _ _ _ _ hcall
    obtain ⟨s', hreach, hquiet, hidle, hsub⟩ :=
      (h.step hstep).finish_scanning process SlotState.calls_enter_self hholds.2.1
    exact ⟨s', .head hstep rfl hreach, hquiet, hidle, hsub⟩
  | granting lock fd =>
    obtain ⟨s', hreach, hquiet, hidle, hleases⟩ := h.finish_grant process hcall
    exact ⟨s', hreach, hquiet, hidle, fun d hd => hleases ▸ List.mem_cons_of_mem _ hd⟩
  | leaving lock =>
    obtain ⟨s', hreach, hquiet, hidle, hleases⟩ := h.unlock process hcall
    exact ⟨s', hreach, hquiet, hidle, fun d hd => hleases ▸ hd⟩

omit [DecidableEq ι] in
/-- Without a call that holds a lock, `allocation.lock` is free. -/
theorem SlotsHold.isFree_allocation (h : SlotsHold limit reserve s) (hquiet : s.Quiet) :
    s.isFree .allocation = true := by
  refine SlotState.isFree_iff.mpr fun d hd hfile => ?_
  rcases h.accounted d hd with hlease | hmem
  · obtain ⟨slot, hslot, -⟩ := h.low d hlease
    rw [hfile] at hslot
    exact absurd hslot (by simp)
  · rw [hquiet] at hmem
    exact absurd hmem (by simp)

/-- A call that waits gets the lock when no other call holds one. -/
theorem SlotsHold.step_lock (h : SlotsHold limit reserve s) (hquiet : s.Quiet)
    (hcall : s.calls thread = .waiting keepOne lock) :
    s.step process limit reserve (.lock thread) =
      some ({ s with held := lock :: s.held }.enter thread (.scanning keepOne lock 0 0 none)) := by
  simp only [SlotState.step, hcall, h.isFree_allocation hquiet, if_true]

/-- All calls can come to rest with a thread idle and no lease lost. -/
theorem SlotsHold.settle (h : SlotsHold limit reserve s) (thread : ι) :
    ∃ s', s.Reaches process limit reserve s' ∧ s'.Quiet ∧ s'.calls thread = .idle ∧
      s.leases ⊆ s'.leases := by
  obtain ⟨next, hreach, hquiet, hsub⟩ : ∃ next, s.Reaches process limit reserve next ∧ next.Quiet ∧
      s.leases ⊆ next.leases := by
    by_cases hall : s.Quiet
    · exact ⟨s, .refl s, hall, List.Subset.refl _⟩
    · obtain ⟨other, hlocks⟩ := not_forall.mp hall
      obtain ⟨next, hreach, hquiet, -, hsub⟩ := h.finish process hlocks
      exact ⟨next, hreach, hquiet, hsub⟩
  have hnext := h.reaches hreach
  have hlocks := hquiet thread
  cases hcall : next.calls thread with
  | idle => exact ⟨next, hreach, hquiet, hcall, hsub⟩
  | waiting keepOne lock =>
    have hstep := hnext.step_lock process hquiet hcall
    obtain ⟨s', hreach', hquiet', hidle, hsub'⟩ :=
      (hnext.step hstep).finish_scanning process SlotState.calls_enter_self (Nat.zero_le _)
    exact ⟨s', hreach.trans (.head hstep rfl hreach'), hquiet', hidle,
      List.Subset.trans hsub hsub'⟩
  | scanning => simp [hcall, SlotCall.locks] at hlocks
  | probed => simp [hcall, SlotCall.locks] at hlocks
  | granting => simp [hcall, SlotCall.locks] at hlocks
  | leaving => simp [hcall, SlotCall.locks] at hlocks

end Finish

section Acquire

variable {slot active : Nat} {free : Option (Descriptor ι)}

omit [DecidableEq ι] in
/-- The slots that are leased leave out one below the limit that is not. -/
theorem SlotsHold.length_leased_lt (h : SlotsHold limit reserve s) {slot : Nat}
    (hslot : slot + reserve < limit) (hnot : s.leasedSlot slot = false) :
    ((List.range slotCount).filter s.leasedSlot).length + reserve < limit := by
  have hsub : (List.range slotCount).filter s.leasedSlot ⊆
      (List.range (limit - reserve)).erase slot := by
    intro other hmem
    have hleased := (List.mem_filter.mp hmem).2
    obtain ⟨lease, hlease, hfile⟩ := SlotState.leasedSlot_iff.mp hleased
    obtain ⟨low, hlow, hlt⟩ := h.low lease hlease
    obtain rfl : low = other := by
      rw [hlow] at hfile
      exact LockFile.slot.inj hfile
    have hne : low ≠ slot := fun heq => by simp [heq, hnot] at hleased
    exact (List.mem_erase_of_ne hne).mpr (List.mem_range.mpr (by omega))
  have hlength := (List.subperm_of_subset (List.nodup_range.filter _) hsub).length_le
  rw [List.length_erase_of_mem (List.mem_range.mpr (by omega)), List.length_range] at hlength
  omega

omit [DecidableEq ι] in
/-- A sweep over all slots that leaves a slot below the limit free has kept a slot, not after that one,
and counted few enough for a grant. -/
theorem Swept.kept (hswept : Swept s true slotCount active free) (h : SlotsHold limit reserve s)
    (hfree : FreeHolds true slotCount active free) (hlimit : limit ≤ slotCount)
    (hslot : slot + reserve < limit) (hnot : s.leasedSlot slot = false) :
    ∃ fd kept, free = some fd ∧ fd.file = .slot kept ∧ kept ≤ slot ∧ active + reserve < limit := by
  have hlow : active + reserve < limit := by
    have hlt := h.length_leased_lt hslot hnot
    have hle := hswept.counted
    omega
  cases free with
  | none =>
    have hleased := hswept.before rfl slot (by omega) (by simp)
    rw [hnot] at hleased
    exact absurd hleased (by simp)
  | some fd =>
    obtain ⟨kept, hfile, -, -⟩ := hfree
    refine ⟨fd, kept, rfl, hfile, Nat.not_lt.mp fun hlt => ?_, hlow⟩
    have hleased := hswept.before rfl slot (by omega) fun fd' hfd kept' hfile' => by
      obtain rfl := Option.some.inj hfd
      rw [hfile] at hfile'
      rwa [← LockFile.slot.inj hfile']
    rw [hnot] at hleased
    exact absurd hleased (by simp)

/-- While a slot below the limit is free and no call holds a lock, `acquire` gets a slot that is not
after it. -/
theorem SlotsHold.acquire (h : SlotsHold limit reserve s) (hquiet : s.Quiet) {thread : ι}
    (hidle : s.calls thread = .idle) (hlimit : limit ≤ slotCount) (hslot : slot + reserve < limit)
    (hnot : s.leasedSlot slot = false) :
    ∃ s' fd kept, s.Reaches process limit reserve s' ∧ s'.Quiet ∧ s'.calls thread = .idle ∧
      s'.leases = fd :: s.leases ∧ fd.file = .slot kept ∧ kept ≤ slot := by
  have hopen : s.step process limit reserve (.open thread true) =
      some (s.tryFile.enter thread (.waiting true (s.nextFile thread .allocation))) := by
    simp only [SlotState.step, hidle]
  have hopened := h.step hopen
  have hquiet' : (s.tryFile.enter thread (.waiting true (s.nextFile thread .allocation))).Quiet := by
    intro other
    by_cases heq : other = thread
    · subst heq
      rw [SlotState.calls_enter_self]
      rfl
    · rw [SlotState.calls_enter_of_ne heq]
      exact hquiet other
  have hlock := hopened.step_lock process hquiet' SlotState.calls_enter_self
  have hlocked := hopened.step hlock
  obtain ⟨scanned, active, free, hreach, hleases, hcall, hswept⟩ :=
    @SlotsHold.scan _ _ _ _ process _ _ _ hlocked _ _ _ _ _ slotCount _ SlotState.calls_enter_self
      (Nat.zero_add _)
  have hscanned := hlocked.reaches hreach
  have hfree := hscanned.call thread
  rw [hcall] at hfree
  have hnot' : scanned.leasedSlot slot = false := by
    rw [SlotState.leasedSlot, hleases]
    exact hnot
  obtain ⟨fd, kept, rfl, hfile, hle, hlow⟩ :=
    (hswept ⟨by simp, by simp⟩).kept hscanned hfree.2.2 hlimit hslot hnot'
  obtain ⟨s', hreach', hquiet'', hidle', hleases'⟩ := hscanned.finish_kept process hcall hlow
  exact ⟨s', fd, kept, .head hopen rfl (.head hlock rfl (hreach.trans hreach')), hquiet'', hidle',
    hleases'.trans (congrArg _ hleases), hfile, hle⟩

/-- Calls of one thread lead to a lease on any slot below the limit. -/
theorem SlotsHold.acquire_slot (h : SlotsHold limit reserve s) (hquiet : s.Quiet) {thread : ι}
    (hidle : s.calls thread = .idle) (hlimit : limit ≤ slotCount) (hslot : slot + reserve < limit) :
    ∃ s', s.Reaches process limit reserve s' ∧ s'.leasedSlot slot = true := by
  -- every lease leaves one slot less to be got before this one
  induction hroom : limit - reserve - s.leases.length generalizing s with
  | zero =>
    cases hleased : s.leasedSlot slot with
    | true => exact ⟨s, .refl s, hleased⟩
    | false =>
      obtain ⟨s', fd, kept, hreach, -, -, hleases, -⟩ :=
        @SlotsHold.acquire _ _ _ _ process _ _ _ _ h hquiet _ hidle hlimit hslot hleased
      have hle := (h.reaches hreach).length_leases_le
      rw [hleases, List.length_cons] at hle
      omega
  | succ room ih =>
    cases hleased : s.leasedSlot slot with
    | true => exact ⟨s, .refl s, hleased⟩
    | false =>
      obtain ⟨next, fd, kept, hreach, hquiet', hidle', hleases, -⟩ :=
        @SlotsHold.acquire _ _ _ _ process _ _ _ _ h hquiet _ hidle hlimit hslot hleased
      obtain ⟨s', hreach', hleased'⟩ := ih (h.reaches hreach) hquiet' hidle'
        (by rw [hleases, List.length_cons]; omega)
      exact ⟨s', hreach.trans hreach', hleased'⟩

/-- From every state of a run, steps of calls lead to a lease on any slot below the limit. -/
theorem SlotsHold.reacquire (process : ι → π) (h : SlotsHold limit reserve s) (thread : ι) (hlimit : limit ≤ slotCount)
    (hslot : slot + reserve < limit) :
    ∃ s', s.Reaches process limit reserve s' ∧ s'.leasedSlot slot = true := by
  obtain ⟨next, hreach, hquiet, hidle, -⟩ := h.settle process thread
  obtain ⟨s', hreach', hleased⟩ := @SlotsHold.acquire_slot _ _ _ _ process _ _ _ _
    (h.reaches hreach) hquiet thread hidle hlimit hslot
  exact ⟨s', hreach.trans hreach', hleased⟩

end Acquire

section Runs

/-- Request slots are never oversubscribed: in every run of any number of processes there are no more
leases than the limit less the reserve, no slot is held by two of them, and a slot whose lease ends by
a close or a crash can be leased again by steps of calls alone. -/
theorem slots_never_oversubscribed (process : ι → π) {limit reserve : Nat} (hlimit : limit ≤ slotCount)
    {actions : List (SlotAction ι π)} {s : SlotState ι}
    (hrun : (SlotState.init ι).run process limit reserve actions = some s) :
    s.leases.length ≤ limit - reserve ∧
      s.leases.Pairwise (fun lease other => lease.file ≠ other.file) ∧
      ∀ action next, s.step process limit reserve action = some next →
        ∀ lease ∈ s.leases, lease ∉ next.leases → ∃ s', next.Reaches process limit reserve s' ∧
          ∃ again ∈ s'.leases, again.file = lease.file := by
  have h := (slotsHold_init limit reserve).run hrun
  refine ⟨h.length_leases_le, List.pairwise_map.mp h.nodup_files,
    fun action next hstep lease hlease _ => ?_⟩
  obtain ⟨slot, hfile, hslot⟩ := h.low lease hlease
  obtain ⟨s', hreach, hleased⟩ := (h.step hstep).reacquire process lease.thread hlimit hslot
  obtain ⟨again, hagain, hfile'⟩ := SlotState.leasedSlot_iff.mp hleased
  exact ⟨s', hreach, again, hagain, hfile'.trans hfile.symm⟩

/-- The steps of a thread that acquires the first slot of a provider without a lease. -/
def acquireFirst (thread : ι) : List (SlotAction ι π) :=
  [.open thread true, .lock thread, .probe thread] ++
    (List.replicate 99 [.probe thread, .drop thread]).flatten ++
    [.decide thread, .grant thread, .unlock thread]

theorem slots_never_oversubscribed_first : ∃ s : SlotState Unit,
    (SlotState.init Unit).run (id : Unit → Unit) 2 1 (acquireFirst (π := Unit) ()) = some s ∧
      s.leases.length ≤ 2 - 1 ∧
      s.leases.Pairwise (fun lease other => lease.file ≠ other.file) ∧
      ∀ (action : SlotAction Unit Unit) (next : SlotState Unit),
        s.step (id : Unit → Unit) 2 1 action = some next →
        ∀ lease ∈ s.leases, lease ∉ next.leases → ∃ s', next.Reaches (id : Unit → Unit) 2 1 s' ∧
          ∃ again ∈ s'.leases, again.file = lease.file := by
  obtain ⟨s, hrun⟩ := Option.isSome_iff_exists.mp (show ((SlotState.init Unit).run
    (id : Unit → Unit) 2 1 (acquireFirst (π := Unit) ())).isSome = true by decide +kernel)
  exact ⟨s, hrun, slots_never_oversubscribed (id : Unit → Unit) (by decide) hrun⟩

end Runs

end OpenCollabEval
