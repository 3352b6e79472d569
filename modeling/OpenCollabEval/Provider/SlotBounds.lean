import OpenCollabEval.Provider.Slots
import Mathlib.Data.List.Perm.Subperm

/-!
# Request slots are never oversubscribed

One invariant of every run: locks are exclusive, a lease holds the lock of a slot below the limit, and
a call holds what its place in the code says. The bound on the leases follows, as their slots are
distinct.
-/

namespace OpenCollabEval

variable {ι π : Type}

/-- What holds of the slot that a scan keeps: it is the first free one, so that all slots before it were
counted. -/
def FreeHolds (keepOne : Bool) (index active : Nat) : Option (Descriptor ι) → Prop
  | none => keepOne = true → active = index
  | some fd => ∃ slot, fd.file = .slot slot ∧ slot ≤ active ∧ slot < index

/-- What holds of a thread in its place of a call. -/
def CallHolds (limit reserve opened : Nat) (thread : ι) : SlotCall ι → Prop
  | .idle => True
  | .waiting _ lock => lock.file = .allocation ∧ lock.thread = thread ∧ lock.id < opened
  | .scanning keepOne lock index active free =>
    lock.file = .allocation ∧ index ≤ slotCount ∧ FreeHolds keepOne index active free
  | .probed keepOne lock index active free fd =>
    lock.file = .allocation ∧ index < slotCount ∧ fd.file = .slot index ∧
      FreeHolds keepOne index active free ∧ (keepOne = true → free.isSome = true)
  | .granting lock fd =>
    lock.file = .allocation ∧ ∃ slot, fd.file = .slot slot ∧ slot + reserve < limit
  | .leaving lock => lock.file = .allocation

theorem CallHolds.mono {limit reserve opened opened' : Nat} {thread : ι} {call : SlotCall ι}
    (h : CallHolds limit reserve opened thread call) (hle : opened ≤ opened') :
    CallHolds limit reserve opened' thread call := by
  cases call with
  | waiting keepOne lock => exact ⟨h.1, h.2.1, Nat.lt_of_lt_of_le h.2.2 hle⟩
  | _ => exact h

/-- The first lock of a call is the one of `allocation.lock`. -/
theorem CallHolds.exists_allocation {limit reserve opened : Nat} {thread : ι} {call : SlotCall ι}
    (h : CallHolds limit reserve opened thread call) (hlocks : call.locks ≠ []) :
    ∃ lock ∈ call.locks, lock.file = .allocation := by
  cases call with
  | idle => exact absurd rfl hlocks
  | waiting => exact absurd rfl hlocks
  | scanning keepOne lock => exact ⟨lock, List.mem_cons_self .., h.1⟩
  | probed keepOne lock => exact ⟨lock, List.mem_cons_self .., h.1⟩
  | granting lock => exact ⟨lock, List.mem_cons_self .., h.1⟩
  | leaving lock => exact ⟨lock, List.mem_cons_self .., h⟩

/-- The invariant of the slots of a provider. -/
structure SlotsHold (limit reserve : Nat) (s : SlotState ι) : Prop where
  exclusive : (s.held.map (·.file)).Nodup
  fresh : ∀ d ∈ s.held, d.id < s.opened
  leased : ∀ lease ∈ s.leases, lease ∈ s.held
  distinct : s.leases.Nodup
  low : ∀ lease ∈ s.leases, ∃ slot, lease.file = .slot slot ∧ slot + reserve < limit
  own : ∀ thread, ∀ d ∈ (s.calls thread).locks, d ∈ s.held ∧ d.thread = thread ∧ d ∉ s.leases
  call : ∀ thread, CallHolds limit reserve s.opened thread (s.calls thread)
  /-- A lock is held by a lease or by a call. -/
  accounted : ∀ d ∈ s.held, d ∈ s.leases ∨ d ∈ (s.calls d.thread).locks

variable {limit reserve : Nat} {s : SlotState ι}

theorem slotsHold_init (limit reserve : Nat) : SlotsHold limit reserve (SlotState.init ι) where
  exclusive := List.nodup_nil
  fresh := by simp [SlotState.init]
  leased := by simp [SlotState.init]
  distinct := List.nodup_nil
  low := by simp [SlotState.init]
  own := by simp [SlotState.init, SlotCall.locks]
  call _ := trivial
  accounted := by simp [SlotState.init]

/-- Two descriptors that hold the lock of one file are one. -/
theorem SlotsHold.eq_of_file (h : SlotsHold limit reserve s) {d e : Descriptor ι} (hd : d ∈ s.held)
    (he : e ∈ s.held) (hfile : d.file = e.file) : d = e :=
  List.inj_on_of_nodup_map h.exclusive hd he hfile

/-- No slot file is held by two leases. -/
theorem SlotsHold.nodup_files (h : SlotsHold limit reserve s) : (s.leases.map (·.file)).Nodup :=
  h.distinct.map_on fun _ hd _ he hfile => h.eq_of_file (h.leased _ hd) (h.leased _ he) hfile

/-- The leases are no more than the limit less the reserve. -/
theorem SlotsHold.length_leases_le (h : SlotsHold limit reserve s) :
    s.leases.length ≤ limit - reserve := by
  have hsub : s.leases.map (·.file) ⊆ (List.range (limit - reserve)).map LockFile.slot := by
    intro file hmem
    obtain ⟨lease, hlease, rfl⟩ := List.mem_map.mp hmem
    obtain ⟨slot, hfile, hslot⟩ := h.low lease hlease
    exact List.mem_map.mpr ⟨slot, List.mem_range.mpr (by omega), hfile.symm⟩
  simpa using (List.subperm_of_subset h.nodup_files hsub).length_le

/-- At most one thread holds locks besides those of its leases. -/
theorem SlotsHold.thread_unique (h : SlotsHold limit reserve s) {thread other : ι}
    (hthread : (s.calls thread).locks ≠ []) (hother : (s.calls other).locks ≠ []) :
    thread = other := by
  obtain ⟨lock, hmem, hfile⟩ := (h.call thread).exists_allocation hthread
  obtain ⟨lock', hmem', hfile'⟩ := (h.call other).exists_allocation hother
  have heq := h.eq_of_file (h.own _ _ hmem).1 (h.own _ _ hmem').1 (hfile.trans hfile'.symm)
  rw [← (h.own _ _ hmem).2.1, ← (h.own _ _ hmem').2.1, heq]

section Moves

variable [DecidableEq ι] {thread : ι} {call : SlotCall ι}

omit [DecidableEq ι] in
theorem SlotState.isFree_iff {file : LockFile} :
    s.isFree file = true ↔ ∀ d ∈ s.held, d.file ≠ file := by
  simp [SlotState.isFree]

@[simp]
theorem SlotState.calls_enter_self : (s.enter thread call).calls thread = call :=
  Function.update_self ..

theorem SlotState.calls_enter_of_ne {other : ι} (hne : other ≠ thread) :
    (s.enter thread call).calls other = s.calls other :=
  Function.update_of_ne hne ..

/-- A call goes on with the locks it has. -/
theorem SlotsHold.enter (h : SlotsHold limit reserve s)
    (hlocks : ∀ d, d ∈ call.locks ↔ d ∈ (s.calls thread).locks)
    (hcall : CallHolds limit reserve s.opened thread call) :
    SlotsHold limit reserve (s.enter thread call) where
  exclusive := h.exclusive
  fresh := h.fresh
  leased := h.leased
  distinct := h.distinct
  low := h.low
  own other d hd := by
    by_cases heq : other = thread
    · subst heq
      rw [SlotState.calls_enter_self] at hd
      exact h.own _ _ ((hlocks d).mp hd)
    · rw [SlotState.calls_enter_of_ne heq] at hd
      exact h.own _ _ hd
  call other := by
    by_cases heq : other = thread
    · subst heq
      rw [SlotState.calls_enter_self]
      exact hcall
    · rw [SlotState.calls_enter_of_ne heq]
      exact h.call other
  accounted d hd := by
    refine (h.accounted d hd).imp_right fun hmem => ?_
    by_cases heq : d.thread = thread
    · rw [heq, SlotState.calls_enter_self]
      exact (hlocks d).mpr (heq ▸ hmem)
    · rwa [SlotState.calls_enter_of_ne heq]

omit [DecidableEq ι] in
/-- A file is opened and its lock is not taken. -/
theorem SlotsHold.tryFile (h : SlotsHold limit reserve s) : SlotsHold limit reserve s.tryFile where
  exclusive := h.exclusive
  fresh d hd := Nat.lt_succ_of_lt (h.fresh d hd)
  leased := h.leased
  distinct := h.distinct
  low := h.low
  own := h.own
  call other := (h.call other).mono (Nat.le_succ _)
  accounted := h.accounted

/-- A call takes a lock that is free. -/
theorem SlotsHold.hold (h : SlotsHold limit reserve s) {fd : Descriptor ι}
    (hfree : s.isFree fd.file = true) (hthread : fd.thread = thread) (hid : fd.id < s.opened)
    (hlocks : ∀ d, d ∈ call.locks ↔ d = fd ∨ d ∈ (s.calls thread).locks)
    (hcall : CallHolds limit reserve s.opened thread call) :
    SlotsHold limit reserve ({ s with held := fd :: s.held }.enter thread call) where
  exclusive := by
    refine List.nodup_cons.mpr ⟨fun hmem => ?_, h.exclusive⟩
    obtain ⟨d, hd, hfile⟩ := List.mem_map.mp hmem
    exact SlotState.isFree_iff.mp hfree d hd hfile
  fresh d hd := by
    rcases List.mem_cons.mp hd with rfl | hd
    · exact hid
    · exact h.fresh d hd
  leased lease hlease := List.mem_cons_of_mem _ (h.leased lease hlease)
  distinct := h.distinct
  low := h.low
  own other d hd := by
    by_cases heq : other = thread
    · subst heq
      rw [SlotState.calls_enter_self] at hd
      rcases (hlocks d).mp hd with rfl | hmem
      · exact ⟨List.mem_cons_self .., hthread, fun hlease =>
          SlotState.isFree_iff.mp hfree d (h.leased d hlease) rfl⟩
      · obtain ⟨hheld, hown, hnot⟩ := h.own _ _ hmem
        exact ⟨List.mem_cons_of_mem _ hheld, hown, hnot⟩
    · rw [SlotState.calls_enter_of_ne heq] at hd
      obtain ⟨hheld, hown, hnot⟩ := h.own _ _ hd
      exact ⟨List.mem_cons_of_mem _ hheld, hown, hnot⟩
  call other := by
    by_cases heq : other = thread
    · subst heq
      rw [SlotState.calls_enter_self]
      exact hcall
    · rw [SlotState.calls_enter_of_ne heq]
      exact h.call other
  accounted d hd := by
    rcases List.mem_cons.mp hd with rfl | hd
    · right
      rw [hthread, SlotState.calls_enter_self]
      exact (hlocks d).mpr (.inl rfl)
    · refine (h.accounted d hd).imp_right fun hmem => ?_
      by_cases heq : d.thread = thread
      · rw [heq, SlotState.calls_enter_self]
        exact (hlocks d).mpr (.inr (heq ▸ hmem))
      · rwa [SlotState.calls_enter_of_ne heq]

/-- A call opens a file and takes its lock. -/
theorem SlotsHold.take (h : SlotsHold limit reserve s) {file : LockFile} (hfree : s.isFree file = true)
    (hlocks : ∀ d, d ∈ call.locks ↔ d = s.nextFile thread file ∨ d ∈ (s.calls thread).locks)
    (hcall : CallHolds limit reserve (s.opened + 1) thread call) :
    SlotsHold limit reserve ((s.take (s.nextFile thread file)).enter thread call) :=
  @SlotsHold.hold _ _ _ _ _ thread call h.tryFile (s.nextFile thread file) hfree rfl
    (Nat.lt_succ_self _) hlocks hcall

/-- A call closes files whose locks it holds. -/
theorem SlotsHold.closeAll (h : SlotsHold limit reserve s) {files : List (Descriptor ι)}
    (hfiles : ∀ d ∈ files, d ∈ (s.calls thread).locks)
    (hlocks : ∀ d, d ∈ call.locks ↔ d ∈ (s.calls thread).locks ∧ d ∉ files)
    (hcall : CallHolds limit reserve s.opened thread call) :
    SlotsHold limit reserve ((s.closeAll files).enter thread call) := by
  have hkept : ∀ d ∈ s.held, d ∉ files → d ∈ (s.closeAll files).held := fun d hd hnot =>
    List.mem_filter.mpr ⟨hd, decide_eq_true hnot⟩
  refine ⟨(List.filter_sublist.map _).nodup h.exclusive,
    fun d hd => h.fresh d (List.mem_filter.mp hd).1,
    fun lease hlease => hkept lease (h.leased lease hlease) fun hmem =>
      (h.own _ _ (hfiles lease hmem)).2.2 hlease, h.distinct, h.low, fun other d hd => ?_,
    fun other => ?_, fun d hd => ?_⟩
  · by_cases heq : other = thread
    · subst heq
      rw [SlotState.calls_enter_self] at hd
      obtain ⟨hmem, hnot⟩ := (hlocks d).mp hd
      obtain ⟨hheld, hown, hlease⟩ := h.own _ _ hmem
      exact ⟨hkept d hheld hnot, hown, hlease⟩
    · rw [SlotState.calls_enter_of_ne heq] at hd
      obtain ⟨hheld, hown, hlease⟩ := h.own _ _ hd
      refine ⟨hkept d hheld fun hmem => heq ?_, hown, hlease⟩
      rw [← hown, (h.own _ _ (hfiles d hmem)).2.1]
  · by_cases heq : other = thread
    · subst heq
      rw [SlotState.calls_enter_self]
      exact hcall
    · rw [SlotState.calls_enter_of_ne heq]
      exact h.call other
  · obtain ⟨hheld, hnot⟩ := List.mem_filter.mp hd
    refine (h.accounted d hheld).imp_right fun hmem => ?_
    by_cases heq : d.thread = thread
    · rw [heq, SlotState.calls_enter_self]
      exact (hlocks d).mpr ⟨heq ▸ hmem, of_decide_eq_true hnot⟩
    · rwa [SlotState.calls_enter_of_ne heq]

end Moves

section Steps

variable [DecidableEq ι] [DecidableEq π] {process : ι → π}

/-- A lease is closed. -/
theorem SlotsHold.closeLease (h : SlotsHold limit reserve s) {lease : Descriptor ι}
    (hlease : lease ∈ s.leases) : SlotsHold limit reserve
      { s.closeAll [lease] with leases := s.leases.filter (· ≠ lease) } where
  exclusive := (List.filter_sublist.map _).nodup h.exclusive
  fresh d hd := h.fresh d (List.mem_filter.mp hd).1
  leased d hd := by
    obtain ⟨hd, hne⟩ := List.mem_filter.mp hd
    exact List.mem_filter.mpr ⟨h.leased d hd, by simpa using hne⟩
  distinct := h.distinct.filter _
  low d hd := h.low d (List.mem_filter.mp hd).1
  own thread d hd := by
    obtain ⟨hheld, hown, hnot⟩ := h.own thread d hd
    refine ⟨List.mem_filter.mpr ⟨hheld, ?_⟩, hown, fun hmem => hnot (List.mem_filter.mp hmem).1⟩
    have hne : d ≠ lease := fun heq => hnot (heq ▸ hlease)
    simpa using hne
  call := h.call
  accounted d hd := by
    obtain ⟨hheld, hnot⟩ := List.mem_filter.mp hd
    exact (h.accounted d hheld).imp_left fun hmem =>
      List.mem_filter.mpr ⟨hmem, by simpa using hnot⟩

omit [DecidableEq ι] in
/-- A process crashes. -/
theorem SlotsHold.crash (h : SlotsHold limit reserve s) (p : π) : SlotsHold limit reserve
    { s with
      held := s.held.filter fun d => process d.thread ≠ p
      leases := s.leases.filter fun d => process d.thread ≠ p
      calls := fun thread => if process thread = p then .idle else s.calls thread } where
  exclusive := (List.filter_sublist.map _).nodup h.exclusive
  fresh d hd := h.fresh d (List.mem_filter.mp hd).1
  leased d hd := by
    obtain ⟨hd, hp⟩ := List.mem_filter.mp hd
    exact List.mem_filter.mpr ⟨h.leased d hd, hp⟩
  distinct := h.distinct.filter _
  low d hd := h.low d (List.mem_filter.mp hd).1
  own thread d hd := by
    by_cases hp : process thread = p
    · simp [hp, SlotCall.locks] at hd
    · simp only [if_neg hp] at hd
      obtain ⟨hheld, hown, hnot⟩ := h.own thread d hd
      refine ⟨List.mem_filter.mpr ⟨hheld, ?_⟩, hown, fun hmem => hnot (List.mem_filter.mp hmem).1⟩
      rw [hown]
      exact decide_eq_true hp
  call thread := by
    by_cases hp : process thread = p
    · simp only [if_pos hp]
      trivial
    · simp only [if_neg hp]
      exact h.call thread
  accounted d hd := by
    obtain ⟨hheld, hp⟩ := List.mem_filter.mp hd
    refine (h.accounted d hheld).imp (fun hmem => List.mem_filter.mpr ⟨hmem, hp⟩) fun hmem => ?_
    simpa only [if_neg (of_decide_eq_true hp)] using hmem

/-- A slot is granted: its lock becomes the lock of a lease. -/
theorem SlotsHold.grant (h : SlotsHold limit reserve s) {thread : ι} {lock fd : Descriptor ι}
    (hcall : s.calls thread = .granting lock fd) : SlotsHold limit reserve
      ({ s with leases := fd :: s.leases }.enter thread (.leaving lock)) := by
  have hlocks : (s.calls thread).locks = [lock, fd] := by rw [hcall]; rfl
  have hfd := h.own thread fd (by simp [hlocks])
  have hheld := h.call thread
  rw [hcall] at hheld
  obtain ⟨hfile, slot, hslot, hlow⟩ := hheld
  refine ⟨h.exclusive, h.fresh, fun d hd => ?_, List.nodup_cons.mpr ⟨hfd.2.2, h.distinct⟩,
    fun d hd => ?_, fun other d hd => ?_, fun other => ?_, fun d hd => ?_⟩
  · rcases List.mem_cons.mp hd with rfl | hd
    · exact hfd.1
    · exact h.leased d hd
  · rcases List.mem_cons.mp hd with rfl | hd
    · exact ⟨slot, hslot, hlow⟩
    · exact h.low d hd
  · by_cases heq : other = thread
    · subst heq
      rw [SlotState.calls_enter_self] at hd
      obtain rfl : d = lock := by simpa [SlotCall.locks] using hd
      obtain ⟨hlock, hown, hnot⟩ := h.own other d (by simp [hlocks])
      refine ⟨hlock, hown, fun hmem => ?_⟩
      rcases List.mem_cons.mp hmem with rfl | hmem
      · rw [hfile] at hslot
        exact absurd hslot (by simp)
      · exact hnot hmem
    · rw [SlotState.calls_enter_of_ne heq] at hd
      obtain ⟨hlock, hown, hnot⟩ := h.own other d hd
      refine ⟨hlock, hown, fun hmem => ?_⟩
      rcases List.mem_cons.mp hmem with rfl | hmem
      · exact heq (hown.symm.trans hfd.2.1)
      · exact hnot hmem
  · by_cases heq : other = thread
    · subst heq
      rw [SlotState.calls_enter_self]
      exact hfile
    · rw [SlotState.calls_enter_of_ne heq]
      exact h.call other
  · rcases h.accounted d hd with hmem | hmem
    · exact .inl (List.mem_cons_of_mem _ hmem)
    · by_cases heq : d.thread = thread
      · rw [heq, hlocks] at hmem
        rcases List.mem_cons.mp hmem with rfl | hmem
        · right
          rw [heq, SlotState.calls_enter_self]
          exact List.mem_cons_self ..
        · obtain rfl := List.mem_singleton.mp hmem
          exact .inl (List.mem_cons_self ..)
      · right
        rwa [SlotState.calls_enter_of_ne heq]

omit [DecidableEq ι] in
/-- The slot that a scan keeps is still below the next one. -/
theorem FreeHolds.next {keepOne : Bool} {index active : Nat} {free : Option (Descriptor ι)}
    (h : FreeHolds keepOne index active free) (hkept : keepOne = true → free.isSome = true) :
    FreeHolds keepOne (index + 1) active free := by
  cases free with
  | none => exact fun hkeep => absurd (hkept hkeep) (by simp)
  | some fd =>
    obtain ⟨slot, hfile, hle, hlt⟩ := h
    exact ⟨slot, hfile, hle, by omega⟩

omit [DecidableEq ι] in
/-- A slot that is busy is counted. -/
theorem FreeHolds.count {keepOne : Bool} {index active : Nat} {free : Option (Descriptor ι)}
    (h : FreeHolds keepOne index active free) : FreeHolds keepOne (index + 1) (active + 1) free := by
  cases free with
  | none => exact fun hkeep => congrArg (· + 1) (h hkeep)
  | some fd =>
    obtain ⟨slot, hfile, hle, hlt⟩ := h
    exact ⟨slot, hfile, by omega, by omega⟩

/-- A scan tries a slot. -/
theorem SlotsHold.probe (h : SlotsHold limit reserve s) {thread : ι} {s' : SlotState ι}
    (hstep : s.step process limit reserve (.probe thread) = some s') :
    SlotsHold limit reserve s' := by
  have hcall := h.call thread
  simp only [SlotState.step] at hstep
  split at hstep
  next keepOne lock index active free hscan =>
    rw [hscan] at hcall
    obtain ⟨hfile, -, hfree⟩ := hcall
    split_ifs at hstep with hend hbusy hkeep
    · obtain rfl := Option.some.inj hstep
      refine h.tryFile.enter (fun d => ?_) ⟨hfile, Nat.not_le.mp hend, hfree.count⟩
      simp [SlotState.tryFile, hscan, SlotCall.locks]
    · obtain rfl := Option.some.inj hstep
      obtain ⟨rfl, rfl⟩ : keepOne = true ∧ free = none := by simpa using hkeep
      -- all slots before the first free one were busy
      refine h.take (by simpa using hbusy) (fun d => ?_)
        ⟨hfile, Nat.not_le.mp hend, index, rfl, Nat.le_of_eq (hfree rfl).symm, Nat.lt_succ_self _⟩
      simp [hscan, SlotCall.locks, or_comm]
    · obtain rfl := Option.some.inj hstep
      refine h.take (by simpa using hbusy) (fun d => ?_)
        ⟨hfile, Nat.not_le.mp hend, rfl, hfree, fun hkept => ?_⟩
      · simp [hscan, SlotCall.locks]
        tauto
      · simpa [hkept, Option.isSome_iff_ne_none] using hkeep
  next => exact absurd hstep (by simp)

omit [DecidableEq ι] in
/-- A slot that is kept is not the lock of the allocation, nor a slot that is tried later. -/
theorem FreeHolds.file_ne {keepOne : Bool} {index active : Nat} {free : Option (Descriptor ι)}
    (h : FreeHolds keepOne index active free) {fd : Descriptor ι} (hfd : fd ∈ free.toList) :
    fd.file ≠ .allocation ∧ fd.file ≠ .slot index := by
  obtain rfl : free = some fd := by simpa using hfd
  obtain ⟨slot, hfile, -, hlt⟩ := h
  rw [hfile]
  exact ⟨by simp, by simpa using Nat.ne_of_lt hlt⟩

/-- A call closes its slots before it leaves. -/
theorem SlotsHold.leave (h : SlotsHold limit reserve s) {thread : ι} {lock : Descriptor ι}
    {files : List (Descriptor ι)} (hlocks : (s.calls thread).locks = lock :: files)
    (hfile : lock.file = .allocation) (hslots : ∀ d ∈ files, d.file ≠ .allocation) :
    SlotsHold limit reserve ((s.closeAll files).enter thread (.leaving lock)) := by
  refine h.closeAll (fun d hd => by simp [hlocks, hd]) (fun d => ?_) hfile
  rw [hlocks, SlotCall.locks, List.mem_singleton, List.mem_cons]
  constructor
  · rintro rfl
    exact ⟨.inl rfl, fun hmem => hslots d hmem hfile⟩
  · rintro ⟨rfl | hmem, hnot⟩
    · rfl
    · exact absurd hmem hnot

/-- A file whose lock was free is closed again. -/
theorem SlotsHold.drop (h : SlotsHold limit reserve s) {thread : ι} {s' : SlotState ι}
    (hstep : s.step process limit reserve (.drop thread) = some s') :
    SlotsHold limit reserve s' := by
  have hcall := h.call thread
  simp only [SlotState.step] at hstep
  split at hstep
  next keepOne lock index active free fd hprobed =>
    rw [hprobed] at hcall
    obtain ⟨hfile, hindex, hslot, hfree, hkept⟩ := hcall
    obtain rfl := Option.some.inj hstep
    have hlock : lock ≠ fd := fun heq => by simp [← heq, hfile] at hslot
    have hnot : fd ∉ free.toList := fun hmem => (hfree.file_ne hmem).2 hslot
    refine h.closeAll (by simp [hprobed, SlotCall.locks]) (fun d => ?_) ⟨hfile, hindex, hfree.next hkept⟩
    rw [hprobed, SlotCall.locks, SlotCall.locks, List.mem_cons, List.mem_cons, List.mem_cons,
      List.mem_singleton]
    constructor
    · rintro (rfl | hmem)
      · exact ⟨.inl rfl, hlock⟩
      · exact ⟨.inr (.inr hmem), fun heq => hnot (heq ▸ hmem)⟩
    · rintro ⟨rfl | heq | hmem, hne⟩
      · exact .inl rfl
      · exact absurd heq hne
      · exact .inr hmem
  next => exact absurd hstep (by simp)

/-- A scan ends with a grant or without. -/
theorem SlotsHold.decide (h : SlotsHold limit reserve s) {thread : ι} {s' : SlotState ι}
    (hstep : s.step process limit reserve (.decide thread) = some s') :
    SlotsHold limit reserve s' := by
  have hcall := h.call thread
  simp only [SlotState.step] at hstep
  split at hstep
  next keepOne lock index active free hscan =>
    rw [hscan] at hcall
    obtain ⟨hfile, -, hfree⟩ := hcall
    split at hstep
    next => exact absurd hstep (by simp)
    next =>
    have hlocks : (s.calls thread).locks = lock :: free.toList := by rw [hscan]; rfl
    cases free with
    | some fd =>
      simp only at hstep
      split at hstep
      next hlow =>
        obtain rfl := Option.some.inj hstep
        -- the slot is not above the number of those that were busy
        obtain ⟨slot, hslot, hle, -⟩ := hfree
        refine h.enter (fun d => ?_) ⟨hfile, slot, hslot, by omega⟩
        rw [hlocks]
        rfl
      next =>
        obtain rfl := Option.some.inj hstep
        exact h.leave hlocks hfile fun d hd => (hfree.file_ne hd).1
    | none =>
      obtain rfl := Option.some.inj hstep
      refine h.enter (fun d => ?_) hfile
      rw [hlocks]
      rfl
  next => exact absurd hstep (by simp)

/-- An exception closes what a call has opened. -/
theorem SlotsHold.fail (h : SlotsHold limit reserve s) {thread : ι} {s' : SlotState ι}
    (hstep : s.step process limit reserve (.fail thread) = some s') :
    SlotsHold limit reserve s' := by
  have hcall := h.call thread
  simp only [SlotState.step] at hstep
  split at hstep
  next keepOne lock index active free hscan =>
    rw [hscan] at hcall
    obtain rfl := Option.some.inj hstep
    exact h.leave (by rw [hscan]; rfl) hcall.1 fun d hd => (hcall.2.2.file_ne hd).1
  next keepOne lock index active free fd hprobed =>
    rw [hprobed] at hcall
    obtain rfl := Option.some.inj hstep
    refine h.leave (by rw [hprobed]; rfl) hcall.1 fun d hd => ?_
    rcases List.mem_cons.mp hd with rfl | hd
    · rw [hcall.2.2.1]
      simp
    · exact (hcall.2.2.2.1.file_ne hd).1
  next lock fd hgrant =>
    rw [hgrant] at hcall
    obtain rfl := Option.some.inj hstep
    refine h.leave (by rw [hgrant]; rfl) hcall.1 fun d hd => ?_
    obtain rfl := List.mem_singleton.mp hd
    obtain ⟨slot, hslot, -⟩ := hcall.2
    rw [hslot]
    simp
  next keepOne lock hwait =>
    obtain rfl := Option.some.inj hstep
    exact h.enter (fun d => by rw [hwait]; rfl) trivial
  next => exact absurd hstep (by simp)

/-- Every step keeps the invariant. -/
theorem SlotsHold.step (h : SlotsHold limit reserve s) {action : SlotAction ι π} {s' : SlotState ι}
    (hstep : s.step process limit reserve action = some s') : SlotsHold limit reserve s' := by
  cases action with
  | «open» thread keepOne =>
    have hcall := h.call thread
    simp only [SlotState.step] at hstep
    split at hstep
    next hidle =>
      obtain rfl := Option.some.inj hstep
      refine h.tryFile.enter (fun d => ?_) ⟨rfl, rfl, Nat.lt_succ_self _⟩
      simp [SlotState.tryFile, hidle, SlotCall.locks]
    next => exact absurd hstep (by simp)
  | lock thread =>
    have hcall := h.call thread
    simp only [SlotState.step] at hstep
    split at hstep
    next keepOne lock hwait =>
      rw [hwait] at hcall
      obtain ⟨hfile, hthread, hid⟩ := hcall
      split at hstep
      next hfree =>
        obtain rfl := Option.some.inj hstep
        refine h.hold (hfile ▸ hfree) hthread hid (fun d => ?_) ⟨hfile, Nat.zero_le _, fun _ => rfl⟩
        simp [hwait, SlotCall.locks]
      next => exact absurd hstep (by simp)
    next => exact absurd hstep (by simp)
  | probe thread => exact h.probe hstep
  | drop thread => exact h.drop hstep
  | decide thread => exact h.decide hstep
  | grant thread =>
    simp only [SlotState.step] at hstep
    split at hstep
    next lock fd hgrant =>
      obtain rfl := Option.some.inj hstep
      exact h.grant hgrant
    next => exact absurd hstep (by simp)
  | unlock thread =>
    simp only [SlotState.step] at hstep
    split at hstep
    next lock hleave =>
      obtain rfl := Option.some.inj hstep
      refine h.closeAll (by simp [hleave, SlotCall.locks]) (fun d => ?_) trivial
      simp [hleave, SlotCall.locks]
    next => exact absurd hstep (by simp)
  | fail thread => exact h.fail hstep
  | close lease =>
    simp only [SlotState.step] at hstep
    split at hstep
    next hlease =>
      obtain rfl := Option.some.inj hstep
      exact h.closeLease hlease
    next => exact absurd hstep (by simp)
  | crash p =>
    obtain rfl := Option.some.inj hstep
    exact h.crash p

/-- Every run keeps the invariant. -/
theorem SlotsHold.run (h : SlotsHold limit reserve s) {actions : List (SlotAction ι π)}
    {s' : SlotState ι} (hrun : s.run process limit reserve actions = some s') :
    SlotsHold limit reserve s' := by
  induction actions generalizing s with
  | nil =>
    obtain rfl := Option.some.inj hrun
    exact h
  | cons action rest ih =>
    obtain ⟨next, hstep, hrest⟩ := Option.bind_eq_some_iff.mp hrun
    exact ih (h.step hstep) hrest

end Steps

end OpenCollabEval
