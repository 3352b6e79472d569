import OpenCollabEval.Sampling.TaskSampling
import Mathlib.Algebra.Order.BigOperators.Group.List
import Mathlib.Algebra.BigOperators.Ring.Finset
import Mathlib.Algebra.BigOperators.Ring.List
import Mathlib.Algebra.GroupWithZero.Nat
import Mathlib.Tactic.Linarith
import Mathlib.Tactic.FieldSimp

/-!
# Seats by largest remainder

What the allocation of seats does over exact arithmetic: no name gets more than it has room for, and
all seats are awarded as long as there is room.
-/

open Python

namespace OpenCollabEval

section Lists

variable {α : Type}

/-- A sum over a list is a sum over the items that pass a test and over the others. -/
theorem sum_map_filter_add {M : Type} [AddCommMonoid M] (p : α → Bool) (f : α → M) (items : List α) :
    ((items.filter p).map f).sum + ((items.filter (!p ·)).map f).sum = (items.map f).sum := by
  induction items with
  | nil => simp
  | cons item rest ih =>
    cases hp : p item
    · simp only [List.filter_cons, hp, Bool.not_false, if_true, List.map_cons, List.sum_cons, ← ih]
      exact add_left_comm _ _ _
    · simp only [List.filter_cons, hp, Bool.not_true, if_true, List.map_cons, List.sum_cons, ← ih]
      exact add_assoc _ _ _

variable [DecidableEq α]

/-- Counting the items of another list gives its length. -/
theorem sum_map_count {items chosen : List α} (hitems : items.Nodup)
    (h : ∀ name ∈ chosen, name ∈ items) : (items.map fun name => chosen.count name).sum =
      chosen.length := by
  rw [← List.sum_toFinset _ hitems]
  simpa using Multiset.sum_count_eq_card (m := (chosen : Multiset α)) fun name hname =>
    List.mem_toFinset.mpr (h name hname)

end Lists

section Extras

variable {α : Type} {room : α → Bool}

theorem extraSeats_sublist (left : Nat) (order : List α) :
    (extraSeats room left order).Sublist order := by
  fun_induction extraSeats room left order with
  | case1 => exact List.nil_sublist _
  | case2 => exact List.nil_sublist _
  | case3 left name rest hroom ih => exact ih.cons_cons name
  | case4 left name rest hroom ih => exact ih.cons name

theorem room_of_mem_extraSeats {left : Nat} {order : List α} {name : α}
    (h : name ∈ extraSeats room left order) : room name = true := by
  fun_induction extraSeats room left order with
  | case1 => simp at h
  | case2 => simp at h
  | case3 left other rest hroom ih =>
    rcases List.mem_cons.mp h with rfl | h
    · exact hroom
    · exact ih h
  | case4 left other rest hroom ih => exact ih h

/-- The seats left go to names with room, one to each, as far as they reach. -/
theorem length_extraSeats (left : Nat) (order : List α) :
    (extraSeats room left order).length = min left (order.filter room).length := by
  fun_induction extraSeats room left order with
  | case1 => simp
  | case2 => simp
  | case3 left name rest hroom ih => simp [hroom, ih]
  | case4 left name rest hroom ih => simp [hroom, ih]

end Extras

section Round

variable {α : Type} {share : α → ℚ} {limit allocation : α → Nat} {remaining : Nat}
  {active : List α}

/-- What holds when a round of the allocation begins. -/
structure RoundReady (share : α → ℚ) (limit allocation : α → Nat) (active : List α) : Prop where
  distinct : active.Nodup
  positive : ∀ name ∈ active, 0 < share name
  room : ∀ name ∈ active, allocation name < limit name

theorem roundQuota_eq (name : α) : roundQuota exactArithmetic share remaining active name =
    remaining * share name / (active.map share).sum := rfl

theorem mem_seatOrder [LinearOrder α] {name : α} :
    name ∈ seatOrder exactArithmetic share remaining active ↔ name ∈ active :=
  (List.perm_insertionSort _ _).mem_iff

variable (h : RoundReady share limit allocation active)

include h

theorem RoundReady.mass_pos (hactive : active ≠ []) : 0 < (active.map share).sum := by
  apply List.sum_pos
  · intro value hvalue
    obtain ⟨name, hname, rfl⟩ := List.mem_map.mp hvalue
    exact h.positive name hname
  · simpa using hactive

theorem RoundReady.quota_nonneg (hactive : active ≠ []) {name : α} (hname : name ∈ active) :
    0 ≤ roundQuota exactArithmetic share remaining active name := by
  rw [roundQuota_eq]
  exact div_nonneg (mul_nonneg remaining.cast_nonneg (h.positive name hname).le)
    (h.mass_pos hactive).le

/-- The quotas of a round are all of its seats. -/
theorem RoundReady.sum_quota (hactive : active ≠ []) :
    (active.map (roundQuota exactArithmetic share remaining active)).sum = remaining := by
  have hmass := h.mass_pos hactive
  have hmap : active.map (roundQuota exactArithmetic share remaining active) =
      (active.map share).map (fun value => remaining / (active.map share).sum * value) := by
    rw [List.map_map]
    refine List.map_congr_left fun name _ => ?_
    rw [roundQuota_eq, Function.comp_apply]
    ring
  rw [hmap, List.sum_map_mul_left, List.map_id']
  field_simp

/-- The whole seats are no more than the seats of the round. -/
theorem RoundReady.sum_whole_le (hactive : active ≠ []) :
    (active.map (wholeSeats exactArithmetic share limit remaining active allocation)).sum ≤
      remaining := by
  have hfloor : ((active.map (wholeSeats exactArithmetic share limit remaining active
      allocation)).sum : ℚ) ≤ remaining := by
    rw [Nat.cast_list_sum, List.map_map]
    refine le_of_le_of_eq (List.sum_le_sum fun name hname => ?_) (h.sum_quota hactive)
    refine le_trans (Nat.cast_le.mpr (min_le_left _ _)) ?_
    exact Nat.floor_le (h.quota_nonneg hactive hname)
  exact_mod_cast hfloor

variable [LinearOrder α]

/-- The names that get a seat that is left over: each once, active, and with room for it. -/
theorem RoundReady.extras_spec :
    (roundExtras exactArithmetic share limit remaining active allocation).Nodup ∧
      ∀ name ∈ roundExtras exactArithmetic share limit remaining active allocation,
        name ∈ active ∧
          hasSpareSeat exactArithmetic share limit remaining active allocation name = true :=
  ⟨(extraSeats_sublist _ _).nodup ((List.perm_insertionSort _ _).nodup_iff.mpr h.distinct),
    fun _ hname => ⟨mem_seatOrder.mp ((extraSeats_sublist _ _).subset hname),
      room_of_mem_extraSeats hname⟩⟩

/-- A round awards no name more than it has room for. -/
theorem RoundReady.awarded_le {name : α} (hname : name ∈ active) :
    allocation name + awardedSeats exactArithmetic share limit remaining active allocation name ≤
      limit name := by
  have hroom := h.room name hname
  have hwhole : wholeSeats exactArithmetic share limit remaining active allocation name ≤
      limit name - allocation name := min_le_right _ _
  obtain ⟨hnodup, hextras⟩ := @RoundReady.extras_spec _ _ _ _ remaining _ h _
  rw [awardedSeats, if_pos (List.contains_iff_mem.mpr hname), hnodup.count]
  split
  next hextra =>
    have hspare := of_decide_eq_true (hextras name hextra).2
    omega
  next => omega

/-- A round awards its whole seats and those that are left over. -/
theorem RoundReady.sum_awarded :
    (active.map (awardedSeats exactArithmetic share limit remaining active allocation)).sum =
      (active.map (wholeSeats exactArithmetic share limit remaining active allocation)).sum +
        (roundExtras exactArithmetic share limit remaining active allocation).length := by
  have hmap : active.map (awardedSeats exactArithmetic share limit remaining active allocation) =
      active.map fun name => wholeSeats exactArithmetic share limit remaining active allocation name +
        (roundExtras exactArithmetic share limit remaining active allocation).count name := by
    refine List.map_congr_left fun name hname => ?_
    rw [awardedSeats, if_pos (List.contains_iff_mem.mpr hname)]
  rw [hmap, List.sum_map_add, sum_map_count h.distinct fun name hname =>
    ((h.extras_spec).2 name hname).1]

/-- A round awards at least one seat, and no more than there are. -/
theorem RoundReady.sum_awarded_bounds (hactive : active ≠ []) (hremaining : remaining ≠ 0) :
    (active.map (awardedSeats exactArithmetic share limit remaining active allocation)).sum ≠ 0 ∧
      (active.map (awardedSeats exactArithmetic share limit remaining active allocation)).sum ≤
        remaining := by
  have hwhole := @RoundReady.sum_whole_le _ _ _ _ remaining _ h hactive
  rw [h.sum_awarded, roundExtras, length_extraSeats]
  refine ⟨fun hzero => ?_, by omega⟩
  -- without a whole seat every name has room, and the first in order gets one
  have hnone : (active.map (wholeSeats exactArithmetic share limit remaining active
      allocation)).sum = 0 := by omega
  obtain ⟨name, hname⟩ := List.exists_mem_of_ne_nil _ hactive
  have hwholeZero : wholeSeats exactArithmetic share limit remaining active allocation name = 0 :=
    List.sum_eq_zero_iff.mp hnone _ (List.mem_map_of_mem hname)
  have hmem : name ∈ (seatOrder exactArithmetic share remaining active).filter
      (hasSpareSeat exactArithmetic share limit remaining active allocation) := by
    refine List.mem_filter.mpr ⟨mem_seatOrder.mpr hname, decide_eq_true ?_⟩
    have hroom := h.room name hname
    omega
  have hpos := List.length_pos_of_mem hmem
  omega

end Round

section Rounds

variable {α : Type} {share : α → ℚ} {limit allocation : α → Nat} {active : List α}

/-- The names that still have room begin the next round. -/
theorem RoundReady.next (h : RoundReady share limit allocation active) (allocation' : α → Nat) :
    RoundReady share limit allocation'
      (active.filter fun name => decide (allocation' name < limit name)) where
  distinct := h.distinct.filter _
  positive _ hname := h.positive _ (List.mem_filter.mp hname).1
  room _ hname := of_decide_eq_true (List.mem_filter.mp hname).2

variable [LinearOrder α]

/-- The rounds end when no seat or no name is left. -/
theorem allocationRounds_of_done {rounds remaining : Nat} (h : remaining = 0 ∨ active = []) :
    allocationRounds exactArithmetic share limit rounds remaining active allocation = allocation := by
  cases rounds with
  | zero => rfl
  | succ rounds =>
    rw [allocationRounds, if_pos]
    rcases h with rfl | rfl <;> simp

/-- A round leaves the seats that it did not award to the names that have room. -/
theorem RoundReady.allocationRounds_succ (h : RoundReady share limit allocation active)
    {rounds remaining : Nat} (hremaining : remaining ≠ 0) (hactive : active ≠ []) :
    allocationRounds exactArithmetic share limit (rounds + 1) remaining active allocation =
      allocationRounds exactArithmetic share limit rounds
        (remaining - (active.map (awardedSeats exactArithmetic share limit remaining active
          allocation)).sum)
        (active.filter fun name => decide (allocation name + awardedSeats exactArithmetic share limit
          remaining active allocation name < limit name))
        fun name => allocation name +
          awardedSeats exactArithmetic share limit remaining active allocation name := by
  have hmass : exactArithmetic.lt (exactArithmetic.ofNat 0)
      (exactArithmetic.fsum (active.map share)) = true :=
    decide_eq_true (by simpa [exactArithmetic] using h.mass_pos hactive)
  rw [allocationRounds, if_neg]
  simp [hremaining, hactive, hmass, (h.sum_awarded_bounds hactive hremaining).1]

/-- What the rounds do to the names: a name that is not active keeps its seats, no name gets one above
its limit, and together they get all the seats that they have room for. -/
theorem RoundReady.rounds_spec (h : RoundReady share limit allocation active)
    {rounds remaining : Nat} (hrounds : remaining ≤ rounds) :
    (∀ name ∉ active, allocationRounds exactArithmetic share limit rounds remaining active allocation
        name = allocation name) ∧
      (∀ name ∈ active, allocationRounds exactArithmetic share limit rounds remaining active
        allocation name ≤ limit name) ∧
      (active.map (allocationRounds exactArithmetic share limit rounds remaining active
        allocation)).sum = min ((active.map allocation).sum + remaining) (active.map limit).sum := by
  induction rounds generalizing remaining active allocation with
  | zero =>
    obtain rfl : remaining = 0 := by omega
    have hle : (active.map allocation).sum ≤ (active.map limit).sum :=
      List.sum_le_sum fun name hname => (h.room name hname).le
    rw [allocationRounds_of_done (.inl rfl)]
    exact ⟨fun _ _ => rfl, fun name hname => (h.room name hname).le, by omega⟩
  | succ rounds ih =>
    have hle : (active.map allocation).sum ≤ (active.map limit).sum :=
      List.sum_le_sum fun name hname => (h.room name hname).le
    by_cases hremaining : remaining = 0
    · rw [allocationRounds_of_done (.inl hremaining)]
      exact ⟨fun _ _ => rfl, fun name hname => (h.room name hname).le, by omega⟩
    by_cases hactive : active = []
    · rw [allocationRounds_of_done (.inr hactive)]
      exact ⟨fun _ _ => rfl, fun name hname => (h.room name hname).le, by simp [hactive]⟩
    obtain ⟨hsome, hmost⟩ := @RoundReady.sum_awarded_bounds _ _ _ _ remaining _ h _ hactive hremaining
    have hround := @RoundReady.awarded_le _ _ _ _ remaining _ h _
    rw [h.allocationRounds_succ hremaining hactive]
    generalize hawarded :
      awardedSeats exactArithmetic share limit remaining active allocation = awarded at *
    obtain ⟨hfull, hroom, hsum⟩ := ih (h.next fun name => allocation name + awarded name)
      (show remaining - (active.map awarded).sum ≤ rounds by omega)
    have hkept : ∀ name ∉ active.filter fun name => decide (allocation name + awarded name < limit name),
        name ∈ active → allocation name + awarded name = limit name := by
      intro name hname hmem
      have hlimit := hround hmem
      have hnot : ¬allocation name + awarded name < limit name := fun hlt =>
        hname (List.mem_filter.mpr ⟨hmem, decide_eq_true hlt⟩)
      omega
    refine ⟨fun name hname => ?_, fun name hname => ?_, ?_⟩
    · rw [hfull name fun hmem => hname (List.mem_filter.mp hmem).1, ← hawarded, awardedSeats,
        if_neg (by simpa using hname), add_zero]
    · by_cases hmem : name ∈ active.filter fun name => decide (allocation name + awarded name < limit name)
      · exact hroom name hmem
      · rw [hfull name hmem]
        exact hround hname
    -- the names that are full now count with their limits, the others by induction
    · rw [← sum_map_filter_add (fun name => decide (allocation name + awarded name < limit name)) _
        active, hsum, ← sum_map_filter_add (fun name =>
          decide (allocation name + awarded name < limit name)) limit active]
      have hothers : (active.filter fun name =>
            !decide (allocation name + awarded name < limit name)).map
            (allocationRounds exactArithmetic share limit rounds
              (remaining - (active.map awarded).sum)
              (active.filter fun name => decide (allocation name + awarded name < limit name))
              fun name => allocation name + awarded name) =
          (active.filter fun name => !decide (allocation name + awarded name < limit name)).map
            limit := by
        refine List.map_congr_left fun name hname => ?_
        obtain ⟨hmem, hnot⟩ := List.mem_filter.mp hname
        have hnotMem : name ∉ active.filter fun name =>
            decide (allocation name + awarded name < limit name) := fun h' => by
          simp [(List.mem_filter.mp h').2] at hnot
        rw [hfull name hnotMem]
        exact hkept name hnotMem hmem
      have htotal := sum_map_filter_add (fun name =>
        decide (allocation name + awarded name < limit name))
        (fun name => allocation name + awarded name) active
      have hlimits : (active.filter fun name =>
            !decide (allocation name + awarded name < limit name)).map
            (fun name => allocation name + awarded name) =
          (active.filter fun name => !decide (allocation name + awarded name < limit name)).map
            limit := by
        refine List.map_congr_left fun name hname => ?_
        obtain ⟨hmem, hnot⟩ := List.mem_filter.mp hname
        exact hkept name (fun h' => by simp [(List.mem_filter.mp h').2] at hnot) hmem
      rw [hlimits] at htotal
      have hsplit : (active.map fun name => allocation name + awarded name).sum =
          (active.map allocation).sum + (active.map awarded).sum := List.sum_map_add
      rw [hothers]
      omega

end Rounds

section Allocation

variable {α : Type}

/-- An allocation of seats to names that wastes none: no name gets more than there is for it, and
together they get all the seats or all that there is. -/
structure Allocates (names : List α) (total : Nat) (available allocation : α → Nat) : Prop where
  le : ∀ name, allocation name ≤ available name
  outside : ∀ name ∉ names, allocation name = 0
  sum : (names.map allocation).sum = min total (names.map available).sum

/-- Largest remainder wastes no seat as long as every name has a share. -/
theorem allocates [LinearOrder α] {shares : Shares α ℚ} (hnames : shares.names.Nodup)
    (hshare : ∀ name ∈ shares.names, 0 < shares.share name) (total : Nat) (available : α → Nat) :
    Allocates shares.names total available
      (allocateByLargestRemainder exactArithmetic shares total (some available)) := by
  have hactive : shares.names.filter (fun name => exactArithmetic.lt (exactArithmetic.ofNat 0)
      (shares.share name) && decide (0 < available name)) =
      shares.names.filter fun name => decide (0 < available name) := by
    refine List.filter_congr fun name hname => ?_
    rw [show exactArithmetic.lt (exactArithmetic.ofNat 0) (shares.share name) = true from
      decide_eq_true (by simpa [exactArithmetic] using hshare name hname), Bool.true_and]
  have hready : RoundReady shares.share available (fun _ => 0)
      (shares.names.filter fun name => decide (0 < available name)) :=
    ⟨hnames.filter _, fun name hname => hshare name (List.mem_filter.mp hname).1,
      fun name hname => of_decide_eq_true (List.mem_filter.mp hname).2⟩
  have hnone : ∀ name ∈ shares.names.filter (fun name => !decide (0 < available name)), available name = 0 :=
    fun name hname => by simpa using (List.mem_filter.mp hname).2
  obtain ⟨hkept, hroom, hsum⟩ := hready.rounds_spec le_rfl
  rw [allocateByLargestRemainder, Option.getD_some, hactive]
  refine ⟨fun name => ?_, fun name hname => ?_, ?_⟩
  · by_cases hmem : name ∈ shares.names.filter fun name => decide (0 < available name)
    · exact hroom name hmem
    · rw [hkept name hmem]
      exact Nat.zero_le _
  · exact hkept name fun hmem => hname (List.mem_filter.mp hmem).1
  · have hidle : ∀ f : α → Nat,
        (∀ name ∈ shares.names.filter (fun name => !decide (0 < available name)), f name = 0) →
        (shares.names.map f).sum =
          ((shares.names.filter fun name => decide (0 < available name)).map f).sum := by
      intro f hf
      rw [← sum_map_filter_add (fun name => decide (0 < available name)) f shares.names,
        List.map_congr_left hf]
      simp
    rw [hidle _ fun name hname => hkept name fun hmem => by
        have h0 := hnone name hname
        have hpos := of_decide_eq_true (List.mem_filter.mp hmem).2
        omega,
      hidle _ hnone, hsum]
    simp

end Allocation

end OpenCollabEval
