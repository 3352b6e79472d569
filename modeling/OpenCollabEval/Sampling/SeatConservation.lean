import OpenCollabEval.Sampling.SeatRounding

/-!
# Largest remainder conserves seats

What `allocate_by_largest_remainder` promises for shares of which some may be zero. The rounds end, no
name gets more than there is for it or anything without a share, and together the names with a share
get all the seats or all that there is for them. Without availabilities one round is enough, and each
name gets its quota rounded down or up.
-/

open Python

namespace OpenCollabEval

section Rounds

variable {α : Type} [LinearOrder α] {share : α → ℚ} {limit allocation : α → Nat} {remaining : Nat}
  {active : List α}

omit [LinearOrder α] in
/-- Items that count for nothing make no difference to a sum. -/
theorem sum_map_filter_of_zero {p : α → Bool} {f : α → Nat} {items : List α}
    (h : ∀ item ∈ items, p item = false → f item = 0) :
    ((items.filter p).map f).sum = (items.map f).sum := by
  have hothers : (items.filter (!p ·)).map f = (items.filter (!p ·)).map fun _ => 0 := by
    apply List.map_congr_left
    intro item hitem
    obtain ⟨hmem, hp⟩ := List.mem_filter.mp hitem
    exact h item hmem (by simpa using hp)
  rw [← sum_map_filter_add p f items, hothers]
  simp

/-- Every round awards a seat, so that more rounds than there are seats make no difference. -/
theorem RoundReady.rounds_eq (h : RoundReady share limit allocation active) {rounds rounds' : Nat}
    (hrounds : remaining ≤ rounds) (hrounds' : remaining ≤ rounds') :
    allocationRounds exactArithmetic share limit rounds remaining active allocation =
      allocationRounds exactArithmetic share limit rounds' remaining active allocation := by
  induction rounds generalizing rounds' remaining active allocation with
  | zero =>
    have hnone : remaining = 0 := Nat.le_zero.mp hrounds
    rw [allocationRounds_of_done (.inl hnone), allocationRounds_of_done (.inl hnone)]
  | succ rounds ih =>
    by_cases hdone : remaining = 0 ∨ active = []
    · rw [allocationRounds_of_done hdone, allocationRounds_of_done hdone]
    · obtain ⟨hremaining, hactive⟩ := not_or.mp hdone
      have hsome := (@RoundReady.sum_awarded_bounds _ _ _ _ remaining _ h _ hactive hremaining).1
      obtain ⟨rounds', rfl⟩ := Nat.exists_eq_succ_of_ne_zero
        (Nat.ne_zero_of_lt (lt_of_lt_of_le (Nat.pos_of_ne_zero hremaining) hrounds'))
      rw [h.allocationRounds_succ hremaining hactive, h.allocationRounds_succ hremaining hactive]
      exact ih (h.next _) (by omega) (by omega)

/-- Where no quota is above the room for it, a name gets at least its quota rounded down. -/
theorem RoundReady.floor_le_rounds (h : RoundReady share limit allocation active)
    (hroom : ∀ name ∈ active, roundQuota exactArithmetic share remaining active name ≤
      (limit name - allocation name : Nat)) {rounds : Nat} (hrounds : remaining ≤ rounds) {name : α}
    (hname : name ∈ active) :
    ⌊roundQuota exactArithmetic share remaining active name⌋₊ ≤
      allocationRounds exactArithmetic share limit rounds remaining active allocation name := by
  have hactive := List.ne_nil_of_mem hname
  by_cases hremaining : remaining = 0
  · rw [roundQuota_eq, hremaining]
    simp
  obtain ⟨rounds, rfl⟩ := Nat.exists_eq_succ_of_ne_zero
    (Nat.ne_zero_of_lt (lt_of_lt_of_le (Nat.pos_of_ne_zero hremaining) hrounds))
  rw [h.allocationRounds_succ hremaining hactive, allocationRounds_of_done]
  · rw [← wholeSeats_eq_floor (hroom name hname)]
    exact (h.awarded_bounds hname).1.trans (Nat.le_add_left _ _)
  · left
    rw [h.sum_awarded_eq hactive hroom, Nat.sub_self]

end Rounds

section Allocation

variable {α : Type} {shares : Shares α ℚ} {limit available : α → Nat} {total : Nat}

/-- The names that seats are allocated to: those with a share and room for a seat. -/
def sharers (shares : Shares α ℚ) (limit : α → Nat) : List α :=
  shares.names.filter fun name =>
    exactArithmetic.lt (exactArithmetic.ofNat 0) (shares.share name) && decide (0 < limit name)

theorem mem_sharers {name : α} :
    name ∈ sharers shares limit ↔
      name ∈ shares.names ∧ 0 < shares.share name ∧ 0 < limit name := by
  simp [sharers, exactArithmetic]

/-- The rounds begin with the names that have a share and room. -/
theorem roundReady_sharers (hnames : shares.names.Nodup) (limit : α → Nat) :
    RoundReady shares.share limit (fun _ => 0) (sharers shares limit) where
  distinct := hnames.filter _
  positive _ hname := (mem_sharers.mp hname).2.1
  room _ hname := (mem_sharers.mp hname).2.2

/-- An allocation of seats that conserves them: no name gets more than there is for it or anything
without a share, and together they get all the seats or all that there is for the names with a
share. -/
structure ConservesSeats (shares : Shares α ℚ) (total : Nat) (available allocation : α → Nat) :
    Prop where
  le : ∀ name, allocation name ≤ available name
  outside : ∀ name ∉ shares.names, allocation name = 0
  shareless : ∀ name, shares.share name = 0 → allocation name = 0
  sum : (shares.names.map allocation).sum =
    min total ((shares.names.filter fun name => decide (0 < shares.share name)).map available).sum

variable [LinearOrder α]

/-- Largest remainder conserves the seats. -/
theorem conservesSeats (hnames : shares.names.Nodup) (total : Nat) (available : α → Nat) :
    ConservesSeats shares total available
      (allocateByLargestRemainder exactArithmetic shares total (some available)) := by
  obtain ⟨hidle, hroom, hsum⟩ := (roundReady_sharers hnames available).rounds_spec (le_refl total)
  change ConservesSeats shares total available (allocationRounds exactArithmetic shares.share available
    total total (sharers shares available) fun _ => 0)
  refine ⟨fun name => ?_, fun name hname => ?_, fun name hname => ?_, ?_⟩
  · by_cases hmem : name ∈ sharers shares available
    · exact hroom name hmem
    · rw [hidle name hmem]
      exact Nat.zero_le _
  · exact hidle name fun hmem => hname (mem_sharers.mp hmem).1
  · exact hidle name fun hmem => (mem_sharers.mp hmem).2.1.ne' hname
  · -- neither the seats nor the room of the names that are left out count
    have hseats : ((sharers shares available).map (allocationRounds exactArithmetic shares.share
        available total total (sharers shares available) fun _ => 0)).sum =
        (shares.names.map (allocationRounds exactArithmetic shares.share available total total
          (sharers shares available) fun _ => 0)).sum := by
      refine sum_map_filter_of_zero fun name _ hname => hidle name fun hmem => ?_
      have hkept := (List.mem_filter.mp hmem).2
      rw [hname] at hkept
      exact Bool.false_ne_true hkept
    have hlimits : ((sharers shares available).map available).sum =
        ((shares.names.filter fun name => decide (0 < shares.share name)).map available).sum := by
      have hnested : sharers shares available =
          (shares.names.filter fun name => decide (0 < shares.share name)).filter
            fun name => decide (0 < available name) := by
        rw [List.filter_filter]
        apply List.filter_congr
        intro name _
        rw [Bool.and_comm]
        simp [exactArithmetic]
      rw [hnested]
      refine sum_map_filter_of_zero fun name _ hname => ?_
      exact Nat.eq_zero_of_not_pos (of_decide_eq_false hname)
    rw [← hseats, hsum, hlimits]
    simp

/-- The seats that a name would get if seats could be split. -/
def exactQuota (shares : Shares α ℚ) (total : Nat) (name : α) : ℚ :=
  total * shares.share name / (shares.names.map shares.share).sum

omit [LinearOrder α] in
/-- A name without a share or, when there is no seat, any name has no quota. -/
theorem exactQuota_of_not_sharer (hshare : ∀ name ∈ shares.names, 0 ≤ shares.share name) {name : α}
    (hname : name ∈ shares.names) (hnot : name ∉ sharers shares fun _ => total) :
    exactQuota shares total name = 0 := by
  have hzero : (total : ℚ) * shares.share name = 0 := by
    by_cases htotal : total = 0
    · simp [htotal]
    · have hle : ¬0 < shares.share name := fun hpos =>
        hnot (mem_sharers.mpr ⟨hname, hpos, Nat.pos_of_ne_zero htotal⟩)
      rw [le_antisymm (not_lt.mp hle) (hshare name hname), mul_zero]
  rw [exactQuota, hzero, zero_div]

omit [LinearOrder α] in
/-- The quota of a name that takes part in the only round is its exact quota. -/
theorem roundQuota_sharers (hshare : ∀ name ∈ shares.names, 0 ≤ shares.share name)
    (htotal : total ≠ 0) (name : α) :
    roundQuota exactArithmetic shares.share total (sharers shares fun _ => total) name =
      exactQuota shares total name := by
  have hmass : ((sharers shares fun _ => total).map shares.share).sum =
      (shares.names.map shares.share).sum := by
    rw [← sum_map_filter_add (fun name => exactArithmetic.lt (exactArithmetic.ofNat 0)
      (shares.share name) && decide (0 < total)) shares.share shares.names]
    have hothers : (shares.names.filter fun name => !(exactArithmetic.lt (exactArithmetic.ofNat 0)
        (shares.share name) && decide (0 < total))).map shares.share =
        (shares.names.filter fun name => !(exactArithmetic.lt (exactArithmetic.ofNat 0)
          (shares.share name) && decide (0 < total))).map fun _ => 0 := by
      apply List.map_congr_left
      intro other hother
      obtain ⟨hmem, hnone⟩ := List.mem_filter.mp hother
      have hle : ¬0 < shares.share other := by
        simpa [exactArithmetic, Nat.pos_of_ne_zero htotal] using hnone
      exact le_antisymm (not_lt.mp hle) (hshare other hmem)
    rw [hothers]
    simp [sharers]
  rw [roundQuota_eq, hmass, exactQuota]

/-- Without availabilities each name gets its exact quota rounded down or up. -/
theorem allocation_bounds (hnames : shares.names.Nodup)
    (hshare : ∀ name ∈ shares.names, 0 ≤ shares.share name) (total : Nat) {name : α}
    (hname : name ∈ shares.names) :
    ⌊exactQuota shares total name⌋₊ ≤
        allocateByLargestRemainder exactArithmetic shares total none name ∧
      allocateByLargestRemainder exactArithmetic shares total none name ≤
        ⌈exactQuota shares total name⌉₊ := by
  have hready := roundReady_sharers hnames fun _ => total
  change _ ≤ allocationRounds exactArithmetic shares.share (fun _ => total) total total
      (sharers shares fun _ => total) (fun _ => 0) name ∧
    allocationRounds exactArithmetic shares.share (fun _ => total) total total
      (sharers shares fun _ => total) (fun _ => 0) name ≤ _
  by_cases hmem : name ∈ sharers shares fun _ => total
  · have htotal : total ≠ 0 := (mem_sharers.mp hmem).2.2.ne'
    have hroom : ∀ other ∈ sharers shares fun _ => total,
        roundQuota exactArithmetic shares.share total (sharers shares fun _ => total) other ≤
          (total - 0 : Nat) := by
      intro other hother
      -- a share is no more than all of them
      have hmass := hready.mass_pos (List.ne_nil_of_mem hother)
      have hle : shares.share other ≤ ((sharers shares fun _ => total).map shares.share).sum :=
        List.single_le_sum (fun value hvalue => by
          obtain ⟨third, hthird, rfl⟩ := List.mem_map.mp hvalue
          exact (hready.positive third hthird).le) _ (List.mem_map_of_mem hother)
      rw [roundQuota_eq, Nat.sub_zero, div_le_iff₀ hmass]
      exact mul_le_mul_of_nonneg_left hle total.cast_nonneg
    have hlow := hready.floor_le_rounds hroom le_rfl hmem
    have hhigh := hready.rounds_le_ceil (List.ne_nil_of_mem hmem) hroom le_rfl hmem
    rw [roundQuota_sharers hshare htotal] at hlow hhigh
    exact ⟨hlow, by simpa using hhigh⟩
  · rw [(hready.rounds_spec le_rfl).1 name hmem, exactQuota_of_not_sharer hshare hname hmem]
    simp

/-- `allocate_by_largest_remainder` over exact arithmetic: the rounds end, the seats are conserved
whatever is available, where a missing name has nothing left, and without availabilities each name
gets its quota rounded down or up. -/
theorem allocateByLargestRemainder_conserves (hnames : shares.names.Nodup)
    (hshare : ∀ name ∈ shares.names, 0 ≤ shares.share name) (total : Nat) :
    (∀ available : α → Option Nat, ConservesSeats shares total (fun name => (available name).getD 0)
        (allocateByLargestRemainder exactArithmetic shares total
          (some fun name => (available name).getD 0))) ∧
      (∀ (available : Option (α → Nat)) (rounds : Nat), total ≤ rounds →
        allocationRounds exactArithmetic shares.share (available.getD fun _ => total) rounds total
            (sharers shares (available.getD fun _ => total)) (fun _ => 0) =
          allocateByLargestRemainder exactArithmetic shares total available) ∧
      ∀ name ∈ shares.names,
        ⌊exactQuota shares total name⌋₊ ≤
            allocateByLargestRemainder exactArithmetic shares total none name ∧
          allocateByLargestRemainder exactArithmetic shares total none name ≤
            ⌈exactQuota shares total name⌉₊ :=
  ⟨fun _ => conservesSeats hnames total _,
    fun _ _ hrounds => (roundReady_sharers hnames _).rounds_eq hrounds le_rfl,
    fun _ hname => allocation_bounds hnames hshare total hname⟩

/-- Shares of three names, one of which has none. -/
def twoOfThree : Shares Nat ℚ := ⟨[1, 2, 3], fun name => if name = 3 then 0 else 1 / 2⟩

/-- What is left for them: nothing for a name that is missing. -/
def availableOfThree (name : Nat) : Option Nat := if name = 2 then some 5 else none

/-- Four seats for three names, one of which has no share and one of which has nothing left. -/
theorem allocateByLargestRemainder_conserves_sample :
    ConservesSeats twoOfThree 4 (fun name => (availableOfThree name).getD 0)
        (allocateByLargestRemainder exactArithmetic twoOfThree 4
          (some fun name => (availableOfThree name).getD 0)) ∧
      ⌊exactQuota twoOfThree 4 1⌋₊ ≤
        allocateByLargestRemainder exactArithmetic twoOfThree 4 none 1 := by
  obtain ⟨hconserves, -, hbounds⟩ := @allocateByLargestRemainder_conserves _ twoOfThree _ (by decide)
    (fun name _ => by
      unfold twoOfThree
      dsimp only
      split <;> norm_num) 4
  exact ⟨hconserves availableOfThree, (hbounds 1 (by decide)).1⟩

end Allocation

end OpenCollabEval
