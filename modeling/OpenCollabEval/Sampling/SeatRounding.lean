import OpenCollabEval.Sampling.Apportionment

/-!
# How far a seat count is from its quota

Two bounds on what largest remainder awards over exact arithmetic. Names with one share end with
counts that differ by at most one unless the smaller one is full, however often the seats go round.
Where no quota is above what a name has room for, one round is enough and no name gets more than its
quota rounded up.
-/

open Python

namespace OpenCollabEval

section Decreasing

variable {α : Type} {part : α → ℚ} {order : List α}

/-- Parts that are at most one are no more together than there are of them. -/
theorem sum_part_le_length (h : ∀ name ∈ order, part name ≤ 1) :
    (order.map part).sum ≤ order.length := by
  have hsum := List.sum_le_card_nsmul (order.map part) 1 fun value hvalue => by
    obtain ⟨name, hname, rfl⟩ := List.mem_map.mp hvalue
    exact h name hname
  simpa using hsum

/-- Of parts in decreasing order, none of the first is zero that their sum is enough for. -/
theorem part_pos_of_mem_take (hsorted : order.Pairwise fun a b => part b ≤ part a)
    (hle : ∀ name ∈ order, part name ≤ 1) {n : Nat} (hsum : (n : ℚ) ≤ (order.map part).sum)
    {name : α} (hname : name ∈ order.take n) : 0 < part name := by
  induction order generalizing n with
  | nil => simp at hname
  | cons first rest ih =>
    cases n with
    | zero => simp at hname
    | succ n =>
      obtain ⟨hfirst, hsorted⟩ := List.pairwise_cons.mp hsorted
      rw [List.map_cons, List.sum_cons, Nat.cast_succ] at hsum
      rw [List.take_succ_cons] at hname
      rcases List.mem_cons.mp hname with rfl | hname
      · -- were the largest part zero, so would be the sum
        by_contra hzero
        have hrest := List.sum_le_card_nsmul (rest.map part) 0 fun value hvalue => by
          obtain ⟨other, hother, rfl⟩ := List.mem_map.mp hvalue
          exact (hfirst other hother).trans (not_lt.mp hzero)
        rw [smul_zero] at hrest
        have hn : (0 : ℚ) ≤ n := n.cast_nonneg
        linarith
      · have hone := hle first (List.mem_cons_self ..)
        exact ih hsorted (fun other hother => hle other (List.mem_cons_of_mem _ hother)) (by linarith)
          hname

end Decreasing

section Rounding

variable {α : Type} [LinearOrder α] {share : α → ℚ} {limit allocation : α → Nat} {remaining : Nat}
  {active names : List α}

/-- The seats left over go to the first names that have room. -/
theorem extraSeats_eq_take {α : Type} (room : α → Bool) (left : Nat) (order : List α) :
    extraSeats room left order = (order.filter room).take left := by
  fun_induction extraSeats room left order with
  | case1 => simp
  | case2 => simp
  | case3 left name rest hroom ih => simp [hroom, ih]
  | case4 left name rest hroom ih => simp [hroom, ih]

/-- While seats are left after a round, every name that has room got one of those left over. -/
theorem RoundReady.mem_extras_of_left (h : RoundReady share limit allocation active)
    (hleft : (active.map (awardedSeats exactArithmetic share limit remaining active allocation)).sum <
      remaining) {name : α} (hname : name ∈ active)
    (hspare : hasSpareSeat exactArithmetic share limit remaining active allocation name = true) :
    name ∈ roundExtras exactArithmetic share limit remaining active allocation := by
  rw [h.sum_awarded, roundExtras, length_extraSeats] at hleft
  rw [roundExtras, extraSeats_eq_take, List.take_of_length_le (by omega)]
  exact List.mem_filter.mpr ⟨mem_seatOrder.mpr hname, hspare⟩

/-- A round awards a name its whole seats and at most one more. -/
theorem RoundReady.awarded_bounds (h : RoundReady share limit allocation active) {name : α}
    (hname : name ∈ active) :
    wholeSeats exactArithmetic share limit remaining active allocation name ≤
        awardedSeats exactArithmetic share limit remaining active allocation name ∧
      awardedSeats exactArithmetic share limit remaining active allocation name ≤
        wholeSeats exactArithmetic share limit remaining active allocation name + 1 := by
  rw [awardedSeats, if_pos (List.contains_iff_mem.mpr hname)]
  have hcount := List.nodup_iff_count_le_one.mp (@RoundReady.extras_spec _ _ _ _ remaining _ h _).1 name
  omega

/-- No name has more seats than one with the same share that is not full. -/
def Level (names : List α) (share : α → ℚ) (limit allocation : α → Nat) : Prop :=
  ∀ name ∈ names, ∀ other ∈ names, share name = share other →
    allocation other = limit other ∨ allocation name ≤ allocation other

/-- No name has two seats more than one with the same share that is not full. -/
def Fair (names : List α) (share : α → ℚ) (limit allocation : α → Nat) : Prop :=
  ∀ name ∈ names, ∀ other ∈ names, share name = share other →
    allocation other = limit other ∨ allocation name ≤ allocation other + 1

omit [LinearOrder α] in
theorem Level.fair (h : Level names share limit allocation) : Fair names share limit allocation :=
  fun name hname other hother hshare => (h name hname other hother hshare).imp_right fun hle => by omega

/-- The whole seats of a name that is not full after a round are its quota rounded down. -/
theorem RoundReady.wholeSeats_of_lt (h : RoundReady share limit allocation active) {name : α}
    (hname : name ∈ active) (hlt : allocation name +
      awardedSeats exactArithmetic share limit remaining active allocation name < limit name) :
    wholeSeats exactArithmetic share limit remaining active allocation name =
      exactArithmetic.trunc (roundQuota exactArithmetic share remaining active name) := by
  have hle := (@RoundReady.awarded_bounds _ _ _ _ _ remaining _ h _ hname).1
  rw [wholeSeats] at hle ⊢
  omega

/-- A round keeps names with one share level, up to one seat that is left over. -/
theorem RoundReady.awarded_le_of_share_eq (h : RoundReady share limit allocation active)
    (hfull : ∀ name ∈ names, name ∉ active → allocation name = limit name)
    (hlevel : Level names share limit allocation) {name other : α} (hname : name ∈ names)
    (hother : other ∈ names) (hshare : share name = share other) (hlt : allocation other +
      awardedSeats exactArithmetic share limit remaining active allocation other < limit other) :
    allocation name + awardedSeats exactArithmetic share limit remaining active allocation name ≤
        allocation other +
          awardedSeats exactArithmetic share limit remaining active allocation other + 1 ∧
      ((active.map (awardedSeats exactArithmetic share limit remaining active allocation)).sum <
          remaining →
        allocation name + awardedSeats exactArithmetic share limit remaining active allocation name ≤
          allocation other +
            awardedSeats exactArithmetic share limit remaining active allocation other) := by
  have hactive : other ∈ active := by
    by_contra hnot
    have hlimit := hfull other hother hnot
    omega
  have hstart : allocation name ≤ allocation other := by
    rcases hlevel name hname other hother hshare with hlimit | hle
    · omega
    · exact hle
  by_cases hname' : name ∈ active
  · have hquota : roundQuota exactArithmetic share remaining active name =
        roundQuota exactArithmetic share remaining active other := by
      rw [roundQuota_eq, roundQuota_eq, hshare]
    have hwhole := h.wholeSeats_of_lt hactive hlt
    have hbounds := @RoundReady.awarded_bounds _ _ _ _ _ remaining _ h _ hname'
    have hbounds' := @RoundReady.awarded_bounds _ _ _ _ _ remaining _ h _ hactive
    have hmost : wholeSeats exactArithmetic share limit remaining active allocation name ≤
        exactArithmetic.trunc (roundQuota exactArithmetic share remaining active name) :=
      min_le_left _ _
    rw [hquota, ← hwhole] at hmost
    refine ⟨by omega, fun hleft => ?_⟩
    -- the other name has room, so that it got one of the seats left over as well
    have hextra := h.mem_extras_of_left hleft hactive (decide_eq_true (by omega))
    have hcount := List.count_pos_iff.mpr hextra
    have hawarded : awardedSeats exactArithmetic share limit remaining active allocation other =
        wholeSeats exactArithmetic share limit remaining active allocation other +
          (roundExtras exactArithmetic share limit remaining active allocation).count other :=
      if_pos (List.contains_iff_mem.mpr hactive)
    omega
  · rw [awardedSeats, if_neg (by simpa using hname')]
    omega

/-- The rounds are fair to names with one share. -/
theorem RoundReady.rounds_fair (h : RoundReady share limit allocation active)
    (hfull : ∀ name ∈ names, name ∉ active → allocation name = limit name)
    (hlevel : Level names share limit allocation) {rounds : Nat} (hrounds : remaining ≤ rounds) :
    Fair names share limit
      (allocationRounds exactArithmetic share limit rounds remaining active allocation) := by
  induction rounds generalizing remaining active allocation with
  | zero =>
    rw [allocationRounds_of_done (.inl (by omega))]
    exact hlevel.fair
  | succ rounds ih =>
    by_cases hremaining : remaining = 0
    · rw [allocationRounds_of_done (.inl hremaining)]
      exact hlevel.fair
    by_cases hactive : active = []
    · rw [allocationRounds_of_done (.inr hactive)]
      exact hlevel.fair
    obtain ⟨hsome, hmost⟩ := @RoundReady.sum_awarded_bounds _ _ _ _ remaining _ h _ hactive hremaining
    have hround := @RoundReady.awarded_le _ _ _ _ remaining _ h _
    have hlevel' := fun name hname other hother hshare =>
      @RoundReady.awarded_le_of_share_eq _ _ _ _ _ remaining _ _ h hfull hlevel name other hname hother
        hshare
    have hawarded : ∀ name ∉ active,
        awardedSeats exactArithmetic share limit remaining active allocation name = 0 :=
      fun name hname => if_neg (by simpa using hname)
    rw [h.allocationRounds_succ hremaining hactive]
    generalize awardedSeats exactArithmetic share limit remaining active allocation = awarded at *
    have hlimit : ∀ name ∈ names, allocation name + awarded name ≤ limit name := by
      intro name hname
      by_cases hmem : name ∈ active
      · exact hround hmem
      · rw [hawarded name hmem, hfull name hname hmem, add_zero]
    have hfull' : ∀ name ∈ names, name ∉ active.filter (fun name =>
        decide (allocation name + awarded name < limit name)) →
        allocation name + awarded name = limit name := by
      intro name hname hnot
      by_cases hmem : name ∈ active
      · have hnlt : ¬allocation name + awarded name < limit name := fun hlt =>
          hnot (List.mem_filter.mpr ⟨hmem, decide_eq_true hlt⟩)
        have hle := hlimit name hname
        omega
      · rw [hawarded name hmem, hfull name hname hmem, add_zero]
    by_cases hdone : remaining - (active.map awarded).sum = 0
    · rw [allocationRounds_of_done (.inl hdone)]
      intro name hname other hother hshare
      rcases Nat.lt_or_ge (allocation other + awarded other) (limit other) with hlt | hge
      · exact .inr (hlevel' name hname other hother hshare hlt).1
      · exact .inl (le_antisymm (hlimit other hother) hge)
    · refine ih (h.next _) hfull' (fun name hname other hother hshare => ?_) (by omega)
      rcases Nat.lt_or_ge (allocation other + awarded other) (limit other) with hlt | hge
      · exact .inr ((hlevel' name hname other hother hshare hlt).2 (by omega))
      · exact .inl (le_antisymm (hlimit other hother) hge)

/-- The fractional part of a quota. -/
def remainder (share : α → ℚ) (remaining : Nat) (active : List α) (name : α) : ℚ :=
  fractionalPart exactArithmetic (roundQuota exactArithmetic share remaining active name)

omit [LinearOrder α] in
theorem remainder_eq (name : α) : remainder share remaining active name =
    roundQuota exactArithmetic share remaining active name -
      ⌊roundQuota exactArithmetic share remaining active name⌋₊ := rfl

/-- Names come in the order of their fractional parts. -/
theorem byRemainder_iff {quota : α → ℚ} {a b : α} :
    byRemainder exactArithmetic quota a b = true ↔
      fractionalPart exactArithmetic (quota b) < fractionalPart exactArithmetic (quota a) ∨
        fractionalPart exactArithmetic (quota b) ≤ fractionalPart exactArithmetic (quota a) ∧ a ≤ b := by
  simp [byRemainder, exactArithmetic]

theorem pairwise_seatOrder : (seatOrder exactArithmetic share remaining active).Pairwise
    fun a b => remainder share remaining active b ≤ remainder share remaining active a := by
  have htotal : Std.Total fun a b : α =>
      byRemainder exactArithmetic (roundQuota exactArithmetic share remaining active) a b = true := by
    refine ⟨fun a b => ?_⟩
    rw [byRemainder_iff, byRemainder_iff]
    rcases lt_trichotomy (remainder share remaining active a) (remainder share remaining active b)
      with hlt | heq | hgt
    · exact .inr (.inl hlt)
    · exact (le_total a b).imp (fun hle => .inr ⟨heq.ge, hle⟩) fun hle => .inr ⟨heq.le, hle⟩
    · exact .inl (.inl hgt)
  have htrans : IsTrans α fun a b =>
      byRemainder exactArithmetic (roundQuota exactArithmetic share remaining active) a b = true := by
    refine ⟨fun a b c hab hbc => ?_⟩
    rw [byRemainder_iff] at hab hbc ⊢
    rcases hab with hab | ⟨hab, hle⟩ <;> rcases hbc with hbc | ⟨hbc, hle'⟩
    · exact .inl (hbc.trans hab)
    · exact .inl (hbc.trans_lt hab)
    · exact .inl (hbc.trans_le hab)
    · exact .inr ⟨hbc.trans hab, hle.trans hle'⟩
  refine (List.pairwise_insertionSort _ active).imp fun hab => ?_
  rcases byRemainder_iff.mp hab with hlt | ⟨hle, -⟩
  · exact hlt.le
  · exact hle

/-- A name whose quota fills it is full after the rounds. -/
theorem RoundReady.rounds_eq_limit (h : RoundReady share limit allocation active) {rounds : Nat}
    (hremaining : remaining ≠ 0) (hrounds : remaining ≤ rounds) {name : α} (hname : name ∈ active)
    (hquota : ((limit name - allocation name : Nat) : ℚ) ≤
      roundQuota exactArithmetic share remaining active name) :
    allocationRounds exactArithmetic share limit rounds remaining active allocation name =
      limit name := by
  have hactive := List.ne_nil_of_mem hname
  have hroom := h.room name hname
  obtain ⟨rounds, rfl⟩ : ∃ n, rounds = n + 1 := ⟨rounds - 1, by omega⟩
  have hwhole : wholeSeats exactArithmetic share limit remaining active allocation name =
      limit name - allocation name := Nat.min_eq_right (Nat.le_floor hquota)
  have hle := @RoundReady.awarded_le _ _ _ _ remaining _ h _ _ hname
  have hge := (@RoundReady.awarded_bounds _ _ _ _ _ remaining _ h _ hname).1
  have hsome := @RoundReady.sum_awarded_bounds _ _ _ _ remaining _ h _ hactive hremaining
  rw [h.allocationRounds_succ hremaining hactive]
  refine (((h.next _).rounds_spec (by omega)).1 name fun hmem => ?_).trans (by omega)
  have hlt := of_decide_eq_true (List.mem_filter.mp hmem).2
  omega

section WithinRoom

omit [LinearOrder α] in
/-- A quota within the room of a name is rounded down. -/
theorem wholeSeats_eq_floor {name : α} (h : roundQuota exactArithmetic share remaining active name ≤
    (limit name - allocation name : Nat)) :
    wholeSeats exactArithmetic share limit remaining active allocation name =
      ⌊roundQuota exactArithmetic share remaining active name⌋₊ :=
  Nat.min_eq_left (Nat.floor_le_of_le h)

variable (h : RoundReady share limit allocation active) (hactive : active ≠ [])
  (hroom : ∀ name ∈ active, roundQuota exactArithmetic share remaining active name ≤
    (limit name - allocation name : Nat))

include h hactive hroom

omit [LinearOrder α] in
/-- The seats left over are the fractional parts together. -/
theorem RoundReady.left_eq_sum :
    ((remaining - (active.map (wholeSeats exactArithmetic share limit remaining active
      allocation)).sum : Nat) : ℚ) = (active.map (remainder share remaining active)).sum := by
  rw [Nat.cast_sub (h.sum_whole_le hactive), sub_eq_iff_eq_add, Nat.cast_list_sum, List.map_map,
    ← List.sum_map_add, ← h.sum_quota hactive]
  refine congrArg List.sum (List.map_congr_left fun name hname => ?_)
  rw [Function.comp_apply, wholeSeats_eq_floor (hroom name hname), remainder_eq, sub_add_cancel]

omit [LinearOrder α] in
/-- A name without room for a seat left over has no fractional part. -/
theorem RoundReady.remainder_eq_zero {name : α} (hname : name ∈ active)
    (hspare : hasSpareSeat exactArithmetic share limit remaining active allocation name = false) :
    remainder share remaining active name = 0 := by
  have hwhole := wholeSeats_eq_floor (hroom name hname)
  have hquota := hroom name hname
  have hfloor := Nat.floor_le (@RoundReady.quota_nonneg _ _ _ _ remaining _ h hactive _ hname)
  have hge : limit name - allocation name ≤
      ⌊roundQuota exactArithmetic share remaining active name⌋₊ := by
    have hnot := of_decide_eq_false hspare
    omega
  have hge' : ((limit name - allocation name : Nat) : ℚ) ≤
      ⌊roundQuota exactArithmetic share remaining active name⌋₊ := by exact_mod_cast hge
  rw [remainder_eq]
  linarith

/-- The fractional parts of the names that have room for a seat left over are those of all names. -/
theorem RoundReady.sum_spare_remainder :
    (((seatOrder exactArithmetic share remaining active).filter
      (hasSpareSeat exactArithmetic share limit remaining active allocation)).map
        (remainder share remaining active)).sum =
      ((remaining - (active.map (wholeSeats exactArithmetic share limit remaining active
        allocation)).sum : Nat) : ℚ) := by
  have hperm : (seatOrder exactArithmetic share remaining active).Perm active :=
    List.perm_insertionSort _ _
  have hzero : ((seatOrder exactArithmetic share remaining active).filter
      (!hasSpareSeat exactArithmetic share limit remaining active allocation ·)).map
        (remainder share remaining active) = ((seatOrder exactArithmetic share remaining active).filter
      (!hasSpareSeat exactArithmetic share limit remaining active allocation ·)).map fun _ => 0 := by
    refine List.map_congr_left fun name hname => ?_
    obtain ⟨hmem, hspare⟩ := List.mem_filter.mp hname
    exact h.remainder_eq_zero hactive hroom (mem_seatOrder.mp hmem) (by simpa using hspare)
  rw [h.left_eq_sum hactive hroom, ← (hperm.map (remainder share remaining active)).sum_eq,
    ← sum_map_filter_add (hasSpareSeat exactArithmetic share limit remaining active allocation)
      (remainder share remaining active) (seatOrder exactArithmetic share remaining active), hzero]
  simp

omit [LinearOrder α] hactive hroom h in
theorem remainder_le_one (name : α) : remainder share remaining active name ≤ 1 := by
  have hlt := Nat.lt_floor_add_one (roundQuota exactArithmetic share remaining active name)
  rw [remainder_eq]
  linarith

/-- One round awards all seats. -/
theorem RoundReady.sum_awarded_eq :
    (active.map (awardedSeats exactArithmetic share limit remaining active allocation)).sum =
      remaining := by
  have hsum := h.sum_spare_remainder hactive hroom
  have hwhole := @RoundReady.sum_whole_le _ _ _ _ remaining _ h hactive
  have hcard := @sum_part_le_length _ (remainder share remaining active)
    ((seatOrder exactArithmetic share remaining active).filter
      (hasSpareSeat exactArithmetic share limit remaining active allocation))
    fun name _ => remainder_le_one name
  rw [hsum] at hcard
  have hcard' := Nat.cast_le.mp hcard
  rw [h.sum_awarded, roundExtras, length_extraSeats]
  omega

/-- A name that gets a seat left over has a fractional part. -/
theorem RoundReady.remainder_pos {name : α}
    (hname : name ∈ roundExtras exactArithmetic share limit remaining active allocation) :
    0 < remainder share remaining active name := by
  rw [roundExtras, extraSeats_eq_take] at hname
  exact part_pos_of_mem_take (pairwise_seatOrder.filter _) (fun name _ => remainder_le_one name)
    (h.sum_spare_remainder hactive hroom).ge hname

/-- No name gets more than its quota rounded up. -/
theorem RoundReady.awarded_le_ceil {name : α} (hname : name ∈ active) :
    awardedSeats exactArithmetic share limit remaining active allocation name ≤
      ⌈roundQuota exactArithmetic share remaining active name⌉₊ := by
  have hwhole := wholeSeats_eq_floor (hroom name hname)
  have hbounds := @RoundReady.awarded_bounds _ _ _ _ _ remaining _ h _ hname
  by_cases hextra : name ∈ roundExtras exactArithmetic share limit remaining active allocation
  · have hpos := h.remainder_pos hactive hroom hextra
    have hlt : ⌊roundQuota exactArithmetic share remaining active name⌋₊ <
        ⌈roundQuota exactArithmetic share remaining active name⌉₊ := by
      rw [Nat.lt_ceil]
      rw [remainder_eq] at hpos
      linarith
    omega
  · rw [awardedSeats, if_pos (List.contains_iff_mem.mpr hname), List.count_eq_zero_of_not_mem hextra,
      hwhole, add_zero]
    exact Nat.floor_le_ceil _

/-- Where no quota is above the room for it, the rounds give no name more than its quota rounded up. -/
theorem RoundReady.rounds_le_ceil {rounds : Nat} (hrounds : remaining ≤ rounds) {name : α}
    (hname : name ∈ active) :
    allocationRounds exactArithmetic share limit rounds remaining active allocation name ≤
      allocation name + ⌈roundQuota exactArithmetic share remaining active name⌉₊ := by
  by_cases hremaining : remaining = 0
  · rw [allocationRounds_of_done (.inl hremaining)]
    exact Nat.le_add_right ..
  obtain ⟨rounds, rfl⟩ : ∃ n, rounds = n + 1 := ⟨rounds - 1, by omega⟩
  rw [h.allocationRounds_succ hremaining hactive, allocationRounds_of_done]
  · exact Nat.add_le_add_left (h.awarded_le_ceil hactive hroom hname) _
  · left
    rw [h.sum_awarded_eq hactive hroom, Nat.sub_self]

end WithinRoom

end Rounding

end OpenCollabEval
