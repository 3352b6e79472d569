import OpenCollabEval.Sampling.Apportionment

/-!
# Capped shares

What `capped_repository_shares` returns over exact arithmetic for a cap that it accepts. Every name
has a share that is positive, the share of a pinned name is the cap, and the others divide what is
left in proportion to their counts.
-/

open Python

namespace OpenCollabEval

section Pinning

variable {α : Type} {count : α → Nat} {cap : ℚ} {names pinned free : List α}

/-- The mass that the pinned names leave. -/
def massLeft (cap : ℚ) (pinned : List α) : ℚ := 1 - pinned.length * cap

theorem massLeft_append (pinned more : List α) :
    massLeft cap (pinned ++ more) = massLeft cap pinned - more.length * cap := by
  rw [massLeft, massLeft, List.length_append, Nat.cast_add]
  ring

/-- The share of a free name. -/
def freeShare (count : α → Nat) (cap : ℚ) (pinned free : List α) (name : α) : ℚ :=
  massLeft cap pinned * count name / ((free.map count).sum : Nat)

/-- What holds when a round of the pinning begins. -/
structure Pinning (count : α → Nat) (cap : ℚ) (names pinned free : List α) : Prop where
  all : (pinned ++ free).Perm names
  mass_pos : 0 < massLeft cap pinned
  someFree : free ≠ []
  /-- The free names divide so much among them that a pinned name would get more than the cap. -/
  above : ∀ name ∈ pinned,
    cap * ((free.map count).sum : Nat) < massLeft cap pinned * count name

/-- The condition under which `capped_repository_shares` accepts a cap for some names. -/
structure CapFits (count : α → Nat) (cap : ℚ) (names : List α) : Prop where
  someName : names ≠ []
  counted : ∀ name ∈ names, 0 < count name
  cap_pos : 0 < cap
  cap_le_one : cap ≤ 1
  fits : 1 ≤ cap * names.length

theorem CapFits.initial (h : CapFits count cap names) : Pinning count cap names [] names where
  all := .refl _
  mass_pos := by simp [massLeft]
  someFree := h.someName
  above := by simp

theorem Pinning.mem_names (h : Pinning count cap names pinned free) {name : α} (hname : name ∈ free) :
    name ∈ names :=
  h.all.mem_iff.mp (List.mem_append_right _ hname)

theorem Pinning.freeTotal_pos (h : Pinning count cap names pinned free)
    (hcap : CapFits count cap names) : 0 < (free.map count).sum := by
  refine List.sum_pos _ (fun value hvalue => ?_) (by simpa using h.someFree)
  obtain ⟨name, hname, rfl⟩ := List.mem_map.mp hvalue
  exact hcap.counted name (h.mem_names hname)

/-- A free name has a share. -/
theorem Pinning.freeShare_pos (h : Pinning count cap names pinned free)
    (hcap : CapFits count cap names) {name : α} (hname : name ∈ free) :
    0 < freeShare count cap pinned free name := by
  have htotal := h.freeTotal_pos hcap
  have hcount := hcap.counted name (h.mem_names hname)
  have hmass := h.mass_pos
  rw [freeShare]
  positivity

/-- The free names divide among them what the pinned names leave. -/
theorem Pinning.sum_freeShare (h : Pinning count cap names pinned free)
    (hcap : CapFits count cap names) :
    (free.map (freeShare count cap pinned free)).sum = massLeft cap pinned := by
  have htotal : (((free.map count).sum : Nat) : ℚ) ≠ 0 := by
    exact_mod_cast (h.freeTotal_pos hcap).ne'
  have hmap : free.map (freeShare count cap pinned free) =
      (free.map fun name => (count name : ℚ)).map
        (massLeft cap pinned / ((free.map count).sum : Nat) * ·) := by
    rw [List.map_map]
    apply List.map_congr_left
    intro name _
    rw [freeShare, Function.comp_apply]
    ring
  have hcast : (free.map fun name => (count name : ℚ)).sum = ((free.map count).sum : Nat) := by
    rw [Nat.cast_list_sum, List.map_map]
    rfl
  rw [hmap, List.sum_map_mul_left, List.map_id', hcast, div_mul_cancel₀ _ htotal]

/-- A name above the cap holds more of the free mass than the cap gives it. -/
theorem Pinning.cap_lt_of_lt_freeShare (h : Pinning count cap names pinned free)
    (hcap : CapFits count cap names) {name : α} (hname : cap < freeShare count cap pinned free name) :
    cap * ((free.map count).sum : Nat) < massLeft cap pinned * count name := by
  have htotal : (0 : ℚ) < ((free.map count).sum : Nat) := by exact_mod_cast h.freeTotal_pos hcap
  exact (lt_div_iff₀ htotal).mp hname

/-- Names that hold more of the free mass than the cap gives them do so together. -/
theorem length_mul_cap_lt {above : List α} {mass total : ℚ} (habove : above ≠ [])
    (h : ∀ name ∈ above, cap * total < mass * count name) :
    above.length * cap * total < mass * ((above.map count).sum : Nat) := by
  have hsum := List.sum_lt_sum_of_ne_nil habove _ _ h
  rw [List.map_const', List.sum_replicate, nsmul_eq_mul, List.sum_map_mul_left] at hsum
  rw [Nat.cast_list_sum, List.map_map, mul_assoc]
  exact hsum

/-- Pinning the names above the cap leaves free mass to the names below. -/
theorem Pinning.next (h : Pinning count cap names pinned free) (hcap : CapFits count cap names)
    {above : α → Bool} (hsome : free.filter above ≠ []) (hover : ∀ name ∈ free, above name = true →
      cap < freeShare count cap pinned free name) :
    Pinning count cap names (pinned ++ free.filter above) (free.filter (!above ·)) := by
  have habove : ∀ name ∈ free.filter above,
      cap * ((free.map count).sum : Nat) < massLeft cap pinned * count name := fun name hname =>
    h.cap_lt_of_lt_freeShare hcap (hover name (List.mem_filter.mp hname).1 (List.mem_filter.mp hname).2)
  have hheld := length_mul_cap_lt hsome habove
  have htotal : (0 : ℚ) < ((free.map count).sum : Nat) := by exact_mod_cast h.freeTotal_pos hcap
  have hsplit : (((free.filter above).map count).sum : Nat) +
      (((free.filter (!above ·)).map count).sum : Nat) = (((free.map count).sum : Nat) : ℚ) := by
    exact_mod_cast sum_map_filter_add above count free
  have hbelow : (0 : ℚ) ≤ (((free.filter (!above ·)).map count).sum : Nat) := Nat.cast_nonneg _
  have hmass := h.mass_pos
  have hall : (pinned ++ free.filter above ++ free.filter (!above ·)).Perm names := by
    rw [List.append_assoc]
    exact ((List.filter_append_perm above free).append_left pinned).trans h.all
  have hmass' : 0 < massLeft cap (pinned ++ free.filter above) := by
    rw [massLeft_append, sub_pos]
    nlinarith
  refine ⟨hall, hmass', fun hnone => ?_, fun name hname => ?_⟩
  · -- the cap would be too small for all names together
    have hlength := hall.length_eq
    rw [hnone, List.append_nil] at hlength
    rw [massLeft, hlength, mul_comm] at hmass'
    linarith [hcap.fits]
  · have hname' : cap * ((free.map count).sum : Nat) < massLeft cap pinned * count name := by
      rcases List.mem_append.mp hname with hname | hname
      · exact h.above name hname
      · exact habove name hname
    rw [← sub_pos]
    refine (mul_pos_iff_of_pos_left hmass).mp ?_
    rw [massLeft_append] at hmass' ⊢
    have hprod := mul_pos hmass' (sub_pos.mpr hname')
    have hcapHeld := mul_pos hcap.cap_pos (sub_pos.mpr hheld)
    rw [← hsplit] at hprod hcapHeld
    linarith

end Pinning

section Rounds

variable {α : Type} [LinearOrder α] {count : α → Nat} {cap : ℚ} {names pinned free : List α}

/-- What `capped_repository_shares` returns: names pinned to the cap, and the others with a share of
their own that is not above it. -/
structure CappedAt (count : α → Nat) (cap : ℚ) (names : List α) (shares : Shares α ℚ)
    (pinned free : List α) : Prop extends Pinning count cap names pinned free where
  names_eq : shares.names = pinned ++ free
  pinned_share : ∀ name ∈ pinned, shares.share name = cap
  free_share : ∀ name ∈ free, shares.share name = freeShare count cap pinned free name
  free_le : ∀ name ∈ free, freeShare count cap pinned free name ≤ cap + shareTolerance

theorem shareTolerance_pos : 0 < shareTolerance := by
  norm_num [shareTolerance]

/-- Whether a free name is above the cap. -/
def isOver (count : α → Nat) (cap : ℚ) (pinned free : List α) (name : α) : Bool :=
  decide (cap + shareTolerance < freeShare count cap pinned free name)

theorem cappedShares_succ (rounds : Nat) :
    cappedShares exactArithmetic count cap (rounds + 1) pinned free =
      if (free.map count).sum = 0 then ⟨pinned, fun _ => cap⟩
      else if free.any (isOver count cap pinned free) then
        cappedShares exactArithmetic count cap rounds
          (pinned ++ free.filter (isOver count cap pinned free))
          (free.filter (!isOver count cap pinned free ·))
      else ⟨pinned ++ free, fun name =>
        if pinned.contains name then cap else freeShare count cap pinned free name⟩ := by
  have hmass : exactArithmetic.sub (exactArithmetic.ofNat 1)
      (exactArithmetic.sum (pinned.map fun _ => cap)) = massLeft cap pinned := by
    simp [exactArithmetic, massLeft]
  rw [cappedShares, hmass]
  rfl

/-- One round of the loop that does not end it: the names above the cap are pinned. -/
inductive PinRound (count : α → Nat) (cap : ℚ) : List α × List α → List α × List α → Prop
  | pin (pinned free : List α) (hany : free.any (isOver count cap pinned free) = true) :
    PinRound count cap (pinned, free)
      (pinned ++ free.filter (isOver count cap pinned free),
        free.filter (!isOver count cap pinned free ·))

omit [LinearOrder α] in
/-- A round that pins names leaves free mass to others. -/
theorem PinRound.pinning {s s' : List α × List α} (hround : PinRound count cap s s')
    (hcap : CapFits count cap names) (h : Pinning count cap names s.1 s.2) :
    Pinning count cap names s'.1 s'.2 := by
  obtain ⟨pinned, free, hany⟩ := hround
  obtain ⟨name, hname, habove⟩ := List.any_eq_true.mp hany
  refine h.next hcap (List.ne_nil_of_mem (List.mem_filter.mpr ⟨hname, habove⟩)) fun _ _ hlt => ?_
  exact (lt_add_of_pos_right cap shareTolerance_pos).trans (of_decide_eq_true hlt)

omit [LinearOrder α] in
/-- A round that pins names leaves fewer of them free. -/
theorem PinRound.length_lt {s s' : List α × List α} (hround : PinRound count cap s s') :
    s'.2.length < s.2.length := by
  obtain ⟨pinned, free, hany⟩ := hround
  obtain ⟨name, hname, habove⟩ := List.any_eq_true.mp hany
  exact List.length_filter_lt_length_iff_exists.mpr ⟨name, hname, by simp [habove]⟩

/-- The shares that the loop returns with. -/
def returnedShares (count : α → Nat) (cap : ℚ) (pinned free : List α) : Shares α ℚ :=
  ⟨pinned ++ free, fun name =>
    if pinned.contains name then cap else freeShare count cap pinned free name⟩

/-- The rounds of the pinning end with no name above the cap. -/
theorem Pinning.returns (h : Pinning count cap names pinned free) (hcap : CapFits count cap names) :
    ∃ pinned' free',
      Relation.ReflTransGen (PinRound count cap) (pinned, free) (pinned', free') ∧
        free'.any (isOver count cap pinned' free') = false ∧
        ∀ rounds, free.length < rounds →
          OpenCollabEval.cappedShares exactArithmetic count cap rounds pinned free =
            returnedShares count cap pinned' free' := by
  induction hlength : free.length using Nat.strong_induction_on generalizing pinned free with
  | _ length ih =>
    subst hlength
    by_cases hany : free.any (isOver count cap pinned free) = true
    · have hround := PinRound.pin pinned free hany
      obtain ⟨pinned', free', hrun, hnone, hshares⟩ :=
        ih _ hround.length_lt (hround.pinning hcap h) rfl
      refine ⟨pinned', free', .head hround hrun, hnone, fun rounds hrounds => ?_⟩
      obtain ⟨rounds, rfl⟩ := Nat.exists_eq_succ_of_ne_zero (Nat.ne_zero_of_lt hrounds)
      rw [cappedShares_succ, if_neg (h.freeTotal_pos hcap).ne', if_pos hany]
      exact hshares rounds (lt_of_lt_of_le hround.length_lt (Nat.lt_succ_iff.mp hrounds))
    · refine ⟨pinned, free, .refl, by simpa using hany, fun rounds hrounds => ?_⟩
      obtain ⟨rounds, rfl⟩ := Nat.exists_eq_succ_of_ne_zero (Nat.ne_zero_of_lt hrounds)
      rw [cappedShares_succ, if_neg (h.freeTotal_pos hcap).ne', if_neg hany]
      rfl

omit [LinearOrder α] in
/-- Rounds that pin names keep what holds of them. -/
theorem Pinning.of_pinRounds {s s' : List α × List α} (hcap : CapFits count cap names)
    (hrun : Relation.ReflTransGen (PinRound count cap) s s') (h : Pinning count cap names s.1 s.2) :
    Pinning count cap names s'.1 s'.2 := by
  induction hrun with
  | refl => exact h
  | tail _ hround ih => exact hround.pinning hcap ih

omit [LinearOrder α] in
/-- No name is pinned and free. -/
theorem Pinning.disjoint (h : Pinning count cap names pinned free) (hnames : names.Nodup) {name : α}
    (hname : name ∈ free) : name ∉ pinned := fun hpinned =>
  (List.nodup_append.mp (h.all.nodup_iff.mpr hnames)).2.2 name hpinned name hname rfl

/-- What the loop returns with when no name is above the cap. -/
theorem Pinning.cappedAt (h : Pinning count cap names pinned free) (hnames : names.Nodup)
    (hnone : free.any (isOver count cap pinned free) = false) :
    CappedAt count cap names (returnedShares count cap pinned free) pinned free := by
  refine ⟨h, rfl, fun name hname => ?_, fun name hname => ?_, fun name hname => ?_⟩
  · exact if_pos (List.contains_iff_mem.mpr hname)
  · exact if_neg (by simpa using h.disjoint hnames hname)
  · have hover := List.any_eq_false.mp hnone name hname
    exact not_lt.mp fun habove => hover (decide_eq_true habove)

/-- With a cap that fits, the shares are what the pinning ends with. -/
theorem CapFits.cappedRepositoryShares_eq (hcap : CapFits count cap names) :
    cappedRepositoryShares exactArithmetic names count cap =
      .ok (cappedShares exactArithmetic count cap (names.length + 1) [] names) := by
  have htotal := (hcap.initial.freeTotal_pos hcap).ne'
  have hpos := hcap.cap_pos
  have hone := hcap.cap_le_one
  have hfits := hcap.fits
  rw [cappedRepositoryShares, if_neg (by simpa using hcap.someName), if_neg htotal,
    if_neg (by simp [exactArithmetic, hpos, hone]), if_neg (by simpa [exactArithmetic] using hfits)]

/-- A cap that fits is accepted. -/
theorem CapFits.cappedRepositoryShares (hcap : CapFits count cap names) (hnames : names.Nodup) :
    ∃ shares pinned free, OpenCollabEval.cappedRepositoryShares exactArithmetic names count cap =
      .ok shares ∧ CappedAt count cap names shares pinned free := by
  obtain ⟨pinned, free, hrun, hnone, hshares⟩ := hcap.initial.returns hcap
  refine ⟨returnedShares count cap pinned free, pinned, free, ?_,
    (hcap.initial.of_pinRounds hcap hrun).cappedAt hnames hnone⟩
  rw [hcap.cappedRepositoryShares_eq, hshares _ (Nat.lt_succ_self _)]

/-- Without a name above the cap, the shares are those of the frame. -/
theorem CapFits.cappedRepositoryShares_unpinned (hcap : CapFits count cap names)
    (hnone : ∀ name ∈ names, freeShare count cap [] names name ≤ cap + shareTolerance) :
    OpenCollabEval.cappedRepositoryShares exactArithmetic names count cap =
        .ok ⟨names, freeShare count cap [] names⟩ ∧
      CappedAt count cap names ⟨names, freeShare count cap [] names⟩ [] names := by
  have hany : ¬names.any (isOver count cap [] names) = true := fun hany => by
    obtain ⟨name, hname, habove⟩ := List.any_eq_true.mp hany
    exact absurd (hnone name hname) (not_le.mpr (of_decide_eq_true habove))
  refine ⟨?_, hcap.initial, rfl, by simp, fun _ _ => rfl, hnone⟩
  rw [hcap.cappedRepositoryShares_eq, cappedShares_succ,
    if_neg (hcap.initial.freeTotal_pos hcap).ne', if_neg hany]
  rfl

omit [LinearOrder α] in
/-- Every name has a share. -/
theorem CappedAt.pos {shares : Shares α ℚ} (h : CappedAt count cap names shares pinned free)
    (hcap : CapFits count cap names) : ∀ name ∈ shares.names, 0 < shares.share name := by
  intro name hname
  rw [h.names_eq, List.mem_append] at hname
  rcases hname with hname | hname
  · rw [h.pinned_share name hname]
    exact hcap.cap_pos
  · rw [h.free_share name hname]
    exact h.freeShare_pos hcap hname

omit [LinearOrder α] in
/-- The shares are whole together. -/
theorem CappedAt.sum_share {shares : Shares α ℚ} (h : CappedAt count cap names shares pinned free)
    (hcap : CapFits count cap names) : (shares.names.map shares.share).sum = 1 := by
  rw [h.names_eq, List.map_append, List.sum_append, List.map_congr_left h.pinned_share,
    List.map_congr_left h.free_share, h.toPinning.sum_freeShare hcap, List.map_const',
    List.sum_replicate, nsmul_eq_mul, massLeft]
  ring

omit [LinearOrder α] in
/-- No share is above the cap by more than the tolerance. -/
theorem CappedAt.share_le {shares : Shares α ℚ} (h : CappedAt count cap names shares pinned free)
    {name : α} (hname : name ∈ shares.names) : shares.share name ≤ cap + shareTolerance := by
  rw [h.names_eq, List.mem_append] at hname
  rcases hname with hname | hname
  · rw [h.pinned_share name hname]
    exact le_add_of_nonneg_right shareTolerance_pos.le
  · rw [h.free_share name hname]
    exact h.free_le name hname

/-- A cap is accepted just when it fits, or when there is no name. -/
theorem cappedRepositoryShares_accepts_iff (hcounted : ∀ name ∈ names, 0 < count name)
    (hnames : names.Nodup) :
    (∃ shares, OpenCollabEval.cappedRepositoryShares exactArithmetic names count cap = .ok shares) ↔
      names = [] ∨ CapFits count cap names := by
  constructor
  · rintro ⟨shares, h⟩
    by_cases hnone : names = []
    · exact .inl hnone
    rw [OpenCollabEval.cappedRepositoryShares, if_neg (by simpa using hnone)] at h
    split_ifs at h with htotal hrange hfits
    simp [exactArithmetic] at hrange hfits
    exact .inr ⟨hnone, hcounted, hrange.1, hrange.2, hfits⟩
  · rintro (rfl | hcap)
    · exact ⟨_, rfl⟩
    · obtain ⟨shares, -, -, h, -⟩ := hcap.cappedRepositoryShares hnames
      exact ⟨shares, h⟩

end Rounds

end OpenCollabEval
