import OpenCollabEval.Sampling.CappedShares

/-!
# Capped shares are proportional

The shares of `capped_repository_shares` as a distribution. They are shares of all names and they are
whole together, none of them is above the cap, names that are not pinned stand to each other as their
counts do, and a pinned name counts for more than one that is not.
-/

open Python

namespace OpenCollabEval

section Masses

variable {α : Type} {count : α → Nat} {cap : ℚ} {names pinned free : List α}

/-- Every pinned name counts for more than every free one. -/
def Separated (count : α → Nat) (pinned free : List α) : Prop :=
  ∀ name ∈ pinned, ∀ other ∈ free, count other < count name

/-- Two free names stand to each other as their counts do. -/
theorem freeShare_mul_count (name other : α) :
    freeShare count cap pinned free name * count other =
      freeShare count cap pinned free other * count name := by
  rw [freeShare, freeShare]
  ring

end Masses

section Rounds

variable {α : Type} [LinearOrder α] {count : α → Nat} {cap : ℚ} {names pinned free : List α}

omit [LinearOrder α] in
/-- A name above the cap counts for more than a name that is not. -/
theorem Pinning.count_lt_of_isOver (h : Pinning count cap names pinned free)
    (hcap : CapFits count cap names) {name other : α}
    (hname : isOver count cap pinned free name = true)
    (hother : isOver count cap pinned free other = false) : count other < count name := by
  have hshare : freeShare count cap pinned free other < freeShare count cap pinned free name :=
    lt_of_le_of_lt (not_lt.mp (of_decide_eq_false hother)) (of_decide_eq_true hname)
  have htotal : (0 : ℚ) < ((free.map count).sum : Nat) := by exact_mod_cast h.freeTotal_pos hcap
  have hmul := (div_lt_div_iff_of_pos_right htotal).mp hshare
  exact_mod_cast (mul_lt_mul_iff_right₀ h.mass_pos).mp hmul

omit [LinearOrder α] in
/-- Pinning keeps the pinned names above the free ones. -/
theorem PinRound.separated {s s' : List α × List α} (hround : PinRound count cap s s')
    (hcap : CapFits count cap names) (h : Pinning count cap names s.1 s.2)
    (hseparated : Separated count s.1 s.2) : Separated count s'.1 s'.2 := by
  obtain ⟨pinned, free, hany⟩ := hround
  intro name hname other hother
  obtain ⟨hother, hbelow⟩ := List.mem_filter.mp hother
  rcases List.mem_append.mp hname with hname | hname
  · exact hseparated name hname other hother
  · exact h.count_lt_of_isOver hcap (List.mem_filter.mp hname).2 (by simpa using hbelow)

omit [LinearOrder α] in
/-- All rounds keep the pinned names above the free ones. -/
theorem Separated.of_pinRounds {s s' : List α × List α} (hcap : CapFits count cap names)
    (hrun : Relation.ReflTransGen (PinRound count cap) s s') (h : Pinning count cap names s.1 s.2)
    (hseparated : Separated count s.1 s.2) : Separated count s'.1 s'.2 := by
  induction hrun with
  | refl => exact hseparated
  | tail hrun hround ih => exact hround.separated hcap (Pinning.of_pinRounds hcap hrun h) ih

/-- A distribution over names that follows their counts below a cap, with some names pinned to it. -/
structure CappedProportion (count : α → Nat) (cap : ℚ) (names pinned : List α)
    (shares : Shares α ℚ) : Prop where
  covers : shares.names.Perm names
  sum_eq_one : (shares.names.map shares.share).sum = 1
  share_le : ∀ name ∈ names, shares.share name ≤ cap + shareTolerance
  pinned_share : ∀ name ∈ pinned, name ∈ names ∧ shares.share name = cap
  /-- Not all names are pinned. -/
  someFree : ∃ name ∈ names, name ∉ pinned
  ratio : ∀ name ∈ names, ∀ other ∈ names, name ∉ pinned → other ∉ pinned →
    shares.share name * count other = shares.share other * count name
  heavier : ∀ name ∈ pinned, ∀ other ∈ names, other ∉ pinned → count other ≤ count name

omit [LinearOrder α] in
/-- What the loop returns with is such a distribution. -/
theorem CappedAt.proportion {shares : Shares α ℚ} (h : CappedAt count cap names shares pinned free)
    (hcap : CapFits count cap names) (hnames : names.Nodup)
    (hseparated : Separated count pinned free) : CappedProportion count cap names pinned shares := by
  have hfree : ∀ name ∈ names, name ∉ pinned → name ∈ free := fun name hname hnot =>
    (List.mem_append.mp (h.all.mem_iff.mpr hname)).resolve_left hnot
  refine ⟨h.names_eq ▸ h.all, h.sum_share hcap,
    fun _ hname => h.share_le (h.names_eq ▸ h.all.mem_iff.mpr hname),
    fun name hname => ⟨h.all.mem_iff.mp (List.mem_append_left _ hname), h.pinned_share name hname⟩,
    ?_, ?_, ?_⟩
  · obtain ⟨name, hname⟩ := List.exists_mem_of_ne_nil _ h.someFree
    exact ⟨name, h.toPinning.mem_names hname, h.toPinning.disjoint hnames hname⟩
  · intro name hname other hother hnot hnot'
    rw [h.free_share name (hfree name hname hnot), h.free_share other (hfree other hother hnot')]
    exact freeShare_mul_count name other
  · intro name hname other hother hnot
    exact (hseparated name hname other (hfree other hother hnot)).le

/-- For a cap that fits, the loop of `capped_repository_shares` ends after some rounds, with a
distribution that follows the counts below the cap. More rounds than names make no difference. -/
theorem CapFits.cappedRepositoryShares_proportion (hcap : CapFits count cap names)
    (hnames : names.Nodup) :
    ∃ shares pinned free,
      OpenCollabEval.cappedRepositoryShares exactArithmetic names count cap = .ok shares ∧
        Relation.ReflTransGen (PinRound count cap) ([], names) (pinned, free) ∧
        free.any (isOver count cap pinned free) = false ∧
        (∀ rounds, names.length < rounds →
          cappedShares exactArithmetic count cap rounds [] names = shares) ∧
        CappedProportion count cap names pinned shares := by
  obtain ⟨pinned, free, hrun, hnone, hshares⟩ := hcap.initial.returns hcap
  have hpinning := Pinning.of_pinRounds hcap hrun hcap.initial
  have hseparated : Separated count pinned free :=
    Separated.of_pinRounds hcap hrun hcap.initial fun name hname => absurd hname List.not_mem_nil
  refine ⟨returnedShares count cap pinned free, pinned, free, ?_, hrun, hnone, hshares,
    (hpinning.cappedAt hnames hnone).proportion hcap hnames hseparated⟩
  rw [hcap.cappedRepositoryShares_eq, hshares _ (Nat.lt_succ_self _)]

/-- Three repositories, the largest of which is pinned to half of the draw. -/
theorem cappedRepositoryShares_proportion_sample :
    ∃ (shares : Shares Nat ℚ) (pinned free : List Nat),
      OpenCollabEval.cappedRepositoryShares exactArithmetic [1, 2, 3] (fun name => name * name * name)
          (1 / 2) = .ok shares ∧
        Relation.ReflTransGen (PinRound (fun name => name * name * name) (1 / 2)) ([], [1, 2, 3])
          (pinned, free) ∧
        free.any (isOver (fun name => name * name * name) (1 / 2) pinned free) = false ∧
        (∀ rounds, 3 < rounds → cappedShares exactArithmetic (fun name => name * name * name) (1 / 2)
          rounds [] [1, 2, 3] = shares) ∧
        CappedProportion (fun name => name * name * name) (1 / 2) [1, 2, 3] pinned shares :=
  CapFits.cappedRepositoryShares_proportion
    ⟨by decide, by decide, by norm_num, by norm_num, by norm_num⟩ (by decide)

end Rounds

end OpenCollabEval
