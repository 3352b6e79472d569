import OpenCollabEval.Sampling.Draw
import OpenCollabEval.Sampling.SeatRounding

/-!
# The cap on the head of a draw

How many instances a repository has in the head block over exact arithmetic. The bound is the cap
with its tolerance, times the size of the head and rounded up, wherever some selection keeps to it.
Without the tolerance the bound is wrong.
-/

open Python

namespace OpenCollabEval

section Shares

variable {α : Type} {count : α → Nat} {cap : ℚ} {names pinned free : List α} {shares : Shares α ℚ}
  [LinearOrder α]

/-- The rounds of the allocation begin with all names. -/
theorem CappedAt.allocate_eq (h : CappedAt count cap names shares pinned free)
    (hcap : CapFits count cap names) (size : Nat) :
    allocateByLargestRemainder exactArithmetic shares size (some count) =
      allocationRounds exactArithmetic shares.share count size size shares.names fun _ => 0 := by
  rw [allocateByLargestRemainder, Option.getD_some, List.filter_eq_self.mpr]
  intro name hname
  have hpos := h.pos hcap name hname
  have hmem : name ∈ names := h.all.mem_iff.mp (h.names_eq ▸ hname)
  rw [show exactArithmetic.lt (exactArithmetic.ofNat 0) (shares.share name) = true from
    decide_eq_true (by simpa [exactArithmetic] using hpos), decide_eq_true (hcap.counted name hmem)]
  rfl

omit [LinearOrder α] in
theorem CappedAt.ready (h : CappedAt count cap names shares pinned free)
    (hcap : CapFits count cap names) (hnames : names.Nodup) :
    RoundReady shares.share count (fun _ => 0) shares.names where
  distinct := h.names_eq ▸ h.all.nodup_iff.mpr hnames
  positive := h.pos hcap
  room name hname := hcap.counted name (h.all.mem_iff.mp (h.names_eq ▸ hname))

omit [LinearOrder α] in
theorem CappedAt.roundQuota_eq (h : CappedAt count cap names shares pinned free)
    (hcap : CapFits count cap names) (size : Nat) (name : α) :
    roundQuota exactArithmetic shares.share size shares.names name = size * shares.share name := by
  rw [OpenCollabEval.roundQuota_eq, h.sum_share hcap, div_one]

/-- Where the free names do not run out, no name gets more seats than its share rounded up. -/
theorem CappedAt.allocation_le_of_room (h : CappedAt count cap names shares pinned free)
    (hcap : CapFits count cap names) (hnames : names.Nodup) {size : Nat}
    (hsize : size * massLeft cap pinned ≤ ((free.map count).sum : Nat)) {name : α}
    (hname : name ∈ shares.names) :
    allocateByLargestRemainder exactArithmetic shares size (some count) name ≤
      ⌈(cap + shareTolerance) * size⌉₊ := by
  have htotal : (0 : ℚ) < ((free.map count).sum : Nat) := by exact_mod_cast h.freeTotal_pos hcap
  have hroom : ∀ name ∈ shares.names, roundQuota exactArithmetic shares.share size shares.names name ≤
      (count name - 0 : Nat) := by
    intro name hname
    rw [h.roundQuota_eq hcap, Nat.sub_zero]
    rw [h.names_eq, List.mem_append] at hname
    rcases hname with hname | hname
    · have hover := h.above name hname
      rw [h.pinned_share name hname]
      refine le_of_mul_le_mul_right ?_ htotal
      calc size * cap * ((free.map count).sum : Nat)
          = size * (cap * ((free.map count).sum : Nat)) := by ring
        _ ≤ size * (massLeft cap pinned * count name) :=
          mul_le_mul_of_nonneg_left hover.le size.cast_nonneg
        _ = size * massLeft cap pinned * count name := by ring
        _ ≤ ((free.map count).sum : Nat) * count name :=
          mul_le_mul_of_nonneg_right hsize (count name).cast_nonneg
        _ = count name * ((free.map count).sum : Nat) := mul_comm _ _
    · rw [h.free_share name hname, freeShare, ← mul_div_assoc, div_le_iff₀ htotal, ← mul_assoc,
        mul_comm (count name : ℚ)]
      exact mul_le_mul_of_nonneg_right hsize (count name).cast_nonneg
  have hsome : shares.names ≠ [] := List.ne_nil_of_mem hname
  have hceil := (h.ready hcap hnames).rounds_le_ceil hsome hroom le_rfl hname
  rw [h.allocate_eq hcap]
  refine hceil.trans ?_
  rw [zero_add, h.roundQuota_eq hcap, mul_comm]
  exact Nat.ceil_mono (mul_le_mul_of_nonneg_right (h.share_le hname) size.cast_nonneg)

/-- Where the free names run out, the pinned ones share what is left evenly, so that no name gets more
seats than a bound that leaves room for all of them. -/
theorem CappedAt.allocation_le_of_full (h : CappedAt count cap names shares pinned free)
    (hcap : CapFits count cap names) (hnames : names.Nodup) {size bound : Nat}
    (hsize : ((free.map count).sum : Nat) < size * massLeft cap pinned)
    (hceil : ⌈(cap + shareTolerance) * size⌉₊ ≤ bound)
    (hbound : size ≤ (shares.names.map fun name => min (count name) bound).sum) {name : α}
    (hname : name ∈ shares.names) :
    allocateByLargestRemainder exactArithmetic shares size (some count) name ≤ bound := by
  have hready := h.ready hcap hnames
  have htotal : (0 : ℚ) < ((free.map count).sum : Nat) := by exact_mod_cast h.freeTotal_pos hcap
  have hpositive : size ≠ 0 := by
    rintro rfl
    rw [Nat.cast_zero, zero_mul] at hsize
    exact absurd hsize (not_lt.mpr htotal.le)
  obtain ⟨-, hle, hsum⟩ := hready.rounds_spec (le_refl size)
  have hfair : Fair shares.names shares.share count
      (allocationRounds exactArithmetic shares.share count size size shares.names fun _ => 0) :=
    hready.rounds_fair (fun _ hmem hnot => absurd hmem hnot)
      (fun _ _ _ _ _ => .inr le_rfl) le_rfl
  -- the share of a free name is worth more than its count
  have hfull : ∀ name ∈ free, (count name : ℚ) ≤ size * shares.share name := by
    intro name hname
    rw [h.free_share name hname, freeShare, ← mul_div_assoc, le_div_iff₀ htotal, ← mul_assoc,
      mul_comm (count name : ℚ)]
    exact mul_le_mul_of_nonneg_right hsize.le (count name).cast_nonneg
  have hfree : ∀ name ∈ free, allocationRounds exactArithmetic shares.share count size size
      shares.names (fun _ => 0) name = count name := by
    intro name hname
    refine hready.rounds_eq_limit hpositive le_rfl (h.names_eq ▸ List.mem_append_right _ hname) ?_
    rw [h.roundQuota_eq hcap, Nat.sub_zero]
    exact hfull name hname
  rw [h.allocate_eq hcap]
  generalize allocationRounds exactArithmetic shares.share count size size shares.names (fun _ => 0) =
    allocation at *
  by_contra habove
  have hpinned : name ∈ pinned := by
    rw [h.names_eq, List.mem_append] at hname
    refine hname.resolve_right fun hmem => habove ?_
    rw [hfree name hmem]
    refine le_trans ?_ hceil
    have hcount := (hfull name hmem).trans (mul_le_mul_of_nonneg_left
      (h.share_le (h.names_eq ▸ List.mem_append_right _ hmem)) size.cast_nonneg)
    rw [mul_comm] at hcount
    exact_mod_cast hcount.trans (Nat.le_ceil _)
  have hmin : ∀ other ∈ shares.names, min (count other) bound ≤ allocation other := by
    intro other hother
    rw [h.names_eq, List.mem_append] at hother
    rcases hother with hmem | hmem
    · have hshare : shares.share name = shares.share other := by
        rw [h.pinned_share name hpinned, h.pinned_share other hmem]
      rcases hfair name hname other (h.names_eq ▸ List.mem_append_left _ hmem) hshare with heq | hlt
      · omega
      · omega
    · rw [hfree other hmem]
      exact min_le_left _ _
  have hlt := List.sum_lt_sum _ _ hmin ⟨name, hname, by omega⟩
  rw [hsum] at hlt
  have hzero : (shares.names.map fun _ => 0).sum = 0 := by simp
  omega

end Shares

section Head

variable {rows : List FrameRow}

/-- Some selection of so many instances has at most so many of each repository. -/
def SomeSelection (rows : List FrameRow) (size bound : Nat) : Prop :=
  ∃ picked, Picks rows picked ∧ picked.length = size ∧
    ∀ repo, pickedCount rows picked (·.repo == repo) ≤ bound

/-- Repositories that such a selection is from have room for it. -/
theorem SomeSelection.size_le {size bound : Nat} (h : SomeSelection rows size bound)
    (hids : (rows.map (·.instanceId)).Nodup) {names : List String} (hnames : names.Nodup)
    (hmem : ∀ row ∈ rows, row.repo ∈ names) :
    size ≤ (names.map fun repo => min (fieldCount FrameRow.repo rows repo) bound).sum := by
  obtain ⟨picked, hpicks, rfl, hle⟩ := h
  rw [← hpicks.length_pickedRows hids,
    ← @sum_fieldCount (pickedRows rows picked) FrameRow.repo names hnames
      fun row hrow => hmem row (mem_pickedRows.mp hrow).1]
  refine List.sum_le_sum fun repo _ => le_min ?_ ?_
  · exact (List.filter_sublist.map _).count_le repo
  · rw [fieldCount_eq_length]
    exact hle repo

/-- No repository has more seats in a block than the cap allows, wherever some selection keeps to
it. -/
theorem blockAllocation_le (hids : (rows.map (·.instanceId)).Nodup) {cap : ℚ}
    {shares : Shares String ℚ} (hshares : cappedRepositoryShares exactArithmetic
      (fieldNames FrameRow.repo rows) (fieldCount FrameRow.repo rows) cap = .ok shares) {size : Nat}
    (hsome : SomeSelection rows size ⌈(cap + shareTolerance) * size⌉₊) (repo : String) :
    blockAllocation exactArithmetic rows shares size repo ≤ ⌈(cap + shareTolerance) * size⌉₊ := by
  obtain ⟨shares', hok, hall⟩ := CapAccepted.sharesAll ⟨shares, hshares⟩
  obtain rfl : shares' = shares := Except.ok.inj (hok.symm.trans hshares)
  by_cases hrepo : repo ∈ shares'.names
  · rcases (cappedRepositoryShares_accepts_iff (fun name => fieldCount_pos)
      (nodup_fieldNames FrameRow.repo)).mp ⟨shares', hok⟩ with hnone | hcap
    · rw [hnone] at hok
      obtain rfl := Except.ok.inj hok
      simp at hrepo
    · obtain ⟨capped, pinned, free, hok', hcapped⟩ := hcap.cappedRepositoryShares (nodup_fieldNames _)
      obtain rfl : capped = shares' := Except.ok.inj (hok'.symm.trans hok)
      rw [blockAllocation]
      rcases le_or_gt (size * massLeft cap pinned)
        ((free.map (fieldCount FrameRow.repo rows)).sum : Nat) with hroom | hfull
      · exact hcapped.allocation_le_of_room hcap (nodup_fieldNames _) hroom hrepo
      · exact hcapped.allocation_le_of_full hcap (nodup_fieldNames _) hfull le_rfl
          (hsome.size_le hids hall.nodup hall.mem) hrepo
  · have hzero : blockAllocation exactArithmetic rows shares' size repo = 0 :=
      (allocates hall.nodup hall.pos _ _).outside repo hrepo
    rw [hzero]
    exact Nat.zero_le _

/-- The head block of a draw is its first entries. -/
theorem take_head (sha256 : List Nat → Str) (hids : (rows.map (·.instanceId)).Nodup) (seed : Int)
    {headSize totalSize : Nat} (hhead : headSize ≤ rows.length) (hsize : headSize ≤ totalSize) {cap : ℚ}
    (label : String) (hcap : CapAccepted rows cap) :
    ∃ shares draw, cappedRepositoryShares exactArithmetic (fieldNames FrameRow.repo rows)
        (fieldCount FrameRow.repo rows) cap = .ok shares ∧
      drawOrderedList exactArithmetic sha256 rows seed headSize totalSize cap label = .ok draw ∧
      ∀ repo, pickedCount rows (draw.ordered.take headSize) (·.repo == repo) =
        blockAllocation exactArithmetic rows shares headSize repo := by
  obtain ⟨shares, hshares, hall⟩ := hcap.sharesAll
  obtain ⟨hpicks, hlength, hrepo, -⟩ := hall.blockPicks_spec hids sha256 seed headSize label
  refine ⟨shares, _, hshares, drawOrderedList_eq exactArithmetic sha256 rows seed hsize label hshares,
    fun repo => ?_⟩
  have hlength' : (ranked sha256 (label ++ "-order") seed
      (blockPicks exactArithmetic sha256 rows shares seed headSize label).1).length = headSize := by
    rw [(ranked_perm ..).length_eq, hlength, Nat.min_eq_left hhead]
  rw [hrepo repo, List.take_append_of_le_length hlength'.ge, List.take_of_length_le hlength'.le]
  exact pickedCount_congr (fun _ _ => (ranked_perm ..).mem_iff) _

/-- No repository has more of the first instances of a draw than the cap and its tolerance allow,
wherever some selection keeps to that bound. -/
theorem head_within_cap (sha256 : List Nat → Str) (rows : List FrameRow)
    (hids : (rows.map (·.instanceId)).Nodup) (seed : Int) (headSize totalSize : Nat) (cap : ℚ)
    (label : String) (hcap : CapAccepted rows cap) (hhead : headSize ≤ rows.length)
    (hsize : headSize ≤ totalSize)
    (hsome : SomeSelection rows headSize ⌈(cap + shareTolerance) * headSize⌉₊) :
    ∃ draw, drawOrderedList exactArithmetic sha256 rows seed headSize totalSize cap label = .ok draw ∧
      ∀ repo, pickedCount rows (draw.ordered.take headSize) (·.repo == repo) ≤
        ⌈(cap + shareTolerance) * headSize⌉₊ := by
  obtain ⟨shares, draw, hshares, hdraw, hcount⟩ := take_head sha256 hids seed hhead hsize label hcap
  refine ⟨draw, hdraw, fun repo => ?_⟩
  rw [hcount]
  exact blockAllocation_le hids hshares hsome repo

theorem head_within_cap_twoRepositories :
    ∃ draw, drawOrderedList exactArithmetic Sha256.hexdigest twoRepositories 7 2 3 (3 / 4) "suite" =
        .ok draw ∧
      ∀ repo, pickedCount twoRepositories (draw.ordered.take 2) (·.repo == repo) ≤
        ⌈((3 / 4 : ℚ) + shareTolerance) * (2 : Nat)⌉₊ := by
  have hbound : 2 ≤ ⌈((3 / 4 : ℚ) + shareTolerance) * (2 : Nat)⌉₊ := by
    rw [Nat.succ_le_iff, Nat.lt_ceil, shareTolerance]
    norm_num
  refine head_within_cap Sha256.hexdigest twoRepositories (by decide) 7 2 3 (3 / 4) "suite"
    capAccepted_twoRepositories (by decide) (by decide)
    ⟨["i0", "i2"], ⟨by decide, by decide⟩, rfl, fun repo => ?_⟩
  exact (List.length_filter_le _ _).trans ((show 2 ≤ 2 from le_rfl).trans hbound)

end Head

section Slip

/-- A name of its own for each number. -/
def unary (k : Nat) : String := String.ofList (List.replicate k 'x')

theorem unary_injective : Function.Injective unary := by
  intro a b h
  simpa [unary] using congrArg (fun s : String => s.toList.length) h

/-- A repository with four instances and `n` with two each. -/
def steppedRows : Nat → List FrameRow
  | 0 => (List.range 4).map fun k => ⟨unary k, unary 0, "d"⟩
  | n + 1 => ⟨unary (2 * n + 4), unary (n + 1), "d"⟩ :: ⟨unary (2 * n + 5), unary (n + 1), "d"⟩ ::
      steppedRows n

theorem mem_steppedRows {n : Nat} {row : FrameRow} (h : row ∈ steppedRows n) :
    (∃ k < 2 * n + 4, row.instanceId = unary k) ∧ ∃ i ≤ n, row.repo = unary i := by
  induction n with
  | zero =>
    obtain ⟨k, hk, rfl⟩ := List.mem_map.mp h
    exact ⟨⟨k, by simpa using hk, rfl⟩, 0, le_rfl, rfl⟩
  | succ n ih =>
    rcases List.mem_cons.mp h with rfl | h
    · exact ⟨⟨_, by omega, rfl⟩, n + 1, le_rfl, rfl⟩
    rcases List.mem_cons.mp h with rfl | h
    · exact ⟨⟨_, by omega, rfl⟩, n + 1, le_rfl, rfl⟩
    obtain ⟨⟨k, hk, hid⟩, i, hi, hrepo⟩ := ih h
    exact ⟨⟨k, by omega, hid⟩, i, by omega, hrepo⟩

theorem nodup_steppedRows (n : Nat) : ((steppedRows n).map (·.instanceId)).Nodup := by
  induction n with
  | zero =>
    rw [steppedRows, List.map_map]
    exact List.nodup_range.map unary_injective
  | succ n ih =>
    have hnew : ∀ k, 2 * n + 4 ≤ k → unary k ∉ (steppedRows n).map (·.instanceId) := by
      intro k hk hmem
      obtain ⟨row, hrow, hid⟩ := List.mem_map.mp hmem
      obtain ⟨⟨j, hj, hid'⟩, -⟩ := mem_steppedRows hrow
      have heq := unary_injective (hid'.symm.trans hid)
      omega
    rw [steppedRows, List.map_cons, List.map_cons, List.nodup_cons, List.nodup_cons]
    refine ⟨fun hmem => ?_, hnew _ (by omega), ih⟩
    rcases List.mem_cons.mp hmem with heq | hmem
    · have := unary_injective heq
      omega
    · exact hnew _ le_rfl hmem

theorem length_steppedRows (n : Nat) : (steppedRows n).length = 2 * n + 4 := by
  induction n with
  | zero => rfl
  | succ n ih =>
    rw [steppedRows, List.length_cons, List.length_cons, ih]
    omega

theorem fieldCount_steppedRows {n i : Nat} (hi : i ≤ n) :
    fieldCount FrameRow.repo (steppedRows n) (unary i) = if i = 0 then 4 else 2 := by
  induction n with
  | zero =>
    obtain rfl : i = 0 := by omega
    decide
  | succ n ih =>
    have hcons : fieldCount FrameRow.repo (steppedRows (n + 1)) (unary i) =
        fieldCount FrameRow.repo (steppedRows n) (unary i) +
          (if unary (n + 1) == unary i then 1 else 0) + if unary (n + 1) == unary i then 1 else 0 := by
      rw [fieldCount, steppedRows, List.map_cons, List.map_cons, List.count_cons, List.count_cons]
      rfl
    rw [hcons]
    rcases Nat.lt_or_ge n i with hlt | hle
    · obtain rfl : i = n + 1 := by omega
      have hnone : fieldCount FrameRow.repo (steppedRows n) (unary (n + 1)) = 0 := by
        rw [fieldCount, List.count_eq_zero]
        intro hmem
        obtain ⟨row, hrow, hrepo⟩ := List.mem_map.mp hmem
        obtain ⟨-, j, hj, hrepo'⟩ := mem_steppedRows hrow
        have heq := unary_injective (hrepo'.symm.trans hrepo)
        omega
      rw [hnone]
      simp
    · have hne : (unary (n + 1) == unary i) = false := beq_false_of_ne fun heq => by
        have := unary_injective heq
        omega
      rw [ih hle, hne]
      simp

theorem repos_steppedRows (n : Nat) :
    (fieldNames FrameRow.repo (steppedRows n)).Perm ((List.range (n + 1)).map unary) := by
  refine (List.perm_ext_iff_of_nodup (nodup_fieldNames _) (List.nodup_range.map unary_injective)).mpr
    fun name => ?_
  constructor
  · intro hmem
    obtain ⟨row, hrow, rfl⟩ := mem_fieldNames.mp hmem
    obtain ⟨-, i, hi, hrepo⟩ := mem_steppedRows hrow
    exact List.mem_map.mpr ⟨i, List.mem_range.mpr (by omega), hrepo.symm⟩
  · intro hmem
    obtain ⟨i, hi, rfl⟩ := List.mem_map.mp hmem
    have hcount := fieldCount_steppedRows (Nat.lt_succ_iff.mp (List.mem_range.mp hi))
    refine List.mem_dedup.mpr (List.count_pos_iff.mp ?_)
    rw [fieldCount] at hcount
    rw [hcount]
    split <;> decide

variable {n : Nat}

theorem length_repos_steppedRows : (fieldNames FrameRow.repo (steppedRows n)).length = n + 1 := by
  rw [(repos_steppedRows n).length_eq, List.length_map, List.length_range]

theorem sum_steppedRows : ((fieldNames FrameRow.repo (steppedRows n)).map
    (fieldCount FrameRow.repo (steppedRows n))).sum = 2 * n + 4 := by
  rw [sum_fieldCount (nodup_fieldNames _) fun row hrow => mem_fieldNames_of_mem _ hrow,
    length_steppedRows]

/-- Two seats for each repository of a head of `n + 3`. -/
def steppedCap (n : Nat) : ℚ := 2 / (n + 3)

theorem steppedCap_fits (hn : 1 ≤ n) : CapFits (fieldCount FrameRow.repo (steppedRows n))
    (steppedCap n) (fieldNames FrameRow.repo (steppedRows n)) := by
  have hn' : (1 : ℚ) ≤ n := by exact_mod_cast hn
  refine ⟨fun hnone => ?_, fun name => fieldCount_pos, by rw [steppedCap]; positivity, ?_, ?_⟩
  · have hlength := length_repos_steppedRows (n := n)
    rw [hnone, List.length_nil] at hlength
    omega
  · rw [steppedCap, div_le_one (by positivity)]
    linarith
  · rw [length_repos_steppedRows, steppedCap, div_mul_eq_mul_div, le_div_iff₀ (by positivity)]
    push_cast
    linarith

theorem freeShare_steppedRows {cap : ℚ} (name : String) :
    freeShare (fieldCount FrameRow.repo (steppedRows n)) cap []
      (fieldNames FrameRow.repo (steppedRows n)) name =
        fieldCount FrameRow.repo (steppedRows n) name / (2 * n + 4) := by
  rw [freeShare, sum_steppedRows, massLeft, List.length_nil]
  push_cast
  ring

/-- For a large frame the tolerance lets the largest repository pass. -/
theorem steppedCap_unpinned (hn : 1 ≤ n) (hlarge : 2 * 10 ^ 12 ≤ (n + 2) * (n + 3)) :
    ∀ name ∈ fieldNames FrameRow.repo (steppedRows n),
      freeShare (fieldCount FrameRow.repo (steppedRows n)) (steppedCap n) []
        (fieldNames FrameRow.repo (steppedRows n)) name ≤ steppedCap n + shareTolerance := by
  intro name hname
  obtain ⟨i, hi, rfl⟩ := List.mem_map.mp ((repos_steppedRows n).mem_iff.mp hname)
  have hcount : (fieldCount FrameRow.repo (steppedRows n) (unary i) : ℚ) ≤ 4 := by
    rw [fieldCount_steppedRows (Nat.lt_succ_iff.mp (List.mem_range.mp hi))]
    split <;> norm_num
  have hlarge' : (2 * 10 ^ 12 : ℚ) ≤ (n + 2) * (n + 3) := by exact_mod_cast hlarge
  rw [freeShare_steppedRows, steppedCap, shareTolerance]
  calc (fieldCount FrameRow.repo (steppedRows n) (unary i) : ℚ) / (2 * n + 4)
      ≤ 4 / (2 * n + 4) := by gcongr
    _ = 2 / (n + 3) + 2 / ((n + 2) * (n + 3)) := by field_simp; ring
    _ ≤ 2 / (n + 3) + 1 / 10 ^ 12 := by
      gcongr 2 / (n + 3) + ?_
      rw [div_le_div_iff₀ (by positivity) (by positivity)]
      linarith

/-- The shares of the frame. -/
def steppedShares (n : Nat) : Shares String ℚ :=
  ⟨fieldNames FrameRow.repo (steppedRows n), freeShare (fieldCount FrameRow.repo (steppedRows n))
    (steppedCap n) [] (fieldNames FrameRow.repo (steppedRows n))⟩

theorem steppedShares_share (name : String) : (steppedShares n).share name =
    fieldCount FrameRow.repo (steppedRows n) name / (2 * n + 4) :=
  freeShare_steppedRows name

/-- The numbers of instances of the repositories. -/
theorem steppedCounts {name : String} (hname : name ∈ (steppedShares n).names) :
    fieldCount FrameRow.repo (steppedRows n) name = 2 ∨
      fieldCount FrameRow.repo (steppedRows n) name = 4 ∧ name = unary 0 := by
  obtain ⟨i, hi, rfl⟩ := List.mem_map.mp ((repos_steppedRows n).mem_iff.mp hname)
  have hcount := fieldCount_steppedRows (Nat.lt_succ_iff.mp (List.mem_range.mp hi))
  by_cases hzero : i = 0
  · exact .inr ⟨by rw [hcount, if_pos hzero], by rw [hzero]⟩
  · exact .inl (by rw [hcount, if_neg hzero])

section Large

variable (hn : 1 ≤ n) (hlarge : 2 * 10 ^ 12 ≤ (n + 2) * (n + 3))

include hn hlarge

theorem steppedCapped : CappedAt (fieldCount FrameRow.repo (steppedRows n)) (steppedCap n)
    (fieldNames FrameRow.repo (steppedRows n)) (steppedShares n) []
    (fieldNames FrameRow.repo (steppedRows n)) :=
  ((steppedCap_fits hn).cappedRepositoryShares_unpinned (steppedCap_unpinned hn hlarge)).2

/-- A repository has half of its instances as quota, and a little more. -/
theorem steppedQuota (name : String) :
    roundQuota exactArithmetic (steppedShares n).share (n + 3) (steppedShares n).names name =
      fieldCount FrameRow.repo (steppedRows n) name / 2 +
        fieldCount FrameRow.repo (steppedRows n) name / (2 * (n + 2)) := by
  rw [(steppedCapped hn hlarge).roundQuota_eq (steppedCap_fits hn), steppedShares_share]
  push_cast
  field_simp
  ring

theorem steppedFloor {name : String} (hname : name ∈ (steppedShares n).names) :
    2 * ⌊roundQuota exactArithmetic (steppedShares n).share (n + 3) (steppedShares n).names name⌋₊ =
        fieldCount FrameRow.repo (steppedRows n) name ∧
      remainder (steppedShares n).share (n + 3) (steppedShares n).names name =
        fieldCount FrameRow.repo (steppedRows n) name / (2 * (n + 2)) := by
  have hn' : (1 : ℚ) ≤ n := by exact_mod_cast hn
  have hsmall : (2 : ℚ) / (n + 2) < 1 := by
    rw [div_lt_one (by positivity)]
    linarith
  have hfloor : ∃ k : Nat, fieldCount FrameRow.repo (steppedRows n) name = 2 * k ∧ k ≤ 2 := by
    rcases steppedCounts hname with hcount | ⟨hcount, -⟩
    · exact ⟨1, hcount, by decide⟩
    · exact ⟨2, hcount, le_rfl⟩
  obtain ⟨k, hcount, hk⟩ := hfloor
  have hk' : (k : ℚ) ≤ 2 := by exact_mod_cast hk
  have hquota := steppedQuota hn hlarge name
  have hpart : ((2 * k : Nat) : ℚ) / (2 * (n + 2)) = k / (n + 2) := by
    push_cast
    field_simp
  have hhalf : ((2 * k : Nat) : ℚ) / 2 = k := by
    push_cast
    field_simp
  rw [hcount, hhalf, hpart] at hquota
  have hlt : (k : ℚ) / (n + 2) < 1 := lt_of_le_of_lt (by gcongr) hsmall
  have heq : ⌊roundQuota exactArithmetic (steppedShares n).share (n + 3) (steppedShares n).names
      name⌋₊ = k := by
    rw [hquota, Nat.floor_eq_iff (by positivity)]
    exact ⟨le_add_of_nonneg_right (by positivity), by linarith⟩
  refine ⟨by rw [heq, hcount], ?_⟩
  rw [remainder_eq, heq, hquota, hcount, hpart, add_sub_cancel_left]

/-- The largest repository gets three seats of a head of `n + 3`. -/
theorem steppedAllocation : blockAllocation exactArithmetic (steppedRows n) (steppedShares n) (n + 3)
    (unary 0) = 3 := by
  have hn' : (1 : ℚ) ≤ n := by exact_mod_cast hn
  have hcapped := steppedCapped hn hlarge
  have hcap := steppedCap_fits hn
  have hready := hcapped.ready hcap (nodup_fieldNames _)
  have hfour : fieldCount FrameRow.repo (steppedRows n) (unary 0) = 4 :=
    fieldCount_steppedRows (Nat.zero_le n)
  have hmem : unary 0 ∈ (steppedShares n).names := (repos_steppedRows n).mem_iff.mpr
    (List.mem_map_of_mem (List.mem_range.mpr (Nat.succ_pos n)))
  have hsome : (steppedShares n).names ≠ [] := List.ne_nil_of_mem hmem
  have hroom : ∀ name ∈ (steppedShares n).names,
      roundQuota exactArithmetic (steppedShares n).share (n + 3) (steppedShares n).names name ≤
        (fieldCount FrameRow.repo (steppedRows n) name - 0 : Nat) := by
    intro name hname
    have hhalf : (fieldCount FrameRow.repo (steppedRows n) name : ℚ) / (2 * (n + 2)) ≤
        fieldCount FrameRow.repo (steppedRows n) name / 2 := by
      gcongr
      linarith
    rw [steppedQuota hn hlarge, Nat.sub_zero]
    linarith
  have hwhole : ∀ name ∈ (steppedShares n).names,
      2 * wholeSeats exactArithmetic (steppedShares n).share (fieldCount FrameRow.repo (steppedRows n))
        (n + 3) (steppedShares n).names (fun _ => 0) name =
          fieldCount FrameRow.repo (steppedRows n) name := fun name hname => by
    rw [wholeSeats_eq_floor (hroom name hname)]
    exact (steppedFloor hn hlarge hname).1
  -- the whole seats are half of the frame, which leaves one seat
  have hsum : 2 * ((steppedShares n).names.map (wholeSeats exactArithmetic (steppedShares n).share
      (fieldCount FrameRow.repo (steppedRows n)) (n + 3) (steppedShares n).names fun _ => 0)).sum =
      2 * n + 4 := by
    rw [← List.sum_map_mul_left, List.map_congr_left hwhole]
    exact sum_steppedRows
  have hleft : n + 3 - ((steppedShares n).names.map (wholeSeats exactArithmetic (steppedShares n).share
      (fieldCount FrameRow.repo (steppedRows n)) (n + 3) (steppedShares n).names fun _ => 0)).sum = 1 := by
    omega
  have hextra : unary 0 ∈ roundExtras exactArithmetic (steppedShares n).share
      (fieldCount FrameRow.repo (steppedRows n)) (n + 3) (steppedShares n).names fun _ => 0 := by
    rw [roundExtras, extraSeats_eq_take, hleft]
    have hspare : unary 0 ∈ (seatOrder exactArithmetic (steppedShares n).share (n + 3)
        (steppedShares n).names).filter (hasSpareSeat exactArithmetic (steppedShares n).share
          (fieldCount FrameRow.repo (steppedRows n)) (n + 3) (steppedShares n).names fun _ => 0) := by
      have hhalf := hwhole _ hmem
      refine List.mem_filter.mpr ⟨mem_seatOrder.mpr hmem, decide_eq_true ?_⟩
      rw [zero_add]
      omega
    have hsorted := (@pairwise_seatOrder _ _ (steppedShares n).share (n + 3)
      (steppedShares n).names).filter (hasSpareSeat exactArithmetic (steppedShares n).share
        (fieldCount FrameRow.repo (steppedRows n)) (n + 3) (steppedShares n).names fun _ => 0)
    have hsubset : ∀ name ∈ (seatOrder exactArithmetic (steppedShares n).share (n + 3)
        (steppedShares n).names).filter (hasSpareSeat exactArithmetic (steppedShares n).share
          (fieldCount FrameRow.repo (steppedRows n)) (n + 3) (steppedShares n).names fun _ => 0),
        name ∈ (steppedShares n).names := fun name hname =>
      mem_seatOrder.mp (List.mem_filter.mp hname).1
    generalize (seatOrder exactArithmetic (steppedShares n).share (n + 3)
        (steppedShares n).names).filter (hasSpareSeat exactArithmetic (steppedShares n).share
          (fieldCount FrameRow.repo (steppedRows n)) (n + 3) (steppedShares n).names fun _ => 0) =
        order at *
    cases order with
    | nil => simp at hspare
    | cons first rest =>
      rcases List.mem_cons.mp hspare with heq | hrest
      · simp [heq]
      · -- no other repository has as large a remainder
        have hle := (List.pairwise_cons.mp hsorted).1 _ hrest
        have hfirst := hsubset first (List.mem_cons_self ..)
        rw [(steppedFloor hn hlarge hmem).2, (steppedFloor hn hlarge hfirst).2, hfour] at hle
        rcases steppedCounts hfirst with htwo | ⟨-, rfl⟩
        · rw [htwo, div_le_div_iff_of_pos_right (by positivity)] at hle
          norm_num at hle
        · simp
  have hawarded : awardedSeats exactArithmetic (steppedShares n).share
      (fieldCount FrameRow.repo (steppedRows n)) (n + 3) (steppedShares n).names (fun _ => 0)
        (unary 0) = 3 := by
    have hcount := List.nodup_iff_count_le_one.mp (@RoundReady.extras_spec _ _ _ _ (n + 3) _ hready _).1
      (unary 0)
    have hpos := List.count_pos_iff.mpr hextra
    have hhalf := hwhole _ hmem
    rw [awardedSeats, if_pos (List.contains_iff_mem.mpr hmem)]
    omega
  rw [blockAllocation, hcapped.allocate_eq hcap, hready.allocationRounds_succ (by omega) hsome,
    allocationRounds_of_done, hawarded]
  left
  rw [hready.sum_awarded_eq hsome hroom, Nat.sub_self]

end Large

/-- Picking the instances of the first rows picks these rows. -/
theorem pickedRows_take {rows : List FrameRow} (hids : (rows.map (·.instanceId)).Nodup) (k : Nat) :
    pickedRows rows ((rows.take k).map (·.instanceId)) = rows.take k := by
  have hkept : ∀ row ∈ rows.take k,
      ((rows.take k).map (·.instanceId)).contains row.instanceId = true := fun row hrow =>
    List.contains_iff_mem.mpr (List.mem_map_of_mem hrow)
  have hleft : ∀ row ∈ rows.drop k,
      ¬((rows.take k).map (·.instanceId)).contains row.instanceId = true := by
    intro row hrow hmem
    rw [← List.take_append_drop k rows, List.map_append, List.nodup_append] at hids
    exact hids.2.2 _ (List.contains_iff_mem.mp hmem) _ (List.mem_map_of_mem hrow) rfl
  rw [pickedRows]
  conv_lhs => rw [← List.take_append_drop k rows]
  rw [List.filter_append]
  simp only [List.take_append_drop]
  rw [List.filter_eq_self.mpr hkept, List.filter_eq_nil_iff.mpr hleft, List.append_nil]

theorem take_steppedRows (n : Nat) :
    (((steppedRows n).take (2 * n + 2)).filter (·.repo == unary 0)).length = 2 := by
  induction n with
  | zero => decide
  | succ n ih =>
    have hne : (unary (n + 1) == unary 0) = false := beq_false_of_ne fun heq =>
      absurd (unary_injective heq) (Nat.succ_ne_zero n)
    rw [show 2 * (n + 1) + 2 = 2 * n + 2 + 1 + 1 by omega, steppedRows, List.take_succ_cons,
      List.take_succ_cons, List.filter_cons_of_neg (by simp [hne]),
      List.filter_cons_of_neg (by simp [hne]), ih]

/-- A head of `n + 3` can be selected with two instances of a repository at most. -/
theorem someSelection_steppedRows (hn : 1 ≤ n) : SomeSelection (steppedRows n) (n + 3) 2 := by
  have hids := nodup_steppedRows n
  have hsub : ((steppedRows n).take (n + 3)).Sublist ((steppedRows n).take (2 * n + 2)) :=
    List.take_sublist_take_left (by omega)
  refine ⟨((steppedRows n).take (n + 3)).map (·.instanceId),
    ⟨((List.take_sublist _ _).map _).nodup hids, fun _ hmem => ?_⟩, ?_, fun repo => ?_⟩
  · exact ((List.take_sublist _ _).map _).subset hmem
  · rw [List.length_map, List.length_take, length_steppedRows]
    omega
  · rw [pickedCount, pickedRows_take hids]
    refine (hsub.filter _).length_le.trans ?_
    by_cases hrepo : repo ∈ fieldNames FrameRow.repo (steppedRows n)
    · rcases steppedCounts hrepo with hcount | ⟨-, rfl⟩
      · rw [fieldCount_eq_length] at hcount
        exact ((List.take_sublist _ _).filter _).length_le.trans hcount.le
      · exact (take_steppedRows n).le
    · rw [List.filter_eq_nil_iff.mpr]
      · exact Nat.zero_le 2
      · intro row hrow hfield
        exact hrepo (mem_fieldNames.mpr ⟨row, List.mem_of_mem_take hrow, eq_of_beq hfield⟩)

/-- In a large frame the first `n + 3` instances hold three of one repository. -/
theorem steppedHead (sha256 : List Nat → Str) (seed : Int) (label : String) (hn : 1 ≤ n)
    (hlarge : 2 * 10 ^ 12 ≤ (n + 2) * (n + 3)) : CapAccepted (steppedRows n) (steppedCap n) ∧
      ∃ draw, drawOrderedList exactArithmetic sha256 (steppedRows n) seed (n + 3) (n + 3)
          (steppedCap n) label = .ok draw ∧
        pickedCount (steppedRows n) (draw.ordered.take (n + 3)) (·.repo == unary 0) = 3 := by
  have hok := ((steppedCap_fits hn).cappedRepositoryShares_unpinned
    (steppedCap_unpinned hn hlarge)).1
  have hcap : CapAccepted (steppedRows n) (steppedCap n) := ⟨_, hok⟩
  obtain ⟨shares, draw, hshares, hdraw, hcount⟩ := take_head sha256 (nodup_steppedRows n) seed
    (by rw [length_steppedRows]; omega) (le_refl (n + 3)) label hcap
  obtain rfl : steppedShares n = shares := Except.ok.inj (hok.symm.trans hshares)
  exact ⟨hcap, draw, hdraw, (hcount _).trans (steppedAllocation hn hlarge)⟩

theorem ceil_steppedCap : ⌈steppedCap n * (n + 3 : Nat)⌉₊ = 2 := by
  have hcap : steppedCap n * (n + 3 : Nat) = (2 : Nat) := by
    rw [steppedCap]
    push_cast
    field_simp
  rw [hcap, Nat.ceil_natCast]

/-- Without the tolerance the cap does not bound the head: a frame of four million instances has a
selection with two instances of a repository at most, and its draw has three of one. -/
theorem head_above_cap :
    ((steppedRows 2000000).map (·.instanceId)).Nodup ∧
      CapAccepted (steppedRows 2000000) (steppedCap 2000000) ∧
      2000003 ≤ (steppedRows 2000000).length ∧
      SomeSelection (steppedRows 2000000) 2000003 ⌈steppedCap 2000000 * (2000003 : Nat)⌉₊ ∧
      ∃ draw, drawOrderedList exactArithmetic Sha256.hexdigest (steppedRows 2000000) 0 2000003 2000003
          (steppedCap 2000000) "suite" = .ok draw ∧
        ⌈steppedCap 2000000 * (2000003 : Nat)⌉₊ <
          pickedCount (steppedRows 2000000) (draw.ordered.take 2000003) (·.repo == unary 0) := by
  obtain ⟨hcap, draw, hdraw, hcount⟩ := steppedHead Sha256.hexdigest 0 "suite"
    (show 1 ≤ 2000000 by norm_num) (by norm_num)
  have hceil : ⌈steppedCap 2000000 * (2000003 : Nat)⌉₊ = 2 := @ceil_steppedCap 2000000
  refine ⟨nodup_steppedRows _, hcap, ?_, ?_, draw, hdraw, ?_⟩
  · rw [length_steppedRows]
    norm_num
  · rw [hceil]
    exact someSelection_steppedRows (by norm_num)
  · rw [hceil, show (2000003 : Nat) = 2000000 + 3 from rfl, hcount]
    decide

end Slip

end OpenCollabEval
