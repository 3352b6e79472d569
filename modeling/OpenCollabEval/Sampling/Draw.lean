import OpenCollabEval.Sampling.CappedShares

/-!
# A draw is complete

What `draw_ordered_list` returns over exact arithmetic: distinct instances of the frame, as many as
were asked for or all of them, with a head block that stands alone and an allocation that counts them.
-/

open Python

namespace OpenCollabEval

section Picks

/-- Distinct instances of some rows. -/
structure Picks (rows : List FrameRow) (picked : List String) : Prop where
  nodup : picked.Nodup
  mem : ∀ instanceId ∈ picked, instanceId ∈ rows.map (·.instanceId)

/-- The rows whose instances are picked. -/
def pickedRows (rows : List FrameRow) (picked : List String) : List FrameRow :=
  rows.filter fun row => picked.contains row.instanceId

/-- How many picked rows pass a test. -/
def pickedCount (rows : List FrameRow) (picked : List String) (p : FrameRow → Bool) : Nat :=
  ((pickedRows rows picked).filter p).length

variable {rows : List FrameRow} {picked : List String}

theorem mem_pickedRows {row : FrameRow} :
    row ∈ pickedRows rows picked ↔ row ∈ rows ∧ row.instanceId ∈ picked := by
  simp [pickedRows]

theorem pickedCount_congr {picked' : List String} (h : ∀ row ∈ rows,
    (row.instanceId ∈ picked ↔ row.instanceId ∈ picked')) (p : FrameRow → Bool) :
    pickedCount rows picked p = pickedCount rows picked' p := by
  rw [pickedCount, pickedCount, pickedRows, pickedRows]
  congr 2
  refine List.filter_congr fun row hrow => ?_
  rw [Bool.eq_iff_iff, List.contains_iff_mem, List.contains_iff_mem]
  exact h row hrow

/-- Rows with one instance are one row. -/
theorem row_unique (hids : (rows.map (·.instanceId)).Nodup) {row other : FrameRow} (hrow : row ∈ rows)
    (hother : other ∈ rows) (h : row.instanceId = other.instanceId) : row = other :=
  List.inj_on_of_nodup_map hids hrow hother h

/-- Distinct instances have as many rows. -/
theorem Picks.length_pickedRows (h : Picks rows picked) (hids : (rows.map (·.instanceId)).Nodup) :
    (pickedRows rows picked).length = picked.length := by
  rw [← List.length_map (f := FrameRow.instanceId)]
  refine List.Perm.length_eq ((List.perm_ext_iff_of_nodup ?_ h.nodup).mpr fun instanceId => ?_)
  · exact (List.filter_sublist.map _).nodup hids
  · constructor
    · intro hmem
      obtain ⟨row, hrow, rfl⟩ := List.mem_map.mp hmem
      exact (mem_pickedRows.mp hrow).2
    · intro hmem
      obtain ⟨row, hrow, rfl⟩ := List.mem_map.mp (h.mem instanceId hmem)
      exact List.mem_map_of_mem (mem_pickedRows.mpr ⟨hrow, hmem⟩)

theorem Picks.perm (h : Picks rows picked) {picked' : List String} (hperm : picked'.Perm picked) :
    Picks rows picked' :=
  ⟨hperm.nodup_iff.mpr h.nodup, fun instanceId hmem => h.mem instanceId (hperm.mem_iff.mp hmem)⟩

/-- The first of some distinct instances are distinct instances. -/
theorem Picks.take (h : Picks rows picked) (n : Nat) : Picks rows (picked.take n) :=
  ⟨(List.take_sublist _ _).nodup h.nodup,
    fun instanceId hmem => h.mem instanceId (List.mem_of_mem_take hmem)⟩

theorem Picks.of_rows (hids : (rows.map (·.instanceId)).Nodup) :
    Picks rows (rows.map (·.instanceId)) :=
  ⟨hids, fun _ hmem => hmem⟩

end Picks

section Blocks

variable {rows : List FrameRow} {field : FrameRow → String} {names : List String}
  {block : String → List String}

/-- Rows of which each has its own instance. -/
theorem ids_filter (hids : (rows.map (·.instanceId)).Nodup) (p : FrameRow → Bool) :
    ((rows.filter p).map (·.instanceId)).Nodup :=
  (List.filter_sublist.map _).nodup hids

/-- A row is picked with the others of its field, and only with these. -/
theorem mem_flatMap_blocks (hids : (rows.map (·.instanceId)).Nodup)
    (hblock : ∀ name ∈ names, Picks (rows.filter (field · == name)) (block name)) {row : FrameRow}
    (hrow : row ∈ rows) (hname : field row ∈ names) :
    row.instanceId ∈ names.flatMap block ↔ row.instanceId ∈ block (field row) := by
  rw [List.mem_flatMap]
  constructor
  · rintro ⟨name, hmem, hpicked⟩
    obtain ⟨other, hother, heq⟩ := List.mem_map.mp ((hblock name hmem).mem _ hpicked)
    obtain ⟨hother, hfield⟩ := List.mem_filter.mp hother
    rw [row_unique hids hother hrow heq] at hfield
    rwa [eq_of_beq hfield]
  · exact fun hpicked => ⟨field row, hname, hpicked⟩

/-- Distinct instances of the rows of each name are distinct instances. -/
theorem picks_flatMap (hids : (rows.map (·.instanceId)).Nodup) (hnames : names.Nodup)
    (hblock : ∀ name ∈ names, Picks (rows.filter (field · == name)) (block name)) :
    Picks rows (names.flatMap block) := by
  refine ⟨List.nodup_flatMap.mpr ⟨fun name hname => (hblock name hname).nodup, ?_⟩, ?_⟩
  · refine hnames.imp_of_mem fun {a b} ha hb hne => ?_
    intro instanceId hmem hmem'
    obtain ⟨row, hrow, rfl⟩ := List.mem_map.mp ((hblock a ha).mem _ hmem)
    obtain ⟨other, hother, heq⟩ := List.mem_map.mp ((hblock b hb).mem _ hmem')
    obtain ⟨hrow, hfield⟩ := List.mem_filter.mp hrow
    obtain ⟨hother, hfield'⟩ := List.mem_filter.mp hother
    rw [row_unique hids hother hrow heq] at hfield'
    exact hne ((eq_of_beq hfield).symm.trans (eq_of_beq hfield'))
  · intro instanceId hmem
    obtain ⟨name, hname, hmem⟩ := List.mem_flatMap.mp hmem
    have hrow := (hblock name hname).mem _ hmem
    exact (List.filter_sublist.map _).subset hrow

/-- The picked rows of a name are those of its block. -/
theorem pickedRows_flatMap (hids : (rows.map (·.instanceId)).Nodup)
    (hblock : ∀ name ∈ names, Picks (rows.filter (field · == name)) (block name)) {name : String}
    (hname : name ∈ names) : (pickedRows rows (names.flatMap block)).filter (field · == name) =
      pickedRows (rows.filter (field · == name)) (block name) := by
  rw [pickedRows, pickedRows, List.filter_filter, List.filter_filter]
  refine List.filter_congr fun row hrow => ?_
  cases hfield : field row == name with
  | false => simp
  | true =>
    obtain rfl := eq_of_beq hfield
    rw [Bool.true_and, Bool.and_true, Bool.eq_iff_iff, List.contains_iff_mem, List.contains_iff_mem]
    exact mem_flatMap_blocks hids hblock hrow hname

end Blocks

section Select

variable {rows : List FrameRow}

theorem nodup_fieldNames (field : FrameRow → String) : (fieldNames field rows).Nodup :=
  List.nodup_dedup _

theorem mem_fieldNames {field : FrameRow → String} {name : String} :
    name ∈ fieldNames field rows ↔ ∃ row ∈ rows, field row = name := by
  rw [fieldNames, List.mem_dedup, List.mem_map]

theorem mem_fieldNames_of_mem (field : FrameRow → String) {row : FrameRow} (h : row ∈ rows) :
    field row ∈ fieldNames field rows :=
  mem_fieldNames.mpr ⟨row, h, rfl⟩

theorem fieldCount_eq_length (field : FrameRow → String) (name : String) :
    fieldCount field rows name = (rows.filter (field · == name)).length := by
  rw [fieldCount, List.count_eq_countP, List.countP_map, List.countP_eq_length_filter]
  rfl

theorem fieldCount_pos {field : FrameRow → String} {name : String}
    (h : name ∈ fieldNames field rows) : 0 < fieldCount field rows name := by
  rw [fieldCount, List.count_pos_iff]
  exact List.mem_dedup.mp h

/-- The rows of all names are all rows. -/
theorem sum_fieldCount {field : FrameRow → String} {names : List String} (hnames : names.Nodup)
    (h : ∀ row ∈ rows, field row ∈ names) :
    (names.map (fieldCount field rows)).sum = rows.length := by
  rw [← @List.length_map _ _ rows field]
  exact sum_map_count hnames fun name hname => by
    obtain ⟨row, hrow, rfl⟩ := List.mem_map.mp hname
    exact h row hrow

theorem ranked_perm (sha256 : List Nat → Str) (label : String) (seed : Int) (ids : List String) :
    (ranked sha256 label seed ids).Perm ids :=
  List.perm_insertionSort _ _

/-- The shares of the difficulties in a repository. -/
def difficultyShares (rows : List FrameRow) : Shares String ℚ :=
  ⟨fieldNames FrameRow.difficulty rows, fun name =>
    fieldCount FrameRow.difficulty rows name / rows.length⟩

/-- The seats of the difficulties in a repository. -/
def difficultySeats (rows : List FrameRow) (seats : Nat) : String → Nat :=
  allocateByLargestRemainder exactArithmetic (difficultyShares rows) seats
    (some (fieldCount FrameRow.difficulty rows))

theorem difficultySeats_allocates (rows : List FrameRow) (seats : Nat) :
    Allocates (fieldNames FrameRow.difficulty rows) seats (fieldCount FrameRow.difficulty rows)
      (difficultySeats rows seats) := by
  refine @allocates _ _ (difficultyShares rows) (nodup_fieldNames _) (fun name hname => ?_) _ _
  have hcount := fieldCount_pos hname
  obtain ⟨row, hrow, -⟩ := mem_fieldNames.mp hname
  have hlength := List.length_pos_of_mem hrow
  rw [difficultyShares]
  positivity

variable (sha256 : List Nat → Str) (label : String) (seed : Int)

/-- The instances that `_select` picks from one difficulty of a repository. -/
def difficultyBlock (rows : List FrameRow) (seats : Nat) (name : String) : List String :=
  (ranked sha256 label seed ((rows.filter (·.difficulty == name)).map (·.instanceId))).take
    (difficultySeats rows seats name)

theorem difficultyBlock_picks (hids : (rows.map (·.instanceId)).Nodup) (seats : Nat) (name : String) :
    Picks (rows.filter (·.difficulty == name)) (difficultyBlock sha256 label seed rows seats name) :=
  ((Picks.of_rows (ids_filter hids _)).perm (ranked_perm _ _ _ _)).take _

theorem length_difficultyBlock (seats : Nat) (name : String) :
    (difficultyBlock sha256 label seed rows seats name).length = difficultySeats rows seats name := by
  rw [difficultyBlock, List.length_take, (ranked_perm _ _ _ _).length_eq, List.length_map,
    ← fieldCount_eq_length FrameRow.difficulty]
  exact Nat.min_eq_left ((difficultySeats_allocates rows seats).le name)

theorem selectRepository_eq (seats : Nat) :
    selectRepository exactArithmetic sha256 label seed rows seats =
      (((fieldNames FrameRow.difficulty rows).insertionSort (· ≤ ·)).flatMap
        (difficultyBlock sha256 label seed rows seats), difficultySeats rows seats) := rfl

/-- `_select` fills the seats of a repository that has as many instances, and counts what it picks
from each difficulty. -/
theorem selectRepository_spec (hids : (rows.map (·.instanceId)).Nodup) {seats : Nat}
    (hseats : seats ≤ rows.length) :
    Picks rows (selectRepository exactArithmetic sha256 label seed rows seats).1 ∧
      (selectRepository exactArithmetic sha256 label seed rows seats).1.length = seats ∧
      ∀ difficulty, (selectRepository exactArithmetic sha256 label seed rows seats).2 difficulty =
        pickedCount rows (selectRepository exactArithmetic sha256 label seed rows seats).1
          (·.difficulty == difficulty) := by
  have hsort := List.perm_insertionSort (· ≤ ·) (fieldNames FrameRow.difficulty rows)
  have hnodup := hsort.nodup_iff.mpr (nodup_fieldNames FrameRow.difficulty)
  have hblock := fun name (_ : name ∈ (fieldNames FrameRow.difficulty rows).insertionSort (· ≤ ·)) =>
    difficultyBlock_picks sha256 label seed hids seats name
  have hall := difficultySeats_allocates rows seats
  rw [selectRepository_eq]
  refine ⟨picks_flatMap hids hnodup hblock, ?_, fun name => ?_⟩
  · rw [List.length_flatMap, List.map_congr_left fun name _ => length_difficultyBlock sha256 label seed seats name,
      (hsort.map _).sum_eq, hall.sum, sum_fieldCount (nodup_fieldNames _)
        fun row hrow => mem_fieldNames_of_mem _ hrow]
    exact Nat.min_eq_left hseats
  · show difficultySeats rows seats name = pickedCount _ _ _
    by_cases hname : name ∈ fieldNames FrameRow.difficulty rows
    · rw [pickedCount, pickedRows_flatMap hids hblock (hsort.mem_iff.mpr hname),
        (hblock name (hsort.mem_iff.mpr hname)).length_pickedRows (ids_filter hids _),
        length_difficultyBlock]
    · rw [hall.outside name hname, pickedCount, List.filter_eq_nil_iff.mpr]
      · rfl
      · intro row hrow hfield
        exact hname (mem_fieldNames.mpr ⟨row, (mem_pickedRows.mp hrow).1, eq_of_beq hfield⟩)

/-- `_select` fills the seats of every repository, and counts what it picks from each stratum. -/
theorem selectInstances_spec (hids : (rows.map (·.instanceId)).Nodup) {names : List String}
    (hnames : names.Nodup) (hrepo : ∀ row ∈ rows, row.repo ∈ names) {allocation : String → Nat}
    (hle : ∀ repo, allocation repo ≤ fieldCount FrameRow.repo rows repo) :
    Picks rows (selectInstances exactArithmetic sha256 label seed rows names allocation).1 ∧
      (∀ repo, allocation repo =
        pickedCount rows (selectInstances exactArithmetic sha256 label seed rows names allocation).1
          (·.repo == repo)) ∧
      ∀ stratum, (selectInstances exactArithmetic sha256 label seed rows names allocation).2 stratum =
        pickedCount rows (selectInstances exactArithmetic sha256 label seed rows names allocation).1
          fun row => (row.repo, row.difficulty) == stratum := by
  have hsort := List.perm_insertionSort (· ≤ ·) names
  have hnodup := hsort.nodup_iff.mpr hnames
  have hspec := fun repo => selectRepository_spec sha256 label seed (ids_filter hids (·.repo == repo))
    (le_of_le_of_eq (hle repo) (fieldCount_eq_length FrameRow.repo repo))
  have hblock := fun repo (_ : repo ∈ names.insertionSort (· ≤ ·)) => (hspec repo).1
  have hpicked : ∀ repo,
      (pickedRows rows (selectInstances exactArithmetic sha256 label seed rows names allocation).1).filter
        (·.repo == repo) = pickedRows (rows.filter (·.repo == repo))
          (selectRepository exactArithmetic sha256 label seed (rows.filter (·.repo == repo))
            (allocation repo)).1 := by
    intro repo
    by_cases hname : repo ∈ names
    · exact pickedRows_flatMap hids hblock (hsort.mem_iff.mpr hname)
    · have hnone : rows.filter (·.repo == repo) = [] := List.filter_eq_nil_iff.mpr
        fun row hrow hfield => hname (eq_of_beq hfield ▸ hrepo row hrow)
      rw [hnone, pickedRows, List.filter_comm, hnone]
      rfl
  refine ⟨picks_flatMap hids hnodup hblock, fun repo => ?_, fun stratum => ?_⟩
  · rw [pickedCount, hpicked, (hspec repo).1.length_pickedRows (ids_filter hids _), (hspec repo).2.1]
  · have hstratum : (fun row : FrameRow => (row.repo, row.difficulty) == stratum) =
        fun row => row.difficulty == stratum.2 && row.repo == stratum.1 := by
      funext row
      rw [Bool.and_comm]
      rfl
    rw [pickedCount, hstratum, ← List.filter_filter, hpicked]
    exact (hspec stratum.1).2.2 stratum.2

end Select

section Draw

variable {K : Type} (ar : Arithmetic K)

/-- The seats of the repositories in a block. -/
def blockAllocation (rows : List FrameRow) (shares : Shares String K) (size : Nat) : String → Nat :=
  allocateByLargestRemainder ar shares size (some (fieldCount FrameRow.repo rows))

/-- The instances of a block, and the seats of its strata. -/
def blockPicks (sha256 : List Nat → Str) (rows : List FrameRow) (shares : Shares String K)
    (seed : Int) (size : Nat) (label : String) : List String × (String × String → Nat) :=
  selectInstances ar sha256 label seed rows shares.names (blockAllocation ar rows shares size)

/-- The head block of a draw by itself, in its order. -/
def headBlock (sha256 : List Nat → Str) (rows : List FrameRow) (seed : Int) (headSize : Nat) (cap : K)
    (label : String) : Except PyErr (List String) := do
  let shares ← cappedRepositoryShares ar (fieldNames FrameRow.repo rows)
    (fieldCount FrameRow.repo rows) cap
  return ranked sha256 (label ++ "-order") seed
    (blockPicks ar sha256 rows shares seed headSize label).1

/-- The rows that the head block leaves. -/
def tailRows (rows : List FrameRow) (head : List String) : List FrameRow :=
  rows.filter fun row => !head.contains row.instanceId

variable {rows : List FrameRow} {head tail : List String}

/-- What is picked from the rows left is picked besides the head block. -/
theorem Picks.append (hhead : Picks rows head) (htail : Picks (tailRows rows head) tail) :
    Picks rows (head ++ tail) := by
  refine ⟨List.nodup_append.mpr ⟨hhead.nodup, htail.nodup, fun a ha b hb heq => ?_⟩, ?_⟩
  · subst heq
    obtain ⟨row, hrow, rfl⟩ := List.mem_map.mp (htail.mem _ hb)
    simp [tailRows, ha] at hrow
  · intro instanceId hmem
    rcases List.mem_append.mp hmem with hmem | hmem
    · exact hhead.mem _ hmem
    · exact (List.filter_sublist.map _).subset (htail.mem _ hmem)

/-- The picked rows are those of the head block and those of the tail block. -/
theorem pickedCount_append (p : FrameRow → Bool) :
    pickedCount rows (head ++ tail) p =
      pickedCount rows head p + pickedCount (tailRows rows head) tail p := by
  induction rows with
  | nil => rfl
  | cons row rest ih =>
    simp only [pickedCount, pickedRows, tailRows, List.filter_filter,
      ← List.countP_eq_length_filter] at ih ⊢
    simp only [List.countP_cons, ih]
    by_cases hhead : row.instanceId ∈ head
    · simp [hhead]
      omega
    · simp [hhead]
      omega

theorem length_tailRows (hids : (rows.map (·.instanceId)).Nodup) (hhead : Picks rows head) :
    (tailRows rows head).length = rows.length - head.length := by
  have hlength := List.length_eq_length_filter_add (l := rows) fun row => head.contains row.instanceId
  have hpicked := hhead.length_pickedRows hids
  rw [pickedRows] at hpicked
  rw [tailRows]
  omega

theorem ranked_picks (h : Picks rows head) (sha256 : List Nat → Str) (label : String) (seed : Int) :
    Picks rows (ranked sha256 label seed head) :=
  h.perm (ranked_perm _ _ _ _)

/-- `draw_ordered_list` once the shares are known. -/
theorem drawOrderedList_eq (sha256 : List Nat → Str) (rows : List FrameRow) (seed : Int)
    {headSize totalSize : Nat} (hsize : headSize ≤ totalSize) {cap : K} (label : String)
    {shares : Shares String K} (hshares : cappedRepositoryShares ar
      (fieldNames FrameRow.repo rows) (fieldCount FrameRow.repo rows) cap = .ok shares) :
    drawOrderedList ar sha256 rows seed headSize totalSize cap label =
      let head := blockPicks ar sha256 rows shares seed headSize label
      let rest := tailRows rows head.1
      let tail := blockPicks ar sha256 rest shares seed (totalSize - headSize) (label ++ "-tail")
      .ok ⟨ranked sha256 (label ++ "-order") seed head.1 ++
          ranked sha256 (label ++ "-tail-order") seed tail.1,
        fun repo => blockAllocation ar rows shares headSize repo +
          blockAllocation ar rest shares (totalSize - headSize) repo,
        fun stratum => head.2 stratum + tail.2 stratum⟩ := by
  simp only [drawOrderedList, if_neg (by omega : ¬totalSize < headSize), hshares]
  rfl

end Draw

section Complete

variable {rows : List FrameRow} {shares : Shares String ℚ}

/-- Shares over the repositories of some rows that leave none out. -/
structure SharesAll (rows : List FrameRow) (shares : Shares String ℚ) : Prop where
  nodup : shares.names.Nodup
  pos : ∀ name ∈ shares.names, 0 < shares.share name
  mem : ∀ row ∈ rows, row.repo ∈ shares.names

/-- A block has distinct instances, as many as it has seats or all, and counts them. -/
theorem SharesAll.blockPicks_spec (h : SharesAll rows shares)
    (hids : (rows.map (·.instanceId)).Nodup) (sha256 : List Nat → Str) (seed : Int) (size : Nat)
    (label : String) :
    Picks rows (blockPicks exactArithmetic sha256 rows shares seed size label).1 ∧
      (blockPicks exactArithmetic sha256 rows shares seed size label).1.length =
        min size rows.length ∧
      (∀ repo, blockAllocation exactArithmetic rows shares size repo = pickedCount rows
        (blockPicks exactArithmetic sha256 rows shares seed size label).1 (·.repo == repo)) ∧
      ∀ stratum, (blockPicks exactArithmetic sha256 rows shares seed size label).2 stratum =
        pickedCount rows (blockPicks exactArithmetic sha256 rows shares seed size label).1
          fun row => (row.repo, row.difficulty) == stratum := by
  have hall : Allocates shares.names size (fieldCount FrameRow.repo rows)
      (blockAllocation exactArithmetic rows shares size) := allocates h.nodup h.pos _ _
  obtain ⟨hpicks, hrepo, hstratum⟩ :=
    selectInstances_spec sha256 label seed hids h.nodup h.mem hall.le
  refine ⟨hpicks, ?_, hrepo, hstratum⟩
  -- the picked rows are counted by repository
  calc _ = (pickedRows rows (blockPicks exactArithmetic sha256 rows shares seed size label).1).length :=
        (hpicks.length_pickedRows hids).symm
    _ = (shares.names.map (fieldCount FrameRow.repo (pickedRows rows
          (blockPicks exactArithmetic sha256 rows shares seed size label).1))).sum :=
        (sum_fieldCount h.nodup fun row hrow => h.mem row (mem_pickedRows.mp hrow).1).symm
    _ = (shares.names.map (blockAllocation exactArithmetic rows shares size)).sum := by
        rw [List.map_congr_left fun repo _ => ?_]
        rw [hrepo, fieldCount_eq_length]
        rfl
    _ = min size rows.length := by rw [hall.sum, sum_fieldCount h.nodup h.mem]

/-- The rows left have no other repositories. -/
theorem SharesAll.tailRows (h : SharesAll rows shares) (head : List String) :
    SharesAll (tailRows rows head) shares :=
  ⟨h.nodup, h.pos, fun row hrow => h.mem row (List.mem_filter.mp hrow).1⟩

/-- A cap that `capped_repository_shares` accepts for the repositories of the frame. -/
def CapAccepted (rows : List FrameRow) (cap : ℚ) : Prop :=
  ∃ shares, cappedRepositoryShares exactArithmetic (fieldNames FrameRow.repo rows)
    (fieldCount FrameRow.repo rows) cap = .ok shares

/-- The shares of a cap that is accepted leave no repository out. -/
theorem CapAccepted.sharesAll {cap : ℚ} (h : CapAccepted rows cap) :
    ∃ shares, cappedRepositoryShares exactArithmetic (fieldNames FrameRow.repo rows)
      (fieldCount FrameRow.repo rows) cap = .ok shares ∧ SharesAll rows shares := by
  rcases (cappedRepositoryShares_accepts_iff (fun name => fieldCount_pos)
    (nodup_fieldNames FrameRow.repo)).mp h with hnone | hcap
  · refine ⟨⟨[], fun _ => cap⟩, by rw [hnone]; rfl, List.nodup_nil, by simp, fun row hrow => ?_⟩
    have hmem := mem_fieldNames_of_mem FrameRow.repo hrow
    rwa [hnone] at hmem
  · obtain ⟨shares, pinned, free, hok, hcapped⟩ := hcap.cappedRepositoryShares (nodup_fieldNames _)
    have hperm : shares.names.Perm (fieldNames FrameRow.repo rows) := hcapped.names_eq ▸ hcapped.all
    exact ⟨shares, hok, hperm.nodup_iff.mpr (nodup_fieldNames _), hcapped.pos hcap,
      fun row hrow => hperm.mem_iff.mpr (mem_fieldNames_of_mem _ hrow)⟩

end Complete

section Growth

variable {K : Type} (ar : Arithmetic K)

/-- A block without seats is empty. -/
theorem blockPicks_zero (sha256 : List Nat → Str) (rows : List FrameRow) (shares : Shares String K)
    (seed : Int) (label : String) : (blockPicks ar sha256 rows shares seed 0 label).1 = [] := by
  have hnone : ∀ repo, (selectRepository ar sha256 label seed (rows.filter (·.repo == repo)) 0).1 = [] :=
    fun repo => List.flatMap_eq_nil_iff.mpr fun _ _ => List.take_zero
  exact List.flatMap_eq_nil_iff.mpr fun repo _ => hnone repo

/-- A draw begins with its head block, whatever its size, and without a tail it is its head block. A
draw that grows keeps its head block in place, and one that was no longer than it is a prefix of every
longer one. -/
theorem draw_grows_from_head (sha256 : List Nat → Str) (rows : List FrameRow) (seed : Int)
    (headSize small large : Nat) (cap : K) (label : String) (hhead : headSize ≤ small)
    (hgrow : small ≤ large) {first second : SuiteDraw}
    (hfirst : drawOrderedList ar sha256 rows seed headSize small cap label = .ok first)
    (hsecond : drawOrderedList ar sha256 rows seed headSize large cap label = .ok second) :
    ∃ head, headBlock ar sha256 rows seed headSize cap label = .ok head ∧
      head <+: first.ordered ∧ head <+: second.ordered ∧
      (small = headSize → first.ordered <+: second.ordered) := by
  cases hshares : cappedRepositoryShares ar (fieldNames FrameRow.repo rows)
      (fieldCount FrameRow.repo rows) cap with
  | error e =>
    simp only [drawOrderedList, if_neg (by omega : ¬small < headSize), hshares] at hfirst
    exact absurd hfirst (by rintro ⟨⟩)
  | ok shares =>
    rw [drawOrderedList_eq ar sha256 rows seed hhead label hshares] at hfirst
    rw [drawOrderedList_eq ar sha256 rows seed (hhead.trans hgrow) label hshares] at hsecond
    obtain rfl := Except.ok.inj hfirst
    obtain rfl := Except.ok.inj hsecond
    refine ⟨_, by rw [headBlock, hshares]; rfl, List.prefix_append .., List.prefix_append .., ?_⟩
    rintro rfl
    simp only [Nat.sub_self, blockPicks_zero]
    exact (List.append_nil _).symm ▸ List.prefix_append ..

/-- Three instances of one stratum. -/
def threeRows : List FrameRow := [⟨"i0", "r", "d"⟩, ⟨"i1", "r", "d"⟩, ⟨"i2", "r", "d"⟩]

theorem draw_grows_from_head_three : ∃ first second head,
    drawOrderedList exactArithmetic Sha256.hexdigest threeRows 0 1 1 1 "suite" = .ok first ∧
    drawOrderedList exactArithmetic Sha256.hexdigest threeRows 0 1 2 1 "suite" = .ok second ∧
    headBlock exactArithmetic Sha256.hexdigest threeRows 0 1 1 "suite" = .ok head ∧
    head <+: first.ordered ∧ head <+: second.ordered ∧
    ((1 : Nat) = 1 → first.ordered <+: second.ordered) := by
  obtain ⟨first, hfirst, -⟩ := exists_of_any_toOption (p := fun _ => true)
    (x := drawOrderedList exactArithmetic Sha256.hexdigest threeRows 0 1 1 1 "suite") (by decide +kernel)
  obtain ⟨second, hsecond, -⟩ := exists_of_any_toOption (p := fun _ => true)
    (x := drawOrderedList exactArithmetic Sha256.hexdigest threeRows 0 1 2 1 "suite") (by decide +kernel)
  obtain ⟨head, h⟩ := draw_grows_from_head exactArithmetic Sha256.hexdigest threeRows 0 1 1 2 1 "suite"
    (by decide) (by decide) hfirst hsecond
  exact ⟨first, second, head, hfirst, hsecond, h⟩

/-- A draw of two instances does not begin with the draw of one: the tail is put in order anew. -/
theorem drawOrderedList_not_prefix : ∃ first second,
    drawOrderedList exactArithmetic Sha256.hexdigest threeRows 0 0 1 1 "suite" = .ok first ∧
    drawOrderedList exactArithmetic Sha256.hexdigest threeRows 0 0 2 1 "suite" = .ok second ∧
    first.ordered = ["i1"] ∧ second.ordered = ["i2", "i1"] ∧ ¬first.ordered <+: second.ordered := by
  obtain ⟨first, hfirst, hone⟩ := exists_of_any_toOption (p := fun draw => draw.ordered == ["i1"])
    (x := drawOrderedList exactArithmetic Sha256.hexdigest threeRows 0 0 1 1 "suite") (by decide +kernel)
  obtain ⟨second, hsecond, htwo⟩ := exists_of_any_toOption (p := fun draw => draw.ordered == ["i2", "i1"])
    (x := drawOrderedList exactArithmetic Sha256.hexdigest threeRows 0 0 2 1 "suite") (by decide +kernel)
  have hone := eq_of_beq hone
  have htwo := eq_of_beq htwo
  exact ⟨first, second, hfirst, hsecond, hone, htwo, by rw [hone, htwo]; decide⟩

end Growth

section Results

variable (sha256 : List Nat → Str) (rows : List FrameRow) (seed : Int) (headSize totalSize : Nat)
  (label : String)

/-- A draw is never short and never repeats: it has distinct instances of the frame, as many as were
asked for or all of them, the head block comes first, and the allocations count what was drawn. -/
theorem draw_complete (hids : (rows.map (·.instanceId)).Nodup) (cap : ℚ) (hcap : CapAccepted rows cap)
    (hsize : headSize ≤ totalSize) :
    ∃ draw, drawOrderedList exactArithmetic sha256 rows seed headSize totalSize cap label = .ok draw ∧
      draw.ordered.Nodup ∧
      (∀ instanceId ∈ draw.ordered, instanceId ∈ rows.map (·.instanceId)) ∧
      draw.ordered.length = min totalSize rows.length ∧
      headBlock exactArithmetic sha256 rows seed headSize cap label =
        .ok (draw.ordered.take (min headSize rows.length)) ∧
      (∀ repo, draw.repositoryAllocation repo =
        pickedCount rows draw.ordered (·.repo == repo)) ∧
      ∀ stratum, draw.stratumAllocation stratum =
        pickedCount rows draw.ordered fun row => (row.repo, row.difficulty) == stratum := by
  obtain ⟨shares, hshares, hall⟩ := hcap.sharesAll
  obtain ⟨hhead, hheadLength, hheadRepo, hheadStratum⟩ :=
    hall.blockPicks_spec hids sha256 seed headSize label
  set head := blockPicks exactArithmetic sha256 rows shares seed headSize label with hheadEq
  obtain ⟨htail, htailLength, htailRepo, htailStratum⟩ := (hall.tailRows head.1).blockPicks_spec
    (ids_filter hids _) sha256 seed (totalSize - headSize) (label ++ "-tail")
  set tail := blockPicks exactArithmetic sha256 (tailRows rows head.1) shares seed
    (totalSize - headSize) (label ++ "-tail") with htailEq
  have hdraw := drawOrderedList_eq exactArithmetic sha256 rows seed hsize label hshares
  have hperm : (ranked sha256 (label ++ "-order") seed head.1 ++
      ranked sha256 (label ++ "-tail-order") seed tail.1).Perm (head.1 ++ tail.1) :=
    (ranked_perm ..).append (ranked_perm ..)
  have hpicks := (hhead.append htail).perm hperm
  have hcount : ∀ p, pickedCount rows (ranked sha256 (label ++ "-order") seed head.1 ++
      ranked sha256 (label ++ "-tail-order") seed tail.1) p =
      pickedCount rows head.1 p + pickedCount (tailRows rows head.1) tail.1 p := fun p =>
    (pickedCount_congr (fun _ _ => hperm.mem_iff) p).trans (pickedCount_append p)
  refine ⟨_, hdraw, hpicks.nodup, hpicks.mem, ?_, ?_, fun repo => ?_, fun stratum => ?_⟩
  · rw [hperm.length_eq, List.length_append, hheadLength, htailLength, length_tailRows hids hhead,
      hheadLength]
    omega
  · rw [headBlock, hshares, List.take_append_of_le_length, List.take_of_length_le]
    · rfl
    · rw [(ranked_perm ..).length_eq, hheadLength]
    · rw [(ranked_perm ..).length_eq, hheadLength]
  · rw [hcount, ← hheadRepo, ← htailRepo]
  · rw [hcount, ← hheadStratum, ← htailStratum]

/-- Two repositories, one with two difficulties. -/
def twoRepositories : List FrameRow := [⟨"i0", "a", "d"⟩, ⟨"i1", "a", "e"⟩, ⟨"i2", "b", "d"⟩]

theorem capAccepted_twoRepositories : CapAccepted twoRepositories (3 / 4) := by
  refine (cappedRepositoryShares_accepts_iff (fun name => fieldCount_pos)
    (nodup_fieldNames FrameRow.repo)).mpr (.inr ⟨by decide, by decide, by norm_num, by norm_num, ?_⟩)
  rw [show (fieldNames FrameRow.repo twoRepositories).length = 2 by decide]
  norm_num

theorem draw_complete_twoRepositories :
    ∃ draw, drawOrderedList exactArithmetic Sha256.hexdigest twoRepositories 7 1 2 (3 / 4) "suite" =
        .ok draw ∧
      draw.ordered.Nodup ∧
      (∀ instanceId ∈ draw.ordered, instanceId ∈ twoRepositories.map (·.instanceId)) ∧
      draw.ordered.length = min 2 twoRepositories.length ∧
      headBlock exactArithmetic Sha256.hexdigest twoRepositories 7 1 (3 / 4) "suite" =
        .ok (draw.ordered.take (min 1 twoRepositories.length)) ∧
      (∀ repo, draw.repositoryAllocation repo =
        pickedCount twoRepositories draw.ordered (·.repo == repo)) ∧
      ∀ stratum, draw.stratumAllocation stratum =
        pickedCount twoRepositories draw.ordered fun row => (row.repo, row.difficulty) == stratum :=
  draw_complete Sha256.hexdigest twoRepositories 7 1 2 "suite" (by decide) (3 / 4)
    capAccepted_twoRepositories (by decide)

end Results

end OpenCollabEval
