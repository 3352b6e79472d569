import OpenCollabEval.Python.JsonText
import OpenCollabEval.Python.Sha256
import Mathlib.Data.String.Basic
import Mathlib.Data.Rat.Floor
import Mathlib.Data.List.Sort

/-!
# Drawing the task suite

The draw that the main grid is run on: repository shares with a cap, seats by largest remainder, and
a ranking of the instances by digest. A head block is drawn over the whole frame, a tail block over
what is left, and each is put in order by itself.
-/

open Python

namespace OpenCollabEval

/-- One instance of the sampling frame, reduced to what the draw reads. -/
structure FrameRow where
  instanceId : String
  repo : String
  difficulty : String
  deriving DecidableEq

/-- An ordered draw plus the allocation it was produced from. A name that a mapping does not have
counts as 0. -/
structure SuiteDraw where
  ordered : List String
  repositoryAllocation : String → Nat
  stratumAllocation : String × String → Nat

/-- The arithmetic of shares and quotas. -/
structure Arithmetic (K : Type) where
  ofNat : Nat → K
  sub : K → K → K
  mul : K → K → K
  div : K → K → K
  /-- `sum`. -/
  sum : List K → K
  /-- `math.fsum`. -/
  fsum : List K → K
  lt : K → K → Bool
  /-- `int` of a quota, which is never negative. -/
  trunc : K → Nat
  /-- `value + 1e-12`. -/
  addTolerance : K → K

/-- `1e-12`. -/
def shareTolerance : ℚ := 1 / 10 ^ 12

/-- Shares and quotas as rationals. -/
def exactArithmetic : Arithmetic ℚ where
  ofNat n := n
  sub a b := a - b
  mul a b := a * b
  div a b := a / b
  sum values := values.sum
  fsum values := values.sum
  lt a b := decide (a < b)
  trunc a := ⌊a⌋₊
  addTolerance a := a + shareTolerance

/-- A mapping from names to shares. -/
structure Shares (α K : Type) where
  names : List α
  share : α → K

section Allocation

variable {K α : Type} (ar : Arithmetic K) [LinearOrder α]

/-- The rounds of `capped_repository_shares`: names above the cap are pinned to it until none is. -/
def cappedShares (count : α → Nat) (cap : K) : Nat → List α → List α → Shares α K
  | 0, pinned, _ => ⟨pinned, fun _ => cap⟩
  | rounds + 1, pinned, free =>
    let freeMass := ar.sub (ar.ofNat 1) (ar.sum (pinned.map fun _ => cap))
    let freeTotal := (free.map count).sum
    let share := fun name => ar.div (ar.mul freeMass (ar.ofNat (count name))) (ar.ofNat freeTotal)
    let above := fun name => ar.lt (ar.addTolerance cap) (share name)
    if freeTotal = 0 then ⟨pinned, fun _ => cap⟩
    else if free.any above then
      cappedShares count cap rounds (pinned ++ free.filter above) (free.filter (!above ·))
    else ⟨pinned ++ free, fun name => if pinned.contains name then cap else share name⟩

/-- `capped_repository_shares`. -/
def cappedRepositoryShares (names : List α) (count : α → Nat) (cap : K) :
    Except PyErr (Shares α K) :=
  if names.isEmpty then .ok ⟨[], fun _ => cap⟩
  else if (names.map count).sum = 0 then .error .valueError
  else if !(ar.lt (ar.ofNat 0) cap && !ar.lt (ar.ofNat 1) cap) then .error .valueError
  else if ar.lt (ar.mul cap (ar.ofNat names.length)) (ar.ofNat 1) then .error .valueError
  -- every round but the last pins a name
  else .ok (cappedShares ar count cap (names.length + 1) [] names)

/-- The names that get one of the seats left, in order: those that have room. -/
def extraSeats (room : α → Bool) : Nat → List α → List α
  | 0, _ => []
  | _ + 1, [] => []
  | left + 1, name :: rest =>
    if room name then name :: extraSeats room left rest else extraSeats room (left + 1) rest

/-- `q - int(q)`. -/
def fractionalPart (quota : K) : K := ar.sub quota (ar.ofNat (ar.trunc quota))

/-- The order in which seats are left over to names: the largest fractional part first, ties broken
by name. -/
def byRemainder (quota : α → K) (a b : α) : Bool :=
  let part := fun name => fractionalPart ar (quota name)
  ar.lt (part b) (part a) || (!ar.lt (part a) (part b) && decide (a ≤ b))

/-- The quota of a name in one round. -/
def roundQuota (share : α → K) (remaining : Nat) (active : List α) (name : α) : K :=
  ar.div (ar.mul (ar.ofNat remaining) (share name)) (ar.fsum (active.map share))

/-- The whole seats that a round awards to a name that is not full. -/
def wholeSeats (share : α → K) (limit : α → Nat) (remaining : Nat) (active : List α)
    (allocation : α → Nat) (name : α) : Nat :=
  min (ar.trunc (roundQuota ar share remaining active name)) (limit name - allocation name)

/-- Whether a name has room for more than its whole seats. -/
def hasSpareSeat (share : α → K) (limit : α → Nat) (remaining : Nat) (active : List α)
    (allocation : α → Nat) (name : α) : Bool :=
  decide (allocation name + wholeSeats ar share limit remaining active allocation name < limit name)

/-- The names of a round in the order in which seats are left over to them. -/
def seatOrder (share : α → K) (remaining : Nat) (active : List α) : List α :=
  active.insertionSort (byRemainder ar (roundQuota ar share remaining active) · ·)

/-- The names that a round awards one of the seats that are left over. -/
def roundExtras (share : α → K) (limit : α → Nat) (remaining : Nat) (active : List α)
    (allocation : α → Nat) : List α :=
  extraSeats (hasSpareSeat ar share limit remaining active allocation)
    (remaining - (active.map (wholeSeats ar share limit remaining active allocation)).sum)
    (seatOrder ar share remaining active)

/-- What one round of `allocate_by_largest_remainder` awards to the names that are not full. -/
def awardedSeats (share : α → K) (limit : α → Nat) (remaining : Nat) (active : List α)
    (allocation : α → Nat) (name : α) : Nat :=
  if active.contains name then
    wholeSeats ar share limit remaining active allocation name +
      (roundExtras ar share limit remaining active allocation).count name
  else 0

/-- The rounds of `allocate_by_largest_remainder`. Each of them awards a seat, so that there are no
more rounds than seats. -/
def allocationRounds (share : α → K) (limit : α → Nat) :
    Nat → Nat → List α → (α → Nat) → α → Nat
  | 0, _, _, allocation => allocation
  | rounds + 1, remaining, active, allocation =>
    let awarded := awardedSeats ar share limit remaining active allocation
    let total := (active.map awarded).sum
    let allocation' := fun name => allocation name + awarded name
    if remaining = 0 || active.isEmpty || !ar.lt (ar.ofNat 0) (ar.fsum (active.map share)) ||
        total = 0 then allocation
    else
      allocationRounds share limit rounds (remaining - total)
        (active.filter fun name => decide (allocation' name < limit name)) allocation'

/-- `allocate_by_largest_remainder`. Without `available` no name has a limit of its own. -/
def allocateByLargestRemainder (shares : Shares α K) (total : Nat) (available : Option (α → Nat)) :
    α → Nat :=
  let limit := available.getD fun _ => total
  let active := shares.names.filter fun name =>
    ar.lt (ar.ofNat 0) (shares.share name) && decide (0 < limit name)
  allocationRounds ar shares.share limit total total active fun _ => 0

end Allocation

section Draw

variable {K : Type} (ar : Arithmetic K) (sha256 : List Nat → Str)

/-- `_rank_key`. -/
def rankKey (label : String) (seed : Int) (instanceId : String) : Str :=
  sha256 (lit label ++ lit ":" ++ intStr seed ++ lit ":" ++ lit instanceId).encodeSurrogatePass

/-- Instances in the order of their rank keys. -/
def ranked (label : String) (seed : Int) (ids : List String) : List String :=
  ids.insertionSort fun a b => Str.le (rankKey sha256 label seed a) (rankKey sha256 label seed b)

/-- The distinct values of a field. -/
def fieldNames (field : FrameRow → String) (rows : List FrameRow) : List String :=
  (rows.map field).dedup

/-- `Counter(row.field for row in rows)`. -/
def fieldCount (field : FrameRow → String) (rows : List FrameRow) (name : String) : Nat :=
  (rows.map field).count name

/-- The instances of a repository that `_select` picks for its seats, with the seats of each
difficulty. Both are empty when the repository has no seats or no instances. -/
def selectRepository (label : String) (seed : Int) (candidates : List FrameRow) (seats : Nat) :
    List String × (String → Nat) :=
  let names := fieldNames FrameRow.difficulty candidates
  let available := fieldCount FrameRow.difficulty candidates
  let shares := ⟨names, fun name =>
    ar.div (ar.ofNat (available name)) (ar.ofNat candidates.length)⟩
  let perDifficulty := allocateByLargestRemainder ar shares seats (some available)
  let pool := fun name => ranked sha256 label seed
    ((candidates.filter (·.difficulty == name)).map (·.instanceId))
  (((names.insertionSort (· ≤ ·)).flatMap fun name => (pool name).take (perDifficulty name)),
    perDifficulty)

/-- `_select`: the picked instances and the seats of each stratum. -/
def selectInstances (label : String) (seed : Int) (rows : List FrameRow) (names : List String)
    (allocation : String → Nat) : List String × (String × String → Nat) :=
  let selected := fun repo => selectRepository ar sha256 label seed
    (rows.filter (·.repo == repo)) (allocation repo)
  ((names.insertionSort (· ≤ ·)).flatMap fun repo => (selected repo).1,
    fun stratum => (selected stratum.1).2 stratum.2)

/-- `draw_ordered_list`. -/
def drawOrderedList (rows : List FrameRow) (seed : Int) (headSize totalSize : Nat) (cap : K)
    (label : String) : Except PyErr SuiteDraw := do
  if totalSize < headSize then throw .valueError
  let names := fieldNames FrameRow.repo rows
  let shares ← cappedRepositoryShares ar names (fieldCount FrameRow.repo rows) cap
  let headAllocation := allocateByLargestRemainder ar shares headSize
    (some (fieldCount FrameRow.repo rows))
  let (head, headStrata) := selectInstances ar sha256 label seed rows shares.names headAllocation
  let rest := rows.filter fun row => !head.contains row.instanceId
  let tailAllocation := allocateByLargestRemainder ar shares (totalSize - headSize)
    (some (fieldCount FrameRow.repo rest))
  let (tail, tailStrata) := selectInstances ar sha256 (label ++ "-tail") seed rest shares.names
    tailAllocation
  return ⟨ranked sha256 (label ++ "-order") seed head ++
      ranked sha256 (label ++ "-tail-order") seed tail,
    fun repo => headAllocation repo + tailAllocation repo,
    fun stratum => headStrata stratum + tailStrata stratum⟩

end Draw

end OpenCollabEval
