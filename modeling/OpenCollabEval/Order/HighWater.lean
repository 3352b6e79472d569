import Mathlib.Algebra.Order.BigOperators.Group.Finset
import Mathlib.Algebra.BigOperators.Group.Finset.Piecewise
import Mathlib.Algebra.Order.Ring.Nat

/-!
# High-water marks

Items that record cumulative counts by key. The mark of a key is the highest count among its items,
and an item raises it by what its count is above the mark before it. The raises of all items are the
marks of all keys, whatever the order of the items.
-/

namespace OpenCollabEval

section Marks

variable {κ α : Type} [DecidableEq κ] (key : α → κ) (count : α → Nat)

/-- The highest count among the items of a key, 0 when there is none. -/
def highWater (items : List α) (k : κ) : Nat :=
  ((items.filter fun item => decide (key item = k)).map count).foldr max 0

/-- One item: what its count raises the mark of its key by, and the marks after it. -/
def raiseStep (state : (κ → Nat) × List (α × Nat)) (item : α) : (κ → Nat) × List (α × Nat) :=
  let previous := state.1 (key item)
  (Function.update state.1 (key item) (max previous (count item)),
    state.2 ++ [(item, count item - previous)])

/-- The items with what each raises the mark of its key by. -/
def raises (items : List α) : List (α × Nat) :=
  (items.foldl (raiseStep key count) (fun _ => 0, [])).2

variable {key count} {items more : List α} {item : α} {k : κ}

/-- A mark is a bound on the counts of its key, and the least. -/
theorem highWater_le_iff {bound : Nat} :
    highWater key count items k ≤ bound ↔ ∀ item ∈ items, key item = k → count item ≤ bound := by
  induction items with
  | nil => simp [highWater]
  | cons first rest ih =>
    rw [List.forall_mem_cons, ← ih, highWater, List.filter_cons]
    by_cases hkey : key first = k
    · rw [if_pos (decide_eq_true hkey), List.map_cons, List.foldr_cons, max_le_iff]
      simp [hkey, highWater]
    · rw [if_neg (by simpa using hkey)]
      simp [hkey, highWater]

theorem count_le_highWater (hitem : item ∈ items) :
    count item ≤ highWater key count items (key item) :=
  highWater_le_iff.mp le_rfl item hitem rfl

/-- More items have no lower marks. -/
theorem highWater_mono (h : items ⊆ more) : highWater key count items k ≤ highWater key count more k := by
  apply highWater_le_iff.mpr
  rintro item hitem rfl
  exact count_le_highWater (h hitem)

/-- The marks do not depend on the order of the items. -/
theorem highWater_perm (h : items.Perm more) : highWater key count items k = highWater key count more k :=
  le_antisymm (highWater_mono h.subset) (highWater_mono h.symm.subset)

theorem highWater_append_singleton :
    highWater key count (items ++ [item]) =
      Function.update (highWater key count items) (key item)
        (max (highWater key count items (key item)) (count item)) := by
  funext k
  apply eq_of_forall_ge_iff
  intro bound
  rw [highWater_le_iff, List.forall_mem_append, ← highWater_le_iff, List.forall_mem_singleton]
  by_cases hkey : k = key item
  · subst hkey
    simp
  · rw [Function.update_of_ne hkey]
    simp [Ne.symm hkey]

/-- What is known of a key does not depend on the items of other keys. -/
theorem highWater_filter {p : α → Bool} (h : ∀ item ∈ items, key item = k → p item = true) :
    highWater key count (items.filter p) k = highWater key count items k := by
  refine le_antisymm (highWater_mono (List.filter_subset_self _)) (highWater_le_iff.mpr ?_)
  rintro item hitem rfl
  exact count_le_highWater (List.mem_filter.mpr ⟨hitem, h item hitem rfl⟩)

/-- A key without an item has no mark. -/
theorem highWater_eq_zero (h : ∀ item ∈ items, key item ≠ k) : highWater key count items k = 0 :=
  Nat.le_zero.mp (highWater_le_iff.mpr fun item hitem hkey => absurd hkey (h item hitem))

variable (key count items) in
/-- The state of the loop is the marks of the items it has seen. -/
theorem foldl_raiseStep :
    (items.foldl (raiseStep key count) (fun _ => 0, [])) =
      (highWater key count items, raises key count items) := by
  induction items using List.reverseRecOn with
  | nil => rfl
  | append_singleton items item ih =>
    rw [raises, List.foldl_append, ih, highWater_append_singleton]
    rfl

variable (key count items item) in
theorem raises_append_singleton :
    raises key count (items ++ [item]) =
      raises key count items ++ [(item, count item - highWater key count items (key item))] := by
  rw [raises, List.foldl_append, foldl_raiseStep]
  rfl

/-- The raises of all items are the marks of all keys. -/
theorem sum_raises {keys : Finset κ} (hkeys : ∀ item ∈ items, key item ∈ keys) :
    ((raises key count items).map Prod.snd).sum = ∑ k ∈ keys, highWater key count items k := by
  induction items using List.reverseRecOn with
  | nil => simp [raises, highWater]
  | append_singleton items item ih =>
    rw [List.forall_mem_append, List.forall_mem_singleton] at hkeys
    have hsum := ih hkeys.1
    have hrest := Finset.add_sum_erase keys (highWater key count items) hkeys.2
    rw [raises_append_singleton, List.map_append, List.sum_append, highWater_append_singleton,
      Finset.sum_update_of_mem hkeys.2, Finset.sdiff_singleton_eq_erase]
    simp only [List.map_cons, List.map_nil, List.sum_singleton]
    omega

end Marks

end OpenCollabEval
