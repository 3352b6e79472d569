import Mathlib.Logic.Function.Basic
import Mathlib.Order.Lattice

/-!
# The best items by key

A table that keeps for each key the first item with the highest score among those it has seen. What it
holds in the end does not depend on the order of the items, as long as items of one key have different
scores.
-/

namespace OpenCollabEval

variable {κ σ α : Type} [DecidableEq κ] [LinearOrder σ] (key : α → κ) (score : α → σ)

/-- An item replaces the one of its key when it has a higher score. -/
def keepBest (table : κ → Option α) (item : α) : κ → Option α :=
  if (table (key item)).all fun best => score best < score item then
    Function.update table (key item) (some item)
  else table

/-- A table holds an item with the highest score for each key of some items. -/
structure IsBest (items : List α) (table : κ → Option α) : Prop where
  mem : ∀ k best, table k = some best → best ∈ items ∧ key best = k
  isSome : ∀ item ∈ items, (table (key item)).isSome
  le : ∀ k best, table k = some best → ∀ item ∈ items, key item = k → score item ≤ score best

variable {key score} {items : List α} {table : κ → Option α}

omit [DecidableEq κ] in
theorem isBest_nil : IsBest key score [] fun _ => none :=
  ⟨by simp, by simp, by simp⟩

/-- One more item is kept if it is better. -/
theorem IsBest.keep (h : IsBest key score items table) (item : α) :
    IsBest key score (items ++ [item]) (keepBest key score table item) := by
  unfold keepBest
  split
  · rename_i hbetter
    refine ⟨fun k best hbest => ?_, fun other hother => ?_, fun k best hbest other hother hkey => ?_⟩
    · by_cases hk : k = key item
      · subst hk
        rw [Function.update_self] at hbest
        cases hbest
        exact ⟨by simp, rfl⟩
      · rw [Function.update_of_ne hk] at hbest
        obtain ⟨hmem, hkey⟩ := h.mem k best hbest
        exact ⟨List.mem_append_left _ hmem, hkey⟩
    · by_cases hk : key other = key item
      · rw [hk, Function.update_self]
        rfl
      · rw [Function.update_of_ne hk]
        rcases List.mem_append.mp hother with hother | hother
        · exact h.isSome other hother
        · exact absurd (congrArg key (List.mem_singleton.mp hother)) hk
    · by_cases hk : k = key item
      · subst hk
        rw [Function.update_self] at hbest
        cases hbest
        rcases List.mem_append.mp hother with hother | hother
        · obtain ⟨best, hbest⟩ := Option.isSome_iff_exists.mp (h.isSome other hother)
          have hle := h.le _ best hbest other hother rfl
          rw [hkey] at hbest
          rw [hbest] at hbetter
          exact le_trans hle (le_of_lt (of_decide_eq_true hbetter))
        · rw [List.mem_singleton.mp hother]
      · rw [Function.update_of_ne hk] at hbest
        rcases List.mem_append.mp hother with hother | hother
        · exact h.le k best hbest other hother hkey
        · rw [List.mem_singleton.mp hother] at hkey
          exact absurd hkey.symm hk
  · rename_i hworse
    -- The key of the item has one already that is no worse.
    have hkept : ∃ best, table (key item) = some best ∧ score item ≤ score best := by
      cases hbest : table (key item) with
      | none => simp [hbest] at hworse
      | some best => exact ⟨best, rfl, by simpa [hbest] using hworse⟩
    obtain ⟨kept, hkept, hle⟩ := hkept
    refine ⟨fun k best hbest => ?_, fun other hother => ?_, fun k best hbest other hother hkey => ?_⟩
    · obtain ⟨hmem, hkey⟩ := h.mem k best hbest
      exact ⟨List.mem_append_left _ hmem, hkey⟩
    · rcases List.mem_append.mp hother with hother | hother
      · exact h.isSome other hother
      · rw [List.mem_singleton.mp hother, hkept]
        rfl
    · rcases List.mem_append.mp hother with hother | hother
      · exact h.le k best hbest other hother hkey
      · rw [List.mem_singleton.mp hother] at hkey ⊢
        rw [hkey, hbest] at hkept
        cases hkept
        exact hle

omit [DecidableEq κ] in
/-- The best item of a key is better than the others that it has. -/
theorem IsBest.exists_best (h : IsBest key score items table) {item : α} (hitem : item ∈ items) :
    ∃ best ∈ items, table (key item) = some best ∧ key best = key item ∧
      ∀ other ∈ items, key other = key item → score other ≤ score best := by
  obtain ⟨best, hbest⟩ := Option.isSome_iff_exists.mp (h.isSome item hitem)
  obtain ⟨hmem, hkey⟩ := h.mem _ best hbest
  exact ⟨best, hmem, hbest, hkey, h.le _ best hbest⟩

omit [DecidableEq κ] in
/-- Two tables over the same items agree when no two items of a key have one score. -/
theorem IsBest.unique {items' : List α} {table' : κ → Option α} (h : IsBest key score items table)
    (h' : IsBest key score items' table') (hitems : ∀ item, item ∈ items ↔ item ∈ items')
    (hscore : ∀ item ∈ items, ∀ other ∈ items, score item = score other → item = other) :
    table = table' := by
  funext k
  cases hbest : table k with
  | none =>
    cases hbest' : table' k with
    | none => rfl
    | some best' =>
      obtain ⟨hmem', hkey'⟩ := h'.mem k best' hbest'
      have hsome := h.isSome best' ((hitems best').mpr hmem')
      rw [hkey', hbest] at hsome
      cases hsome
  | some best =>
    obtain ⟨hmem, hkey⟩ := h.mem k best hbest
    obtain ⟨best', hmem', hbest', hkey', hle'⟩ := h'.exists_best ((hitems best).mp hmem)
    have hle := h.le k best hbest best' ((hitems best').mpr hmem') (hkey'.trans hkey)
    have heq := hscore best hmem best' ((hitems best').mpr hmem')
      (le_antisymm (hle' best ((hitems best).mp hmem) rfl) hle)
    rw [← hkey, hbest', heq]

end OpenCollabEval
