import Mathlib.Data.Finset.Card
import Mathlib.Logic.Function.Basic

/-!
# Matchings

A matching gives right vertices a left vertex that they are adjacent to, no left vertex twice. A
matching that is maximum for some left vertices becomes one for one more of them in two ways: it grows
by one, or the search from the new vertex ends in a set of left vertices that owns all its neighbours.
-/

namespace OpenCollabEval

section Matching

variable {α β : Type} [DecidableEq α] [DecidableEq β] {adj : α → List β} {lefts : Finset α}
  {rights : Finset β} {m : β → Option α} {start : α}

/-- A matching of left vertices: the owners of the right vertices. -/
structure IsMatching (adj : α → List β) (lefts : Finset α) (m : β → Option α) : Prop where
  adjacent : ∀ right left, m right = some left → right ∈ adj left
  left_mem : ∀ right left, m right = some left → left ∈ lefts
  unique : ∀ right right' left, m right = some left → m right' = some left → right = right'

/-- The right vertices that have an owner. -/
def owned (rights : Finset β) (m : β → Option α) : Finset β :=
  rights.filter fun right => (m right).isSome

/-- A matching with as many owned vertices as any. -/
structure IsMaximum (adj : α → List β) (lefts : Finset α) (rights : Finset β) (m : β → Option α) :
    Prop extends IsMatching adj lefts m where
  card_le : ∀ m', IsMatching adj lefts m' → (owned rights m').card ≤ (owned rights m).card

omit [DecidableEq α] [DecidableEq β] in
theorem isMaximum_empty : IsMaximum adj ∅ rights fun _ => none := by
  refine ⟨⟨by simp, by simp, by simp⟩, fun m' h => ?_⟩
  have hnone : owned rights m' = ∅ := by
    rw [owned, Finset.filter_eq_empty_iff]
    intro right _ hsome
    obtain ⟨left, hleft⟩ := Option.isSome_iff_exists.mp hsome
    exact absurd (h.left_mem right left hleft) (Finset.notMem_empty left)
  rw [hnone, Finset.card_empty]
  exact Nat.zero_le _

/-- Without the vertex that a new left vertex owns, a matching is one of the old left vertices. -/
theorem IsMatching.release (h : IsMatching adj (insert start lefts) m) (rights : Finset β) :
    ∃ m', IsMatching adj lefts m' ∧ (owned rights m).card ≤ (owned rights m').card + 1 := by
  refine ⟨fun right => if m right = some start then none else m right, ⟨?_, ?_, ?_⟩, ?_⟩
  · intro right left hleft
    split_ifs at hleft
    exact h.adjacent right left hleft
  · intro right left hleft
    split_ifs at hleft with hstart
    refine (Finset.mem_insert.mp (h.left_mem right left hleft)).resolve_left ?_
    rintro rfl
    exact hstart hleft
  · intro right right' left hleft hleft'
    split_ifs at hleft hleft'
    exact h.unique right right' left hleft hleft'
  · -- no two vertices are owned by the new left vertex
    have hsubset : owned rights m ⊆
        owned rights (fun right => if m right = some start then none else m right) ∪
          rights.filter fun right => m right = some start := by
      intro right hright
      obtain ⟨hmem, hsome⟩ := Finset.mem_filter.mp hright
      by_cases hstart : m right = some start
      · exact Finset.mem_union_right _ (Finset.mem_filter.mpr ⟨hmem, hstart⟩)
      · refine Finset.mem_union_left _ (Finset.mem_filter.mpr ⟨hmem, ?_⟩)
        dsimp only
        rwa [if_neg hstart]
    have hone : (rights.filter fun right => m right = some start).card ≤ 1 := by
      refine Finset.card_le_one.mpr fun right hright right' hright' => ?_
      exact h.unique right right' start (Finset.mem_filter.mp hright).2 (Finset.mem_filter.mp hright').2
    have hcard := (Finset.card_le_card hsubset).trans (Finset.card_union_le _ _)
    omega

/-- A matching that has grown by one is maximum for one more left vertex. -/
theorem IsMaximum.grow {m' : β → Option α} (h : IsMaximum adj lefts rights m)
    (hm : IsMatching adj (insert start lefts) m')
    (hcard : (owned rights m').card = (owned rights m).card + 1) :
    IsMaximum adj (insert start lefts) rights m' := by
  refine ⟨hm, fun other hother => ?_⟩
  obtain ⟨released, hreleased, hle⟩ := hother.release rights
  have hmax := h.card_le released hreleased
  omega

/-- Left vertices that own all their neighbours together. -/
def ClosedIn (adj : α → List β) (m : β → Option α) (lefts : Set α) : Prop :=
  ∀ left ∈ lefts, ∀ right ∈ adj left, ∃ owner ∈ lefts, m right = some owner

omit [DecidableEq β] in
/-- With a closed set of left vertices around it, one more left vertex does not make a matching grow:
within the set the old matching is as good as any. -/
theorem IsMaximum.stay (h : IsMaximum adj lefts rights m) {closed : Set α}
    (hclosed : ClosedIn adj m closed) (hstart : start ∈ closed) :
    IsMaximum adj (insert start lefts) rights m := by
  classical
  refine ⟨⟨h.adjacent, fun right left hleft => Finset.mem_insert_of_mem (h.left_mem right left hleft),
    h.unique⟩, fun other hother => ?_⟩
  -- the old matching within the set, the other one outside of it
  let mixed : β → Option α := fun right =>
    if ∃ owner ∈ closed, m right = some owner then m right else other right
  have houtside : ∀ right left, ¬(∃ owner ∈ closed, m right = some owner) →
      other right = some left → left ∉ closed := fun right left hnot hleft hmem =>
    hnot (hclosed left hmem right (hother.adjacent right left hleft))
  have hmixed : IsMatching adj lefts mixed := by
    refine ⟨fun right left hleft => ?_, fun right left hleft => ?_,
      fun right right' left hleft hleft' => ?_⟩
    · dsimp only [mixed] at hleft
      split_ifs at hleft
      · exact h.adjacent right left hleft
      · exact hother.adjacent right left hleft
    · dsimp only [mixed] at hleft
      split_ifs at hleft with hin
      · exact h.left_mem right left hleft
      · refine (Finset.mem_insert.mp (hother.left_mem right left hleft)).resolve_left ?_
        rintro rfl
        exact houtside right _ hin hleft hstart
    · dsimp only [mixed] at hleft hleft'
      split_ifs at hleft hleft' with hin hin' hin'
      · exact h.unique right right' left hleft hleft'
      · obtain ⟨owner, howner, heq⟩ := hin
        obtain rfl := Option.some.inj (heq.symm.trans hleft)
        exact absurd howner (houtside right' _ hin' hleft')
      · obtain ⟨owner, howner, heq⟩ := hin'
        obtain rfl := Option.some.inj (heq.symm.trans hleft')
        exact absurd howner (houtside right _ hin hleft)
      · exact hother.unique right right' left hleft hleft'
  have hsubset : owned rights other ⊆ owned rights mixed := by
    intro right hright
    obtain ⟨hmem, hsome⟩ := Finset.mem_filter.mp hright
    refine Finset.mem_filter.mpr ⟨hmem, ?_⟩
    dsimp only [mixed]
    split_ifs with hin
    · obtain ⟨owner, -, heq⟩ := hin
      rw [heq]
      rfl
    · exact hsome
  exact (Finset.card_le_card hsubset).trans (h.card_le mixed hmixed)

end Matching

end OpenCollabEval
