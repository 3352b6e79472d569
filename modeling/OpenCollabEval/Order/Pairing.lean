import OpenCollabEval.Order.Matching
import Mathlib.Data.List.Perm.Subperm
import Mathlib.Data.List.FinRange
import Mathlib.Data.Multiset.MapFold

/-!
# Pairings of two lists

A pairing takes items of one list together with items of another, each item at most as often as its
list has it, and only items that go together. Its size does not depend on the order of the lists, and
one more item makes a maximum pairing at most one larger. A matching of positions is a pairing of the
items at them.
-/

namespace OpenCollabEval

section Pairing

variable {ρ ε : Type} {goes : ρ → ε → Prop} {xs xs' : List ρ} {ys ys' : List ε} {pairs : List (ρ × ε)}

/-- Pairs of items of two lists that go together. -/
structure IsPairing (goes : ρ → ε → Prop) (xs : List ρ) (ys : List ε) (pairs : List (ρ × ε)) :
    Prop where
  left : (pairs.map Prod.fst).Subperm xs
  right : (pairs.map Prod.snd).Subperm ys
  together : ∀ pair ∈ pairs, goes pair.1 pair.2

/-- A pairing with as many pairs as any. -/
structure IsMaximumPairing (goes : ρ → ε → Prop) (xs : List ρ) (ys : List ε) (pairs : List (ρ × ε)) :
    Prop extends IsPairing goes xs ys pairs where
  length_le : ∀ other, IsPairing goes xs ys other → other.length ≤ pairs.length

/-- A pairing stays one with more items. -/
theorem IsPairing.mono (h : IsPairing goes xs ys pairs) (hxs : xs.Subperm xs') (hys : ys.Subperm ys') :
    IsPairing goes xs' ys' pairs :=
  ⟨h.left.trans hxs, h.right.trans hys, h.together⟩

/-- The order of the items makes no difference. -/
theorem IsMaximumPairing.perm (h : IsMaximumPairing goes xs ys pairs) (hxs : xs.Perm xs')
    (hys : ys.Perm ys') : IsMaximumPairing goes xs' ys' pairs :=
  ⟨h.toIsPairing.mono hxs.subperm hys.subperm, fun other hother =>
    h.length_le other (hother.mono hxs.symm.subperm hys.symm.subperm)⟩

/-- The sides of a pairing can be exchanged. -/
theorem IsPairing.swap (h : IsPairing goes xs ys pairs) :
    IsPairing (fun y x => goes x y) ys xs (pairs.map Prod.swap) := by
  refine ⟨?_, ?_, ?_⟩
  · simpa [Function.comp_def] using h.right
  · simpa [Function.comp_def] using h.left
  · intro swapped hswapped
    obtain ⟨pair, hpair, rfl⟩ := List.mem_map.mp hswapped
    exact h.together pair hpair

/-- Without one item, a pairing is at most one pair smaller. -/
theorem IsPairing.drop_left {x : ρ} (h : IsPairing goes (x :: xs) ys pairs) :
    ∃ pairs', IsPairing goes xs ys pairs' ∧ pairs.length ≤ pairs'.length + 1 := by
  classical
  by_cases hx : x ∈ pairs.map Prod.fst
  · obtain ⟨pair, hpair, rfl⟩ := List.mem_map.mp hx
    have hperm := List.perm_cons_erase hpair
    refine ⟨pairs.erase pair, ⟨?_, ?_, fun other hother => h.together other (List.mem_of_mem_erase hother)⟩,
      hperm.length_eq.le⟩
    · have hleft := ((hperm.map Prod.fst).subperm_right).mp h.left
      exact (List.subperm_cons pair.1).mp hleft
    · exact ((List.erase_sublist.map Prod.snd).subperm).trans h.right
  · refine ⟨pairs, ⟨?_, h.right, h.together⟩, Nat.le_succ _⟩
    have hle := Multiset.coe_le.mpr h.left
    rw [← Multiset.cons_coe] at hle
    exact Multiset.coe_le.mp ((Multiset.le_cons_of_notMem hx).mp hle)

/-- One more item on the left makes a maximum pairing at most one larger. -/
theorem IsMaximumPairing.cons_left {x : ρ} {pairs' : List (ρ × ε)}
    (h : IsMaximumPairing goes xs ys pairs) (h' : IsPairing goes (x :: xs) ys pairs') :
    pairs'.length ≤ pairs.length + 1 := by
  obtain ⟨dropped, hdropped, hle⟩ := h'.drop_left
  have hmax := h.length_le dropped hdropped
  omega

/-- One more item on the right makes a maximum pairing at most one larger. -/
theorem IsMaximumPairing.cons_right {y : ε} {pairs' : List (ρ × ε)}
    (h : IsMaximumPairing goes xs ys pairs) (h' : IsPairing goes xs (y :: ys) pairs') :
    pairs'.length ≤ pairs.length + 1 := by
  obtain ⟨dropped, hdropped, hle⟩ := h'.swap.drop_left
  have hmax := h.length_le _ hdropped.swap
  rw [List.length_map] at hle hmax
  omega

/-- All maximum pairings have one size. -/
theorem IsMaximumPairing.length_eq {pairs' : List (ρ × ε)} (h : IsMaximumPairing goes xs ys pairs)
    (h' : IsMaximumPairing goes xs ys pairs') : pairs.length = pairs'.length :=
  le_antisymm (h'.length_le _ h.toIsPairing) (h.length_le _ h'.toIsPairing)

end Pairing

section Positions

variable {α : Type} {items all : List α}

/-- Items of a list stand at positions of it, each item at its own. -/
theorem exists_positions (h : items.Subperm all) :
    ∃ positions : List Nat, positions.Nodup ∧ positions.map (all[·]?) = items.map some := by
  classical
  refine ⟨(List.finRange items.length).map fun i => (h.idxInj i).val, ?_, ?_⟩
  · exact (List.nodup_finRange _).map fun i j hij => h.idxInj_injective (Fin.ext hij)
  · rw [List.map_map]
    apply List.ext_getElem
    · simp
    · intro i hi hi'
      simp only [List.getElem_map, Function.comp_apply, List.getElem_finRange]
      rw [List.getElem?_eq_getElem (h.idxInj _).2, h.getElem_idxInj_eq_getElem]
      rfl

/-- Items at positions of a list, no position twice, are items of the list. -/
theorem subperm_of_positions {positions : List Nat} (hnodup : positions.Nodup)
    (h : positions.map (all[·]?) = items.map some) : items.Subperm all := by
  have hsubset : positions ⊆ List.range all.length := by
    intro position hposition
    have hmem : all[position]? ∈ items.map some := h ▸ List.mem_map_of_mem hposition
    obtain ⟨item, -, hitem⟩ := List.mem_map.mp hmem
    exact List.mem_range.mpr (List.getElem?_eq_some_iff.mp hitem.symm).1
  have hle := Multiset.map_le_map (f := (all[·]?)) (Multiset.coe_le.mpr (hnodup.subperm hsubset))
  rw [Multiset.map_coe, Multiset.map_coe, h, Multiset.coe_le] at hle
  have hall : (List.range all.length).map (all[·]?) = all.map some := by
    apply List.ext_getElem
    · simp
    · intro i hi hi'
      simp
  rw [hall] at hle
  exact (List.map_subperm_map_iff (Option.some_injective α)).mp hle

end Positions

section Extra

variable {ρ ε : Type} {goes : ρ → ε → Prop} {xs xs' : List ρ} {ys ys' : List ε} {pairs : List (ρ × ε)}

/-- Without some of the items, a pairing has at most as many pairs less. -/
theorem IsPairing.drop_lefts {extra : List ρ} (h : IsPairing goes (extra ++ xs) ys pairs) :
    ∃ pairs', IsPairing goes xs ys pairs' ∧ pairs.length ≤ pairs'.length + extra.length := by
  induction extra generalizing pairs with
  | nil => exact ⟨pairs, h, le_rfl⟩
  | cons x extra ih =>
    obtain ⟨dropped, hdropped, hle⟩ := h.drop_left
    obtain ⟨pairs', hpairs', hle'⟩ := ih hdropped
    refine ⟨pairs', hpairs', ?_⟩
    rw [List.length_cons]
    omega

/-- More items on both sides make a maximum pairing larger by at most their number on one of them. -/
theorem IsMaximumPairing.length_le_add {pairs' : List (ρ × ε)} (h : IsMaximumPairing goes xs ys pairs)
    (h' : IsMaximumPairing goes xs' ys' pairs') (hxs : xs.Subperm xs') (hys : ys.Subperm ys') :
    pairs'.length + xs.length + ys.length ≤ pairs.length + xs'.length + ys'.length := by
  obtain ⟨moreLeft, hleft⟩ := Multiset.le_iff_exists_add.mp (Multiset.coe_le.mpr hxs)
  obtain ⟨moreRight, hright⟩ := Multiset.le_iff_exists_add.mp (Multiset.coe_le.mpr hys)
  have hxs' : xs'.Perm (moreLeft.toList ++ xs) := by
    rw [← Multiset.coe_eq_coe, hleft, ← Multiset.coe_add, Multiset.coe_toList, Multiset.add_comm]
  have hys' : ys'.Perm (moreRight.toList ++ ys) := by
    rw [← Multiset.coe_eq_coe, hright, ← Multiset.coe_add, Multiset.coe_toList, Multiset.add_comm]
  obtain ⟨some₁, hsome₁, hle₁⟩ := (h'.toIsPairing.mono hxs'.subperm hys'.subperm).drop_lefts
  obtain ⟨some₂, hsome₂, hle₂⟩ := hsome₁.swap.drop_lefts
  have hmax := h.length_le _ hsome₂.swap
  have hlength := hxs'.length_eq
  have hlength' := hys'.length_eq
  rw [List.length_append] at hlength hlength'
  rw [List.length_map] at hle₂ hmax
  omega

end Extra

section FromMatching

variable {ρ ε : Type} {goes : ρ → ε → Prop} {xs : List ρ} {ys : List ε} {m : Nat → Option Nat}
  {adj : Nat → List Nat}

/-- The pairs of a matching of positions: each item that has an owner, with the item at the owner. -/
def pairsOf (m : Nat → Option Nat) (xs : List ρ) (ys : List ε) : List (ρ × ε) :=
  xs.zipIdx.filterMap fun item => (m item.2).bind fun left => ys[left]?.map (item.1, ·)

/-- The items without an owner, in their order. -/
def leftOver (m : Nat → Option Nat) (xs : List ρ) : List ρ :=
  (xs.zipIdx.filter fun item => (m item.2).isNone).map Prod.fst

/-- The positions that go together. -/
def AdjacentItems (goes : ρ → ε → Prop) (xs : List ρ) (ys : List ε) (adj : Nat → List Nat) : Prop :=
  ∀ left right, right ∈ adj left ↔ ∃ x y, xs[right]? = some x ∧ ys[left]? = some y ∧ goes x y

/-- The items of the pairs are the ones that have an owner. -/
private theorem map_fst_pairsOf {items : List (ρ × Nat)}
    (hleft : ∀ right left, m right = some left → left < ys.length) :
    (items.filterMap fun item => (m item.2).bind fun left => ys[left]?.map (item.1, ·)).map Prod.fst =
      (items.filter fun item => (m item.2).isSome).map Prod.fst := by
  induction items with
  | nil => rfl
  | cons item rest ih =>
    cases hitem : m item.2 with
    | none => simpa [hitem] using ih
    | some left => simpa [hitem, hleft _ _ hitem] using ih

/-- The other items of the pairs stand at the owners. -/
private theorem map_snd_pairsOf {items : List (ρ × Nat)}
    (hleft : ∀ right left, m right = some left → left < ys.length) :
    ((items.map Prod.snd).filterMap m).map (ys[·]?) =
      ((items.filterMap fun item => (m item.2).bind fun left => ys[left]?.map (item.1, ·)).map
        Prod.snd).map some := by
  induction items with
  | nil => rfl
  | cons item rest ih =>
    cases hitem : m item.2 with
    | none => simpa [hitem] using ih
    | some left => simpa [hitem, hleft _ _ hitem] using ih

section Bridge

variable (hadj : AdjacentItems goes xs ys adj) (hm : IsMatching adj (List.range ys.length).toFinset m)

include hm

private theorem owner_lt {right left : Nat} (h : m right = some left) : left < ys.length := by
  simpa using hm.left_mem right left h

/-- Every item is in one of the pairs or left over. -/
theorem perm_pairsOf_leftOver : xs.Perm ((pairsOf m xs ys).map Prod.fst ++ leftOver m xs) := by
  rw [pairsOf, map_fst_pairsOf (m := m) fun _ _ => owner_lt hm, leftOver, ← List.map_append]
  have hsplit := (List.filter_append_perm (fun item => (m item.2).isSome) xs.zipIdx).map Prod.fst
  rw [List.zipIdx_map_fst] at hsplit
  simpa using hsplit.symm

include hadj

/-- The pairs of a matching of positions are a pairing. -/
theorem isPairing_pairsOf : IsPairing goes xs ys (pairsOf m xs ys) := by
  refine ⟨?_, ?_, ?_⟩
  · exact (List.sublist_append_left ..).subperm.trans (perm_pairsOf_leftOver hm).symm.subperm
  · have howners : ((xs.zipIdx.map Prod.snd).filterMap m).map (ys[·]?) =
        ((pairsOf m xs ys).map Prod.snd).map some := map_snd_pairsOf fun _ _ => owner_lt hm
    refine subperm_of_positions ?_ howners
    rw [List.zipIdx_map_snd]
    exact List.Nodup.filterMap (fun right right' left h h' => hm.unique right right' left h h')
      (List.nodup_range' ..)
  · intro pair hpair
    obtain ⟨⟨x, right⟩, hitem, hpair⟩ := List.mem_filterMap.mp hpair
    obtain ⟨left, hleft, hpair⟩ := Option.bind_eq_some_iff.mp hpair
    obtain ⟨y, hy, rfl⟩ := Option.map_eq_some_iff.mp hpair
    obtain ⟨x', y', hx', hy', hgoes⟩ := (hadj left right).mp (hm.adjacent right left hleft)
    obtain rfl : x' = x := by
      rw [List.mem_zipIdx_iff_getElem?] at hitem
      exact Option.some.inj (hx'.symm.trans hitem)
    obtain rfl := Option.some.inj (hy'.symm.trans hy)
    exact hgoes

omit hadj in
/-- There are as many pairs as positions with an owner. -/
theorem length_pairsOf : (pairsOf m xs ys).length = (owned (Finset.range xs.length) m).card := by
  have howned : owned (Finset.range xs.length) m =
      ((List.range xs.length).filter fun right => (m right).isSome).toFinset := by
    ext right
    simp [owned]
  rw [howned, List.toFinset_card_of_nodup (List.nodup_range.filter _), ← List.length_map Prod.fst,
    pairsOf, map_fst_pairsOf (m := m) fun _ _ => owner_lt hm, List.length_map, List.range_eq_range',
    ← List.zipIdx_map_snd, List.filter_map, List.length_map]
  rfl

end Bridge

/-- A pairing is a matching of positions with as many owners as it has pairs. -/
theorem exists_matching (hadj : AdjacentItems goes xs ys adj) {pairs : List (ρ × ε)}
    (h : IsPairing goes xs ys pairs) :
    ∃ m, IsMatching adj (List.range ys.length).toFinset m ∧
      (owned (Finset.range xs.length) m).card = pairs.length := by
  obtain ⟨rights, hrights, hxs⟩ := exists_positions h.left
  obtain ⟨lefts, hlefts, hys⟩ := exists_positions h.right
  have hlength : rights.length = pairs.length := by simpa using congrArg List.length hxs
  have hlength' : lefts.length = pairs.length := by simpa using congrArg List.length hys
  have hitems : ∀ right left, (rights.zip lefts).lookup right = some left → ∃ k,
      ∃ hk : k < pairs.length, rights[k]? = some right ∧ lefts[k]? = some left ∧
        xs[right]? = some (pairs[k]).1 ∧ ys[left]? = some (pairs[k]).2 := by
    intro right left hlookup
    obtain ⟨before, after, hzip, -⟩ := List.lookup_eq_some_iff.mp hlookup
    have hmem : (right, left) ∈ rights.zip lefts := by simp [hzip]
    obtain ⟨k, hk, hget⟩ := List.getElem_of_mem hmem
    rw [List.getElem_zip, Prod.mk.injEq] at hget
    rw [List.length_zip] at hk
    have hright := congrArg (·[k]?) hxs
    have hleft := congrArg (·[k]?) hys
    refine ⟨k, by omega, by simp [← hget.1], by simp [← hget.2], ?_, ?_⟩
    · simpa [show k < rights.length by omega, show k < pairs.length by omega, hget.1] using hright
    · simpa [show k < lefts.length by omega, show k < pairs.length by omega, hget.2] using hleft
  refine ⟨fun right => (rights.zip lefts).lookup right, ⟨?_, ?_, ?_⟩, ?_⟩
  · intro right left hlookup
    obtain ⟨k, hk, -, -, hx, hy⟩ := hitems right left hlookup
    exact (hadj left right).mpr ⟨_, _, hx, hy, h.together _ (List.getElem_mem hk)⟩
  · intro right left hlookup
    obtain ⟨k, hk, -, -, -, hy⟩ := hitems right left hlookup
    simpa using (List.getElem?_eq_some_iff.mp hy).1
  · intro right right' left hlookup hlookup'
    obtain ⟨k, hk, hright, hleft, -⟩ := hitems right left hlookup
    obtain ⟨k', hk', hright', hleft', -⟩ := hitems right' left hlookup'
    have hsame : k = k' :=
      (List.getElem?_inj (by omega) hlefts).mp (hleft.trans hleft'.symm)
    subst hsame
    exact Option.some.inj (hright.symm.trans hright')
  · have howned : owned (Finset.range xs.length) (fun right => (rights.zip lefts).lookup right) =
        rights.toFinset := by
      ext right
      rw [owned, Finset.mem_filter, List.mem_toFinset]
      constructor
      · rintro ⟨-, hsome⟩
        obtain ⟨left, hlookup⟩ := Option.isSome_iff_exists.mp hsome
        obtain ⟨k, -, hright, -⟩ := hitems right left hlookup
        exact List.mem_of_getElem? hright
      · intro hmem
        have hsome : ((rights.zip lefts).lookup right).isSome := by
          rw [Option.isSome_iff_ne_none]
          intro hnone
          rw [List.lookup_eq_none_iff] at hnone
          have hkeys : right ∈ (rights.zip lefts).map Prod.fst := by
            rwa [List.map_fst_zip (by omega)]
          obtain ⟨entry, hentry, heq⟩ := List.mem_map.mp hkeys
          simpa [heq] using hnone entry hentry
        obtain ⟨left, hlookup⟩ := Option.isSome_iff_exists.mp hsome
        obtain ⟨k, hk, -, -, hx, -⟩ := hitems right left hlookup
        exact ⟨by simpa using (List.getElem?_eq_some_iff.mp hx).1, hsome⟩
    rw [howned, List.toFinset_card_of_nodup hrights, hlength]

/-- The pairs of a maximum matching of positions are a maximum pairing. -/
theorem isMaximumPairing_pairsOf (hadj : AdjacentItems goes xs ys adj)
    (hm : IsMaximum adj (List.range ys.length).toFinset (Finset.range xs.length) m) :
    IsMaximumPairing goes xs ys (pairsOf m xs ys) := by
  refine ⟨isPairing_pairsOf hadj hm.toIsMatching, fun other hother => ?_⟩
  obtain ⟨m', hm', hcard⟩ := exists_matching hadj hother
  rw [length_pairsOf hm.toIsMatching, ← hcard]
  exact hm.card_le m' hm'

end FromMatching

end OpenCollabEval
