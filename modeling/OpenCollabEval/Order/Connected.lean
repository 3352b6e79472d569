import Mathlib.Logic.Relation

/-!
# Connected components and grounded items

A set that a relation never leaves in either direction holds a whole component as soon as it holds one
item of it. An item is grounded when every chain that starts there ends, and then no cycle is reached from
it.
-/

open Relation

namespace OpenCollabEval

variable {α : Type} {r : α → α → Prop}

/-- A set that the relation never enters or leaves holds all or none of a component. -/
theorem mem_iff_of_eqvGen {s : Set α} (hclosed : ∀ a b, r a b → (a ∈ s ↔ b ∈ s)) {a b : α}
    (h : EqvGen r a b) : a ∈ s ↔ b ∈ s := by
  induction h with
  | rel a b hab => exact hclosed a b hab
  | refl a => exact Iff.rfl
  | symm a b _ ih => exact ih.symm
  | trans a b c _ _ hab hbc => exact hab.trans hbc

/-- Every chain of the relation that starts at an item ends. -/
def Grounded (r : α → α → Prop) (a : α) : Prop := Acc (fun next previous => r previous next) a

theorem grounded_of_next {a : α} (h : ∀ b, r a b → Grounded r b) : Grounded r a :=
  Acc.intro a h

theorem Grounded.next {a b : α} (h : Grounded r a) (hab : r a b) : Grounded r b :=
  h.inv hab

theorem Grounded.reach {a b : α} (h : Grounded r a) (hab : ReflTransGen r a b) : Grounded r b := by
  induction hab with
  | refl => exact h
  | tail _ hbc ih => exact ih.next hbc

/-- A grounded item lies on no cycle. -/
theorem Grounded.not_transGen {a : α} (h : Grounded r a) : ¬TransGen r a a := by
  induction h with
  | intro a _ ih =>
    intro hcycle
    obtain ⟨b, hab, hba⟩ := TransGen.head'_iff.mp hcycle
    -- the cycle can be entered at the next item
    exact ih b hab (TransGen.tail' hba hab)

end OpenCollabEval
