import OpenCollabEval.Order.Matching

/-!
# Maximum matchings by augmenting paths

One search for each left vertex: breadth first over the owners of the neighbours, with links back to
where each was found. A free neighbour ends the search, and the links lead back to the start while every
vertex on the way takes the one it was found by. The searches end, and together they give a maximum
matching.
-/

namespace OpenCollabEval

section Search

variable {α β : Type} [DecidableEq α] [DecidableEq β]

/-- How the left vertices of a search were found: the start by none, any other through a right vertex
that it owns, from another left vertex. -/
abbrev BackLinks (α β : Type) := α → Option (Option (α × β))

/-- Back along the links: each left vertex takes the right vertex, and gives up the one it owned. -/
def augment (links : BackLinks α β) : Nat → (β → Option α) → α → β → Option (β → Option α)
  | 0, _, _, _ => none
  | fuel + 1, m, current, free =>
    let m' := Function.update m free (some current)
    match links current with
    | some none => some m'
    | some (some (next, right)) => augment links fuel m' next right
    | none => none

/-- One neighbour of a left vertex: its owner is found, unless it was found before. -/
def visit (m : β → Option α) (current : α) (s : BackLinks α β × List α) (right : β) :
    Option (BackLinks α β × List α) :=
  match m right with
  | none => none
  | some owner =>
    if (s.1 owner).isSome then some s
    else some (Function.update s.1 owner (some (some (current, right))), s.2 ++ [owner])

/-- The search from the pending left vertices. -/
def search (adj : α → List β) (limit : Nat) (m : β → Option α) :
    Nat → BackLinks α β → List α → Option (β → Option α)
  | 0, _, _ => none
  | _ + 1, _, [] => some m
  | fuel + 1, links, current :: pending =>
    match (adj current).find? fun right => (m right).isNone with
    | some free => augment links limit m current free
    | none =>
      match (adj current).foldlM (visit m current) (links, pending) with
      | some s => search adj limit m fuel s.1 s.2
      | none => none

/-- One search for each left vertex. -/
def matchAll (adj : α → List β) (limit : Nat) (starts : List α) : Option (β → Option α) :=
  starts.foldlM (fun m start =>
    search adj limit m limit (Function.update (fun _ => none) start (some none)) [start]) fun _ => none

end Search

section Owned

variable {α β : Type} [DecidableEq β] {rights : Finset β} {m : β → Option α} {right : β}

/-- A right vertex that gets an owner counts one. -/
theorem card_owned_update_some (left : α) (hright : right ∈ rights) (hnone : m right = none) :
    (owned rights (Function.update m right (some left))).card = (owned rights m).card + 1 := by
  have hinsert : owned rights (Function.update m right (some left)) =
      insert right (owned rights m) := by
    ext other
    by_cases hother : other = right
    · subst hother
      simp [owned, hright]
    · simp [owned, hother]
  have hnot : right ∉ owned rights m := by simp [owned, hnone]
  rw [hinsert, Finset.card_insert_of_notMem hnot]

/-- A right vertex that loses its owner counted one. -/
theorem card_owned_update_none {left : α} (hright : right ∈ rights) (hsome : m right = some left) :
    (owned rights (Function.update m right none)).card + 1 = (owned rights m).card := by
  have hback : Function.update (Function.update m right none) right (some left) = m := by
    rw [Function.update_idem, ← hsome, Function.update_eq_self]
  rw [← card_owned_update_some left hright (Function.update_self ..), hback]

end Owned

section Augment

variable {α β : Type} [DecidableEq α] [DecidableEq β] {adj : α → List β} {links : BackLinks α β}
  {lefts : Finset α} {rights : Finset β} {start : α}

/-- The number of links from a left vertex back to the start. -/
inductive Linked (links : BackLinks α β) : α → Nat → Prop
  | root {left : α} (h : links left = some none) : Linked links left 0
  | step {left next : α} {right : β} {n : Nat} (h : links left = some (some (next, right)))
    (hnext : Linked links next n) : Linked links left (n + 1)

omit [DecidableEq α] [DecidableEq β] in
theorem Linked.unique {left : α} {n n' : Nat} (h : Linked links left n) (h' : Linked links left n') :
    n = n' := by
  induction h generalizing n' with
  | root hroot =>
    cases h' with
    | root => rfl
    | step hstep => simp [hroot] at hstep
  | step hstep _ ih =>
    cases h' with
    | root hroot => simp [hstep] at hroot
    | step hstep' hnext =>
      rw [hstep, Option.some.injEq, Option.some.injEq, Prod.mk.injEq] at hstep'
      obtain ⟨rfl, rfl⟩ := hstep'
      rw [ih hnext]

omit [DecidableEq α] [DecidableEq β] in
/-- More links leave the ones that there are. -/
theorem Linked.mono {links' : BackLinks α β} (hkept : ∀ left link, links left = some link →
    links' left = some link) {left : α} {n : Nat} (h : Linked links left n) : Linked links' left n := by
  induction h with
  | root hroot => exact .root (hkept _ _ hroot)
  | step hstep _ ih => exact .step (hkept _ _ hstep) ih

/-- What holds on the way back: without the right vertex that is free now, the owners are a matching in
which the start owns nothing, and every left vertex on the rest of the way still owns the right vertex
that it was found through. -/
structure OnTheWay (adj : α → List β) (links : BackLinks α β) (lefts : Finset α) (rights : Finset β)
    (start : α) (m : β → Option α) (current : α) (free : β) (n : Nat) : Prop where
  linked : Linked links current n
  matching : IsMatching adj lefts m
  free_none : m free = none
  start_free : ∀ right, m right ≠ some start
  adjacent : free ∈ adj current
  root : ∀ left, links left = some none → left = start
  link : ∀ left next right, links left = some (some (next, right)) → right ∈ adj next
  owner : ∀ left next right k, Linked links left k → k ≤ n →
    links left = some (some (next, right)) → m right = some left
  within : ∀ left right, right ∈ adj left → right ∈ rights

/-- At the start the free vertex makes the matching grow. -/
theorem OnTheWay.finish {m : β → Option α} {current : α} {free : β} {n : Nat}
    (h : OnTheWay adj links lefts rights start m current free n) (hroot : links current = some none) :
    IsMatching adj (insert start lefts) (Function.update m free (some current)) := by
  obtain rfl := h.root current hroot
  refine ⟨fun right left hleft => ?_, fun right left hleft => ?_, fun right right' left hleft hleft' => ?_⟩
  · by_cases hright : right = free
    · subst hright
      rw [Function.update_self, Option.some.injEq] at hleft
      exact hleft ▸ h.adjacent
    · rw [Function.update_of_ne hright] at hleft
      exact h.matching.adjacent right left hleft
  · by_cases hright : right = free
    · subst hright
      rw [Function.update_self, Option.some.injEq] at hleft
      exact hleft ▸ Finset.mem_insert_self ..
    · rw [Function.update_of_ne hright] at hleft
      exact Finset.mem_insert_of_mem (h.matching.left_mem right left hleft)
  · by_cases hright : right = free <;> by_cases hright' : right' = free
    · rw [hright, hright']
    · rw [hright, Function.update_self, Option.some.injEq] at hleft
      rw [Function.update_of_ne hright', ← hleft] at hleft'
      exact absurd hleft' (h.start_free right')
    · rw [hright', Function.update_self, Option.some.injEq] at hleft'
      rw [Function.update_of_ne hright, ← hleft'] at hleft
      exact absurd hleft (h.start_free right)
    · rw [Function.update_of_ne hright] at hleft
      rw [Function.update_of_ne hright'] at hleft'
      exact h.matching.unique right right' left hleft hleft'

omit [DecidableEq α] in
/-- One step back: the left vertex takes the free vertex, and the one that it owned is free for the next
left vertex. -/
theorem OnTheWay.next {m : β → Option α} {current next : α} {free right : β} {n : Nat}
    (h : OnTheWay adj links lefts rights start m current free (n + 1))
    (hlink : links current = some (some (next, right))) (hnext : Linked links next n) :
    OnTheWay adj links lefts rights start
        (Function.update (Function.update m free (some current)) right none) next right n ∧
      (owned rights (Function.update (Function.update m free (some current)) right none)).card =
        (owned rights m).card := by
  have howned := h.owner current next right (n + 1) h.linked le_rfl hlink
  have hne : right ≠ free := by
    rintro rfl
    rw [h.free_none] at howned
    cases howned
  have hstart : current ≠ start := by
    rintro rfl
    exact h.start_free right howned
  have hvalue : ∀ other left,
      Function.update (Function.update m free (some current)) right none other = some left ↔
        other ≠ right ∧ (other = free ∧ left = current ∨ other ≠ free ∧ m other = some left) := by
    intro other left
    by_cases hright : other = right
    · simp [hright]
    · rw [Function.update_of_ne hright]
      by_cases hfree : other = free
      · subst hfree
        simp [hright, eq_comm]
      · simp [hright, hfree]
  constructor
  · refine ⟨hnext, ⟨fun other left hleft => ?_, fun other left hleft => ?_,
      fun other other' left hleft hleft' => ?_⟩, Function.update_self .., fun other hother => ?_,
      h.link current next right hlink, h.root, h.link, fun left next' other k hk hle hlink' => ?_,
      h.within⟩
    · obtain ⟨-, ⟨rfl, rfl⟩ | ⟨-, hleft⟩⟩ := (hvalue other left).mp hleft
      · exact h.adjacent
      · exact h.matching.adjacent other left hleft
    · obtain ⟨-, ⟨rfl, rfl⟩ | ⟨-, hleft⟩⟩ := (hvalue other left).mp hleft
      · exact h.matching.left_mem right _ howned
      · exact h.matching.left_mem other left hleft
    · obtain ⟨hother, hcase⟩ := (hvalue other left).mp hleft
      obtain ⟨hother', hcase'⟩ := (hvalue other' left).mp hleft'
      rcases hcase with ⟨rfl, rfl⟩ | ⟨-, hold⟩ <;> rcases hcase' with ⟨rfl, heq⟩ | ⟨-, hold'⟩
      · rfl
      · exact absurd (h.matching.unique other' right _ hold' howned) hother'
      · subst heq
        exact absurd (h.matching.unique other right _ hold howned) hother
      · exact h.matching.unique other other' left hold hold'
    · obtain ⟨-, ⟨-, heq⟩ | ⟨-, hleft⟩⟩ := (hvalue other start).mp hother
      · exact hstart heq.symm
      · exact h.start_free other hleft
    · have hleft := h.owner left next' other k hk (Nat.le_succ_of_le hle) hlink'
      refine (hvalue other left).mpr ⟨?_, .inr ⟨?_, hleft⟩⟩
      · -- the way back is shorter from there
        rintro rfl
        obtain rfl := Option.some.inj (hleft.symm.trans howned)
        have hsame := hk.unique h.linked
        omega
      · rintro rfl
        rw [h.free_none] at hleft
        cases hleft
  · have hfirst := card_owned_update_some current (h.within current free h.adjacent)
      h.free_none
    have hsome : Function.update m free (some current) right = some current := by
      rw [Function.update_of_ne hne, howned]
    have hsecond := card_owned_update_none (h.within next right (h.link current next right hlink)) hsome
    omega

/-- The way back ends at the start, with a matching that has grown by one. -/
theorem augment_spec {fuel n : Nat} (m₀ : β → Option α) {m : β → Option α} {current : α} {free : β}
    (hm : Function.update m₀ free none = m)
    (h : OnTheWay adj links lefts rights start m current free n) (hfuel : n < fuel) :
    ∃ m', augment links fuel m₀ current free = some m' ∧ IsMatching adj (insert start lefts) m' ∧
      (owned rights m').card = (owned rights m).card + 1 := by
  induction fuel generalizing n m₀ m current free with
  | zero => omega
  | succ fuel ih =>
    have hupdate : Function.update m₀ free (some current) = Function.update m free (some current) := by
      rw [← hm, Function.update_idem]
    rw [augment]
    cases h.linked with
    | root hroot =>
      rw [hroot]
      refine ⟨_, rfl, ?_, ?_⟩ <;> rw [hupdate]
      · exact h.finish hroot
      · exact card_owned_update_some current (h.within current free h.adjacent) h.free_none
    | step hlink hnext =>
      rw [hlink]
      obtain ⟨hway, hcard⟩ := h.next hlink hnext
      obtain ⟨m', haugment, hmatching, hgrown⟩ := ih (Function.update m₀ free (some current))
        (by rw [hupdate]) hway (by omega)
      exact ⟨m', haugment, hmatching, by omega⟩

end Augment

section Searching

variable {α β : Type} [DecidableEq α] [DecidableEq β] {adj : α → List β} {m : β → Option α}
  {lefts : Finset α} {rights : Finset β} {start current : α} {s : BackLinks α β × List α}

/-- The left vertices that a search has found. -/
def found (lefts : Finset α) (links : BackLinks α β) : Finset α :=
  lefts.filter fun left => (links left).isSome

/-- What holds of the links and the pending left vertices of a search. -/
structure Searching (adj : α → List β) (m : β → Option α) (lefts : Finset α) (start : α)
    (s : BackLinks α β × List α) : Prop where
  start_root : s.1 start = some none
  root : ∀ left, s.1 left = some none → left = start
  link : ∀ left next right, s.1 left = some (some (next, right)) →
    right ∈ adj next ∧ m right = some left
  depth : ∀ left, (s.1 left).isSome → ∃ n, Linked s.1 left n ∧ n < (found lefts s.1).card
  mem : ∀ left, (s.1 left).isSome → left ∈ lefts
  pending : ∀ left ∈ s.2, (s.1 left).isSome

/-- All neighbours of a left vertex are owned by left vertices that were found. -/
def Explored (adj : α → List β) (m : β → Option α) (links : BackLinks α β) (left : α) : Prop :=
  ∀ right ∈ adj left, ∃ owner, m right = some owner ∧ (links owner).isSome

/-- What visiting neighbours does to a search: left vertices are found, and each of them is pending. -/
structure Visited (lefts : Finset α) (s s' : BackLinks α β × List α) : Prop where
  kept : ∀ left link, s.1 left = some link → s'.1 left = some link
  fresh : ∀ left, (s'.1 left).isSome → (s.1 left).isSome ∨ left ∈ s'.2
  pending : ∀ left ∈ s.2, left ∈ s'.2
  count : (found lefts s'.1).card + s.2.length = (found lefts s.1).card + s'.2.length

omit [DecidableEq α] [DecidableEq β] in
theorem Visited.refl (lefts : Finset α) (s : BackLinks α β × List α) : Visited lefts s s :=
  ⟨fun _ _ h => h, fun _ h => .inl h, fun _ h => h, rfl⟩

omit [DecidableEq α] [DecidableEq β] in
theorem Visited.isSome {s' : BackLinks α β × List α} (h : Visited lefts s s') {left : α}
    (hleft : (s.1 left).isSome) : (s'.1 left).isSome := by
  obtain ⟨link, hlink⟩ := Option.isSome_iff_exists.mp hleft
  rw [h.kept left link hlink]
  rfl

omit [DecidableEq α] [DecidableEq β] in
theorem Visited.trans {s' s'' : BackLinks α β × List α} (h : Visited lefts s s')
    (h' : Visited lefts s' s'') : Visited lefts s s'' := by
  refine ⟨fun left link hlink => h'.kept left link (h.kept left link hlink), fun left hleft => ?_,
    fun left hleft => h'.pending left (h.pending left hleft), ?_⟩
  · rcases h'.fresh left hleft with hleft | hleft
    · exact (h.fresh left hleft).imp_right (h'.pending left)
    · exact .inr hleft
  · have hcount := h.count
    have hcount' := h'.count
    omega

omit [DecidableEq β] in
/-- Visiting one neighbour that has an owner. -/
theorem Searching.visit (h : Searching adj m lefts start s) (hcurrent : (s.1 current).isSome)
    {right : β} (hright : right ∈ adj current) {owner : α} (howner : m right = some owner)
    (hmem : owner ∈ lefts) :
    ∃ s', OpenCollabEval.visit m current s right = some s' ∧ Searching adj m lefts start s' ∧
      Visited lefts s s' ∧ (s'.1 owner).isSome := by
  rw [OpenCollabEval.visit, howner]
  dsimp only
  by_cases hfound : (s.1 owner).isSome
  · exact ⟨s, if_pos hfound, h, .refl lefts s, hfound⟩
  rw [if_neg hfound]
  have hnone : s.1 owner = none := by simpa using hfound
  have hkept : ∀ left link, s.1 left = some link →
      Function.update s.1 owner (some (some (current, right))) left = some link := by
    intro left link hlink
    have hne : left ≠ owner := by
      rintro rfl
      rw [hnone] at hlink
      cases hlink
    rw [Function.update_of_ne hne, hlink]
  have hold : ∀ left, (Function.update s.1 owner (some (some (current, right))) left).isSome →
      left = owner ∨ (s.1 left).isSome := by
    intro left hleft
    by_cases hne : left = owner
    · exact .inl hne
    · rw [Function.update_of_ne hne] at hleft
      exact .inr hleft
  have hcard : (found lefts (Function.update s.1 owner (some (some (current, right))))).card =
      (found lefts s.1).card + 1 := by
    have hinsert : found lefts (Function.update s.1 owner (some (some (current, right)))) =
        insert owner (found lefts s.1) := by
      ext left
      by_cases hne : left = owner
      · subst hne
        simp [found, hmem]
      · simp [found, hne]
    rw [hinsert, Finset.card_insert_of_notMem (by simp [found, hnone])]
  refine ⟨_, rfl, ⟨hkept start none h.start_root, fun left hleft => ?_, fun left next other hleft => ?_,
    fun left hleft => ?_, fun left hleft => ?_, fun left hleft => ?_⟩,
    ⟨hkept, fun left hleft => ?_, fun left hleft => List.mem_append_left _ hleft, ?_⟩, ?_⟩
  · by_cases hne : left = owner
    · subst hne
      simp at hleft
    · dsimp only at hleft
      rw [Function.update_of_ne hne] at hleft
      exact h.root left hleft
  · by_cases hne : left = owner
    · subst hne
      simp only [Function.update_self, Option.some.injEq, Prod.mk.injEq] at hleft
      obtain ⟨rfl, rfl⟩ := hleft
      exact ⟨hright, howner⟩
    · dsimp only at hleft
      rw [Function.update_of_ne hne] at hleft
      exact h.link left next other hleft
  · dsimp only
    rw [hcard]
    rcases hold left hleft with rfl | hleft
    · obtain ⟨n, hn, hlt⟩ := h.depth current hcurrent
      exact ⟨n + 1, .step (Function.update_self ..) (hn.mono hkept), by omega⟩
    · obtain ⟨n, hn, hlt⟩ := h.depth left hleft
      exact ⟨n, hn.mono hkept, by omega⟩
  · rcases hold left hleft with rfl | hleft
    · exact hmem
    · exact h.mem left hleft
  · rcases List.mem_append.mp hleft with hleft | hleft
    · obtain ⟨link, hlink⟩ := Option.isSome_iff_exists.mp (h.pending left hleft)
      dsimp only
      rw [hkept left link hlink]
      rfl
    · rw [List.mem_singleton.mp hleft]
      simp
  · rcases hold left hleft with rfl | hleft
    · exact .inr (by simp)
    · exact .inl hleft
  · dsimp only
    rw [hcard, List.length_append, List.length_singleton]
    omega
  · simp

omit [DecidableEq β] in
/-- Visiting all neighbours of a left vertex, none of which is free. -/
theorem Searching.visitAll (h : Searching adj m lefts start s) (hcurrent : (s.1 current).isSome)
    {neighbours : List β} (hadj : ∀ right ∈ neighbours, right ∈ adj current)
    (howned : ∀ right ∈ neighbours, ∃ owner ∈ lefts, m right = some owner) :
    ∃ s', neighbours.foldlM (OpenCollabEval.visit m current) s = some s' ∧
      Searching adj m lefts start s' ∧ Visited lefts s s' ∧
      ∀ right ∈ neighbours, ∃ owner, m right = some owner ∧ (s'.1 owner).isSome := by
  induction neighbours generalizing s with
  | nil => exact ⟨s, rfl, h, .refl lefts s, by simp⟩
  | cons right rest ih =>
    rw [List.forall_mem_cons] at hadj howned
    obtain ⟨owner, hmem, howner⟩ := howned.1
    obtain ⟨s', hvisit, hsearching, hvisited, hfound⟩ := h.visit hcurrent hadj.1 howner hmem
    obtain ⟨s'', hrest, hsearching', hvisited', hall⟩ :=
      ih hsearching (hvisited.isSome hcurrent) hadj.2 howned.2
    refine ⟨s'', ?_, hsearching', hvisited.trans hvisited', ?_⟩
    · rw [List.foldlM_cons, hvisit]
      exact hrest
    · rw [List.forall_mem_cons]
      exact ⟨⟨owner, howner, hvisited'.isSome hfound⟩, hall⟩

/-- The search of one more left vertex ends with a maximum matching. -/
theorem IsMaximum.search (limit fuel : Nat) (hmax : IsMaximum adj lefts rights m)
    (hstart : start ∉ lefts) (hwithin : ∀ left right, right ∈ adj left → right ∈ rights)
    (hlimit : (insert start lefts).card < limit) (h : Searching adj m (insert start lefts) start s)
    (hclosed : ∀ left, (s.1 left).isSome → left ∉ s.2 → Explored adj m s.1 left)
    (hfuel : (insert start lefts).card + s.2.length < fuel + (found (insert start lefts) s.1).card) :
    ∃ m', OpenCollabEval.search adj limit m fuel s.1 s.2 = some m' ∧
      IsMaximum adj (insert start lefts) rights m' := by
  induction fuel generalizing s with
  | zero =>
    have hle : (found (insert start lefts) s.1).card ≤ (insert start lefts).card :=
      Finset.card_le_card (Finset.filter_subset _ _)
    omega
  | succ fuel ih =>
    obtain ⟨links, pending⟩ := s
    cases pending with
    | nil =>
      have hall : ClosedIn adj m {left | (links left).isSome} := by
        intro left hleft right hright
        obtain ⟨owner, howner, hfound⟩ := hclosed left hleft List.not_mem_nil right hright
        exact ⟨owner, hfound, howner⟩
      refine ⟨m, rfl, hmax.stay hall ?_⟩
      · have hroot : links start = some none := h.start_root
        change (links start).isSome
        rw [hroot]
        rfl
    | cons current pending =>
      have hcurrent := h.pending current (List.mem_cons_self ..)
      rw [OpenCollabEval.search]
      split
      next free hfree =>
        obtain ⟨n, hlinked, hn⟩ := h.depth current hcurrent
        have hle : (found (insert start lefts) links).card ≤ (insert start lefts).card :=
          Finset.card_le_card (Finset.filter_subset _ _)
        have hnone : m free = none := by simpa using List.find?_some hfree
        have hway : OnTheWay adj links lefts rights start m current free n :=
          ⟨hlinked, hmax.toIsMatching, hnone,
            fun right hright => hstart (hmax.left_mem right start hright),
            List.mem_of_find?_eq_some hfree, h.root,
            fun left next right hlink => (h.link left next right hlink).1,
            fun left next right _ _ _ hlink => (h.link left next right hlink).2, hwithin⟩
        obtain ⟨m', haugment, hmatching, hcard⟩ :=
          augment_spec m (by rw [← hnone, Function.update_eq_self]) hway
            (show n < limit by dsimp only at hn; omega)
        exact ⟨m', haugment, hmax.grow hmatching hcard⟩
      next hfree =>
        have howned : ∀ right ∈ adj current, ∃ owner ∈ insert start lefts, m right = some owner := by
          intro right hright
          have hsome := List.find?_eq_none.mp hfree right hright
          obtain ⟨owner, howner⟩ := Option.ne_none_iff_exists'.mp (by simpa using hsome)
          exact ⟨owner, Finset.mem_insert_of_mem (hmax.left_mem right owner howner), howner⟩
        have hpopped : Searching adj m (insert start lefts) start (links, pending) :=
          ⟨h.start_root, h.root, h.link, h.depth, h.mem,
            fun left hleft => h.pending left (List.mem_cons_of_mem _ hleft)⟩
        obtain ⟨s', hfold, hsearching, hvisited, hexplored⟩ :=
          hpopped.visitAll hcurrent (fun _ hright => hright) howned
        rw [hfold]
        refine ih hsearching (fun left hleft hnot => ?_) ?_
        · rcases hvisited.fresh left hleft with hold | hpending
          · by_cases heq : left = current
            · subst heq
              exact hexplored
            · have hwas := hclosed left hold fun hmem =>
                (List.mem_cons.mp hmem).elim heq fun hmem => hnot (hvisited.pending left hmem)
              intro right hright
              obtain ⟨owner, howner, hfound⟩ := hwas right hright
              exact ⟨owner, howner, hvisited.isSome hfound⟩
          · exact absurd hpending hnot
        · have hcount := hvisited.count
          simp only [List.length_cons] at hfuel hcount
          omega

/-- The links of a search before its first step. -/
def firstLink (β : Type) (start : α) : BackLinks α β := Function.update (fun _ => none) start (some none)

omit [DecidableEq β] in
theorem firstLink_apply (left : α) :
    firstLink β start left = if left = start then some none else none := by
  rw [firstLink, Function.update_apply]

omit [DecidableEq β] in
theorem found_firstLink (hstart : start ∈ lefts) : found lefts (firstLink β start) = {start} := by
  ext left
  by_cases hleft : left = start
  · simp [found, firstLink_apply, hleft, hstart]
  · simp [found, firstLink_apply, hleft]

omit [DecidableEq β] in
/-- A search begins with its start. -/
theorem searching_firstLink (hstart : start ∈ lefts) :
    Searching adj m lefts start (firstLink β start, [start]) := by
  have hroot : firstLink β start start = some none := by rw [firstLink_apply, if_pos rfl]
  have honly : ∀ left, (firstLink β start left).isSome → left = start := by
    intro left hleft
    by_contra hne
    rw [firstLink_apply, if_neg hne] at hleft
    cases hleft
  refine ⟨hroot, fun left hleft => honly left ?_, fun left next right hleft => ?_,
    fun left hleft => ?_, fun left hleft => ?_, fun left hleft => ?_⟩
  · exact Option.isSome_of_eq_some hleft
  · dsimp only at hleft
    obtain rfl := honly left (by rw [hleft]; rfl)
    rw [hroot] at hleft
    cases hleft
  · obtain rfl := honly left hleft
    exact ⟨0, .root hroot, by rw [found_firstLink hstart, Finset.card_singleton]; exact Nat.one_pos⟩
  · exact honly left hleft ▸ hstart
  · rw [List.mem_singleton.mp hleft]
    exact Option.isSome_of_eq_some hroot

/-- One search for each left vertex gives a maximum matching. -/
theorem matchAll_isMaximum {limit : Nat} {starts : List α} (hstarts : starts.Nodup)
    (hwithin : ∀ left right, right ∈ adj left → right ∈ rights) (hlimit : starts.length < limit) :
    ∃ m, matchAll adj limit starts = some m ∧ IsMaximum adj starts.toFinset rights m := by
  induction starts using List.reverseRecOn with
  | nil => exact ⟨fun _ => none, rfl, isMaximum_empty⟩
  | append_singleton starts start ih =>
    rw [List.length_append, List.length_singleton] at hlimit
    obtain ⟨hnodup, -, hdisjoint⟩ := List.nodup_append.mp hstarts
    obtain ⟨m, hmatch, hmax⟩ := ih hnodup (by omega)
    have hnew : start ∉ starts.toFinset := fun hmem =>
      hdisjoint start (List.mem_toFinset.mp hmem) start (List.mem_singleton_self _) rfl
    have hmem : start ∈ insert start starts.toFinset := Finset.mem_insert_self ..
    have hcard : (insert start starts.toFinset).card = starts.length + 1 := by
      rw [Finset.card_insert_of_notMem hnew, List.toFinset_card_of_nodup hnodup]
    have hclosed : ∀ left, (firstLink β start left).isSome → left ∉ [start] →
        Explored adj m (firstLink β start) left := by
      intro left hleft hnot
      rw [firstLink_apply, if_neg (by simpa using hnot)] at hleft
      cases hleft
    obtain ⟨m', hsearch, hmax'⟩ := hmax.search limit limit hnew hwithin (by omega)
      (searching_firstLink hmem) hclosed (by
        rw [hcard, found_firstLink hmem, Finset.card_singleton, List.length_singleton]
        omega)
    refine ⟨m', ?_, ?_⟩
    · rw [matchAll] at hmatch ⊢
      rw [List.foldlM_append, hmatch]
      exact (bind_pure _).trans hsearch
    · have htoFinset : (starts ++ [start]).toFinset = insert start starts.toFinset := by
        ext left
        simp
      rwa [htoFinset]

end Searching

end OpenCollabEval
