import OpenCollabEval.Python.Pattern

/-!
# What patterns match

A pattern relates a position to the positions where a match from there can end. Backtracking finds a match
that lets the rest of the pattern succeed exactly when there is one. Where all of them agree on something,
so does the one that is found, whatever the order of the search.
-/

namespace Python.Pattern

/-- From one position to another along a pattern. -/
inductive Matches : Pattern → Cursor → Cursor → Prop
  | empty (c : Cursor) : Matches .empty c c
  | chars {accepts : Nat → Bool} {c : Cursor} {x : Nat} {rest : Str} (hrest : c.rest = x :: rest)
    (h : accepts x = true) : Matches (.chars accepts) c { c with previous := some x, rest := rest }
  | seq {p q : Pattern} {c d e : Cursor} (hp : Matches p c d) (hq : Matches q d e) :
    Matches (.seq p q) c e
  | altLeft {p q : Pattern} {c d : Cursor} (h : Matches p c d) : Matches (.alt p q) c d
  | altRight {p q : Pattern} {c d : Cursor} (h : Matches q c d) : Matches (.alt p q) c d
  | starNil {greedy : Bool} {p : Pattern} (c : Cursor) : Matches (.star greedy p) c c
  | starCons {greedy : Bool} {p : Pattern} {c d e : Cursor} (hp : Matches p c d)
    (hlt : d.rest.length < c.rest.length) (hrest : Matches (.star greedy p) d e) :
    Matches (.star greedy p) c e
  | group {n : Nat} {p : Pattern} {c d : Cursor} (h : Matches p c d) :
    Matches (.group n p) c { d with groups := (n, c.upTo d) :: d.groups }
  | lineStart {c : Cursor} (h : c.previous.all (· == 10) = true) : Matches .lineStart c c
  | lineEnd {c : Cursor} (h : c.rest.head?.all (· == 10) = true) : Matches .lineEnd c c
  | wordEdge {isWord : Nat → Bool} {c : Cursor}
    (h : (c.previous.any isWord != c.rest.head?.any isWord) = true) : Matches (.wordEdge isWord) c c
  | look {holds : Option Nat → Str → Bool} {c : Cursor} (h : holds c.previous c.rest = true) :
    Matches (.look holds) c c

section Run

variable {p : Pattern} {c d : Cursor} {next : Cursor → Option Cursor} {r : Cursor}

theorem orElse_eq_some {x y : Option Cursor} (h : (x <|> y) = some r) : x = some r ∨ y = some r := by
  cases x with
  | none => exact .inr h
  | some value => exact .inl h

/-- What a repetition finds is a sequence of steps. -/
theorem repeatStep_sound {greedy : Bool} (hp : ∀ {c : Cursor} {next : Cursor → Option Cursor}
    {r : Cursor}, p.run c next = some r → ∃ d, Matches p c d ∧ next d = some r) {n : Nat}
    (h : repeatStep p.run greedy n c next = some r) :
    ∃ d, Matches (.star greedy p) c d ∧ next d = some r := by
  induction n generalizing c with
  | zero => exact ⟨c, .starNil c, h⟩
  | succ n ih =>
    have hmore : (p.run c fun d => if d.rest.length < c.rest.length then
        repeatStep p.run greedy n d next else none) = some r →
        ∃ d, Matches (.star greedy p) c d ∧ next d = some r := by
      intro hmore
      obtain ⟨d, hd, hnext⟩ := hp hmore
      split_ifs at hnext with hlt
      obtain ⟨e, he, hr⟩ := ih hnext
      exact ⟨e, .starCons hd hlt he, hr⟩
    rw [repeatStep] at h
    cases greedy with
    | true => exact (orElse_eq_some h).elim hmore fun h => ⟨c, .starNil c, h⟩
    | false => exact (orElse_eq_some h).elim (fun h => ⟨c, .starNil c, h⟩) hmore

/-- What backtracking finds is a match. -/
theorem run_sound (h : p.run c next = some r) : ∃ d, Matches p c d ∧ next d = some r := by
  induction p generalizing c next r with
  | empty => exact ⟨c, .empty c, h⟩
  | chars accepts =>
    rw [run] at h
    split at h
    · cases h
    next x rest hrest =>
      split_ifs at h with hx
      exact ⟨_, .chars hrest hx, h⟩
  | seq p q ihp ihq =>
    obtain ⟨d, hd, h⟩ := ihp h
    obtain ⟨e, he, h⟩ := ihq h
    exact ⟨e, .seq hd he, h⟩
  | alt p q ihp ihq =>
    rcases orElse_eq_some h with h | h
    · obtain ⟨d, hd, h⟩ := ihp h
      exact ⟨d, .altLeft hd, h⟩
    · obtain ⟨d, hd, h⟩ := ihq h
      exact ⟨d, .altRight hd, h⟩
  | star greedy p ih => exact repeatStep_sound ih h
  | group n p ih =>
    obtain ⟨d, hd, h⟩ := ih h
    exact ⟨_, .group hd, h⟩
  | lineStart =>
    rw [run] at h
    split_ifs at h with hc
    exact ⟨c, .lineStart hc, h⟩
  | lineEnd =>
    rw [run] at h
    split_ifs at h with hc
    exact ⟨c, .lineEnd hc, h⟩
  | wordEdge isWord =>
    rw [run] at h
    split_ifs at h with hc
    exact ⟨c, .wordEdge hc, h⟩
  | look holds =>
    rw [run] at h
    split_ifs at h with hc
    exact ⟨c, .look hc, h⟩

theorem isSome_orElse {x y : Option Cursor} (h : x.isSome ∨ y.isSome) : (x <|> y).isSome := by
  cases x with
  | none => exact h.resolve_left Bool.false_ne_true
  | some value => rfl

/-- A repetition finds something when there is a sequence of steps, with as much fuel as code points. -/
theorem repeatStep_complete {greedy : Bool} (hp : ∀ {c d : Cursor} {next : Cursor → Option Cursor},
    Matches p c d → (next d).isSome → (p.run c next).isSome) (h : Matches (.star greedy p) c d)
    (hnext : (next d).isSome) {n : Nat} (hn : c.rest.length ≤ n) :
    (repeatStep p.run greedy n c next).isSome := by
  generalize hstar : Pattern.star greedy p = star at h
  induction h generalizing n with
  | starNil c =>
    cases n with
    | zero => exact hnext
    | succ n =>
      rw [repeatStep]
      cases greedy with
      | true => exact isSome_orElse (.inr hnext)
      | false => exact isSome_orElse (.inl hnext)
  | @starCons _ _ c d e hstep hlt _ _ ih =>
    cases hstar
    cases n with
    | zero => omega
    | succ n =>
      have hmore : (p.run c fun d => if d.rest.length < c.rest.length then
          repeatStep p.run greedy n d next else none).isSome :=
        hp hstep (by rw [if_pos hlt]; exact ih hnext (by omega) rfl)
      rw [repeatStep]
      cases greedy with
      | true => exact isSome_orElse (.inl hmore)
      | false => exact isSome_orElse (.inr hmore)
  | _ => cases hstar

/-- Backtracking finds something when there is a match. -/
theorem run_complete (h : Matches p c d) (hnext : (next d).isSome) : (p.run c next).isSome := by
  induction p generalizing c d next with
  | empty => cases h; exact hnext
  | chars accepts =>
    cases h with
    | chars hrest hx =>
      rw [run, hrest]
      dsimp only
      rw [if_pos hx]
      exact hnext
  | seq p q ihp ihq =>
    cases h with
    | seq hp hq => exact ihp hp (ihq hq hnext)
  | alt p q ihp ihq =>
    cases h with
    | altLeft h => exact isSome_orElse (.inl (ihp h hnext))
    | altRight h => exact isSome_orElse (.inr (ihq h hnext))
  | star greedy p ih => exact repeatStep_complete ih h hnext le_rfl
  | group n p ih =>
    cases h with
    | group h => exact ih h hnext
  | lineStart =>
    cases h with
    | lineStart hc => rw [run, if_pos hc]; exact hnext
  | lineEnd =>
    cases h with
    | lineEnd hc => rw [run, if_pos hc]; exact hnext
  | wordEdge isWord =>
    cases h with
    | wordEdge hc => rw [run, if_pos hc]; exact hnext
  | look holds =>
    cases h with
    | look hc => rw [run, if_pos hc]; exact hnext

theorem matchAt_sound (h : p.matchAt c = some d) : Matches p { c with groups := [] } d := by
  obtain ⟨e, he, heq⟩ := run_sound h
  cases heq
  exact he

theorem matchAt_isSome (h : Matches p { c with groups := [] } d) : (p.matchAt c).isSome :=
  run_complete h rfl

end Run

section Pieces

variable {c d : Cursor} {p q : Pattern}

/-- Some code points of a class, one after the other, from one position to another. -/
structure Passes (accepts : Nat → Bool) (xs : Str) (c d : Cursor) : Prop where
  accepted : ∀ x ∈ xs, accepts x = true
  rest_eq : c.rest = xs ++ d.rest
  groups_eq : d.groups = c.groups

theorem passes_of_chars {accepts : Nat → Bool} (h : Matches (.chars accepts) c d) :
    ∃ x, Passes accepts [x] c d := by
  cases h with
  | @chars _ _ x rest hrest hx => exact ⟨x, by simpa using hx, hrest, rfl⟩

theorem passes_of_star {accepts : Nat → Bool} {greedy : Bool}
    (h : Matches (.star greedy (.chars accepts)) c d) : ∃ xs, Passes accepts xs c d := by
  generalize hstar : Pattern.star greedy (.chars accepts) = star at h
  induction h with
  | starNil c => exact ⟨[], by simp, rfl, rfl⟩
  | starCons hstep _ _ _ ih =>
    cases hstar
    obtain ⟨x, hx⟩ := passes_of_chars hstep
    obtain ⟨xs, hxs⟩ := ih rfl
    refine ⟨x :: xs, ?_, ?_, hxs.groups_eq.trans hx.groups_eq⟩
    · exact List.forall_mem_cons.mpr ⟨hx.accepted x (by simp), hxs.accepted⟩
    · rw [hx.rest_eq, hxs.rest_eq]
      rfl
  | _ => cases hstar

theorem exists_star {accepts : Nat → Bool} {greedy : Bool} {xs rest : Str}
    (hxs : ∀ x ∈ xs, accepts x = true) (hrest : c.rest = xs ++ rest) :
    ∃ d, Matches (.star greedy (.chars accepts)) c d ∧ d.rest = rest ∧ d.groups = c.groups := by
  induction xs generalizing c with
  | nil => exact ⟨c, .starNil c, hrest, rfl⟩
  | cons x xs ih =>
    rw [List.forall_mem_cons] at hxs
    obtain ⟨d, hd, hdrest, hgroups⟩ :=
      @ih { c with previous := some x, rest := xs ++ rest } hxs.2 rfl
    refine ⟨d, .starCons (.chars hrest hxs.1) ?_ hd, hdrest, hgroups⟩
    rw [hrest]
    exact Nat.lt_succ_self _

theorem matches_plus_iff : Matches (.plus p) c d ↔ ∃ e, Matches p c e ∧ Matches (.star true p) e d := by
  constructor
  · intro h
    cases h with
    | seq hp hstar => exact ⟨_, hp, hstar⟩
  · rintro ⟨e, hp, hstar⟩
    exact .seq hp hstar

theorem passes_of_plus {accepts : Nat → Bool} (h : Matches (.plus (.chars accepts)) c d) :
    ∃ xs, xs ≠ [] ∧ Passes accepts xs c d := by
  obtain ⟨e, hfirst, hstar⟩ := matches_plus_iff.mp h
  obtain ⟨x, hx⟩ := passes_of_chars hfirst
  obtain ⟨xs, hxs⟩ := passes_of_star hstar
  refine ⟨x :: xs, by simp, ?_, ?_, hxs.groups_eq.trans hx.groups_eq⟩
  · exact List.forall_mem_cons.mpr ⟨hx.accepted x (by simp), hxs.accepted⟩
  · rw [hx.rest_eq, hxs.rest_eq]
    rfl

theorem exists_chars {accepts : Nat → Bool} {x : Nat} {rest : Str} (hx : accepts x = true)
    (hrest : c.rest = x :: rest) :
    ∃ d, Matches (.chars accepts) c d ∧ d.rest = rest ∧ d.groups = c.groups :=
  ⟨_, .chars hrest hx, rfl, rfl⟩

theorem exists_plus {accepts : Nat → Bool} {xs rest : Str} (hne : xs ≠ [])
    (hxs : ∀ x ∈ xs, accepts x = true) (hrest : c.rest = xs ++ rest) :
    ∃ d, Matches (.plus (.chars accepts)) c d ∧ d.rest = rest ∧ d.groups = c.groups := by
  obtain ⟨x, xs, rfl⟩ := List.exists_cons_of_ne_nil hne
  rw [List.forall_mem_cons] at hxs
  obtain ⟨e, hfirst, herest, hegroups⟩ := exists_chars hxs.1 hrest
  obtain ⟨d, hstar, hdrest, hdgroups⟩ := @exists_star e _ true _ _ hxs.2 herest
  exact ⟨d, matches_plus_iff.mpr ⟨e, hfirst, hstar⟩, hdrest, hdgroups.trans hegroups⟩

theorem matches_seq_iff : Matches (.seq p q) c d ↔ ∃ e, Matches p c e ∧ Matches q e d := by
  constructor
  · intro h
    cases h with
    | seq hp hq => exact ⟨_, hp, hq⟩
  · rintro ⟨e, hp, hq⟩
    exact .seq hp hq

theorem matches_alt_iff : Matches (.alt p q) c d ↔ Matches p c d ∨ Matches q c d := by
  constructor
  · intro h
    cases h with
    | altLeft h => exact .inl h
    | altRight h => exact .inr h
  · exact fun h => h.elim .altLeft .altRight

theorem matches_empty_iff : Matches .empty c d ↔ d = c := by
  constructor
  · intro h
    cases h
    rfl
  · rintro rfl
    exact .empty d

theorem matches_group_iff {n : Nat} : Matches (.group n p) c d ↔
    ∃ e, Matches p c e ∧ d = { e with groups := (n, c.upTo e) :: e.groups } := by
  constructor
  · intro h
    cases h with
    | group h => exact ⟨_, h, rfl⟩
  · rintro ⟨e, h, rfl⟩
    exact .group h

theorem matches_look_iff {holds : Option Nat → Str → Bool} :
    Matches (.look holds) c d ↔ d = c ∧ holds c.previous c.rest = true := by
  constructor
  · intro h
    cases h with
    | look h => exact ⟨rfl, h⟩
  · rintro ⟨rfl, h⟩
    exact .look h

/-- A literal matches itself only. -/
theorem passes_of_lit {s : Str} (h : Matches (lit s) c d) :
    c.rest = s ++ d.rest ∧ d.groups = c.groups := by
  induction s generalizing c with
  | nil =>
    obtain rfl := matches_empty_iff.mp h
    exact ⟨rfl, rfl⟩
  | cons x s ih =>
    obtain ⟨e, hx, hs⟩ := matches_seq_iff.mp h
    obtain ⟨y, hy⟩ := passes_of_chars hx
    obtain rfl : y = x := by simpa using hy.accepted y (by simp)
    obtain ⟨hrest, hgroups⟩ := ih hs
    refine ⟨?_, hgroups.trans hy.groups_eq⟩
    rw [hy.rest_eq, hrest]
    rfl

theorem exists_lit {s rest : Str} (hrest : c.rest = s ++ rest) :
    ∃ d, Matches (lit s) c d ∧ d.rest = rest ∧ d.groups = c.groups := by
  induction s generalizing c with
  | nil => exact ⟨c, .empty c, hrest, rfl⟩
  | cons x s ih =>
    obtain ⟨e, hx, herest, hegroups⟩ := @exists_chars c (· == x) x _ (beq_self_eq_true x) hrest
    obtain ⟨d, hd, hdrest, hdgroups⟩ := ih herest
    exact ⟨d, matches_seq_iff.mpr ⟨e, hx, hd⟩, hdrest, hdgroups.trans hegroups⟩

/-- The text of a group. -/
theorem upTo_eq {xs : Str} (h : c.rest = xs ++ d.rest) : c.upTo d = xs := by
  rw [Cursor.upTo, h, List.length_append, Nat.add_sub_cancel, List.take_left]

/-- A group is passed over as its pattern is. -/
theorem exists_group {n : Nat} {rest : Str} (h : ∃ d, Matches p c d ∧ d.rest = rest ∧ d.groups = c.groups) :
    ∃ d, Matches (.group n p) c d ∧ d.rest = rest := by
  obtain ⟨d, hd, hrest, -⟩ := h
  exact ⟨_, .group hd, hrest⟩

/-- The group of one code point. -/
theorem group_of_chars {accepts : Nat → Bool} {n : Nat} (h : Matches (.group n (.chars accepts)) c d) :
    ∃ x, accepts x = true ∧ c.rest = x :: d.rest ∧ d.groups = (n, [x]) :: c.groups := by
  obtain ⟨e, he, rfl⟩ := matches_group_iff.mp h
  obtain ⟨x, hx⟩ := passes_of_chars he
  exact ⟨x, hx.accepted x (List.mem_cons_self ..), hx.rest_eq, by rw [upTo_eq hx.rest_eq, hx.groups_eq]⟩

/-- The group of some code points of a class. -/
theorem group_of_plus {accepts : Nat → Bool} {n : Nat}
    (h : Matches (.group n (.plus (.chars accepts))) c d) :
    ∃ xs, xs ≠ [] ∧ (∀ x ∈ xs, accepts x = true) ∧ c.rest = xs ++ d.rest ∧
      d.groups = (n, xs) :: c.groups := by
  obtain ⟨e, he, rfl⟩ := matches_group_iff.mp h
  obtain ⟨xs, hne, hxs⟩ := passes_of_plus he
  exact ⟨xs, hne, hxs.accepted, hxs.rest_eq, by rw [upTo_eq hxs.rest_eq, hxs.groups_eq]⟩

theorem matchStart_sound {s : Str} (h : p.matchStart s = some d) : Matches p (.start s) d :=
  matchAt_sound h

theorem matchStart_isSome {s : Str} (h : Matches p (.start s) d) : (p.matchStart s).isSome :=
  matchAt_isSome h

/-- No match when there is no way from the start of the text. -/
theorem matchStart_eq_none {s : Str} (h : ∀ d, ¬Matches p (.start s) d) : p.matchStart s = none := by
  cases hmatch : p.matchStart s with
  | none => rfl
  | some d => exact absurd (matchStart_sound hmatch) (h d)

/-- What holds of all ways from the start of the text, when there is one, holds of the match. -/
theorem exists_matchStart {s : Str} {P : Cursor → Prop} (h : Matches p (.start s) d)
    (hall : ∀ e, Matches p (.start s) e → P e) : ∃ e, p.matchStart s = some e ∧ P e := by
  obtain ⟨e, he⟩ := Option.isSome_iff_exists.mp (matchStart_isSome h)
  exact ⟨e, he, hall e (matchStart_sound he)⟩

end Pieces

section Sub

variable {p : Pattern} {replacement : Str}

theorem subFrom_of_none {fuel : Nat} {c : Cursor} {x : Nat} {rest : Str} (hrest : c.rest = x :: rest)
    (h : p.matchAt c = none) :
    p.subFrom replacement (fuel + 1) c = x :: p.subFrom replacement fuel c.advance := by
  rw [subFrom, h, hrest]

theorem subFrom_of_some {fuel : Nat} {c d : Cursor} (h : p.matchAt c = some d)
    (hlt : d.rest.length < c.rest.length) :
    p.subFrom replacement (fuel + 1) c = replacement ++ p.subFrom replacement fuel d := by
  rw [subFrom, h]
  cases hrest : c.rest with
  | nil => simp [hrest] at hlt
  | cons x rest =>
    rw [hrest] at hlt
    dsimp only
    rw [if_pos hlt]

theorem subFrom_nil {fuel : Nat} {c : Cursor} (h : c.rest = []) : p.subFrom replacement fuel c = [] := by
  cases fuel with
  | zero => exact h
  | succ fuel => rw [subFrom, h]

end Sub

end Python.Pattern
