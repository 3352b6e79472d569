import OpenCollabEval.Python.JsonRespaced

/-!
# What is left of a JSON text

What a scanner leaves of a text is an end of the text. So an object is closed by a brace of its own
text, and a document that begins with an opening brace is not read without a closing one.
-/

namespace Python

/-- What a scanner leaves of a text is an end of it. -/
def Rests {α : Type} (scan : Str → Except PyErr (α × Str)) : Prop :=
  ∀ s a rest, scan s = .ok (a, rest) → rest <:+ s

theorem suffix_of_skipSpace (s : Str) : skipSpace s <:+ s := List.dropWhile_suffix _

theorem rests_scanString : Rests scanString := by
  intro s a rest h
  rw [scanString] at h
  cases hscan : scanUnits .plain s with
  | none => simp [hscan] at h
  | some found =>
    rw [hscan] at h
    cases h
    exact suffix_of_scanUnits hscan

section Series

variable {α : Type} {element : Str → Except PyErr (α × Str)} {close : Nat}

/-- A series ends after its closing bracket. -/
theorem close_mem_of_scanSeries (helement : Rests element) {n : Nat} {s rest : Str} {vs : List α}
    (h : scanSeries close element n s = .ok (vs, rest)) : close ∈ s ∧ rest <:+ s := by
  induction n generalizing s vs rest with
  | zero => cases h
  | succ n ih =>
    rw [scanSeries] at h
    obtain ⟨⟨v, tail⟩, hv, h⟩ := bind_eq_ok_iff.mp h
    have htail : skipSpace tail <:+ s := (suffix_of_skipSpace tail).trans (helement _ _ _ hv)
    have hnext : (skipSpace tail).tail <:+ s := (List.tail_suffix _).trans htail
    dsimp only at h
    split_ifs at h with hcomma hclose
    · -- one more element
      cases hmore : scanSeries close element n (skipSpace (skipSpace tail).tail) with
      | error => simp [hmore, Except.map] at h
      | ok r =>
        rw [hmore] at h
        cases h
        obtain ⟨hmem, hsuffix⟩ := ih hmore
        have hspace := (suffix_of_skipSpace _).trans hnext
        exact ⟨hspace.mem hmem, hsuffix.trans hspace⟩
    · cases h
      exact ⟨htail.mem (List.mem_of_head? hclose), hnext⟩

theorem close_mem_of_scanGroup (helement : Rests element) {make : List α → Json} {s rest : Str}
    {v : Json} (h : scanGroup close element make s = .ok (v, rest)) : close ∈ s ∧ rest <:+ s := by
  rw [scanGroup] at h
  split_ifs at h with hclose
  · cases h
    have hspace := suffix_of_skipSpace s
    exact ⟨hspace.mem (List.mem_of_head? hclose), (List.tail_suffix _).trans hspace⟩
  · cases hscan : scanSeries close element (skipSpace s).length (skipSpace s) with
    | error => simp [hscan, Except.map] at h
    | ok r =>
      rw [hscan] at h
      cases h
      obtain ⟨hmem, hsuffix⟩ := close_mem_of_scanSeries helement hscan
      have hspace := suffix_of_skipSpace s
      exact ⟨hspace.mem hmem, hsuffix.trans hspace⟩

end Series

section Document

variable {inner : Str → Except PyErr (Json × Str)}

theorem rests_scanEntry (hinner : Rests inner) : Rests (scanEntry inner) := by
  rintro s ⟨key, v⟩ rest h
  rcases s with _ | ⟨c, s⟩
  · cases h
  by_cases hquote : c = 34
  · subst hquote
    rw [scanEntry] at h
    obtain ⟨⟨key', tail⟩, hkey, h⟩ := bind_eq_ok_iff.mp h
    have htail := (suffix_of_skipSpace tail).trans (rests_scanString _ _ _ hkey)
    dsimp only at h
    rcases hskip : skipSpace tail with _ | ⟨d, next⟩
    · rw [hskip] at h
      cases h
    · rw [hskip] at h htail
      by_cases hcolon : d = 58
      · subst hcolon
        obtain ⟨⟨v', tail'⟩, hv, h⟩ := bind_eq_ok_iff.mp h
        cases h
        have hvalue := (hinner _ _ _ hv).trans (suffix_of_skipSpace next)
        exact ((hvalue.trans (List.suffix_cons 58 next)).trans htail).trans (List.suffix_cons 34 s)
      · exact absurd h (by simp [hcolon])
  · exact absurd h (by simp [scanEntry, hquote])

/-- A value leaves an end of the text, when the arrays and objects below it do. -/
theorem rests_scanOnce_step {depth : Nat} (hnested : ∀ below, depth = below + 1 → Rests (scanOnce below)) :
    Rests (scanOnce depth) := by
  intro s v rest h
  rcases s with _ | ⟨c, s⟩
  · exact absurd h (scanOnce_nil depth _)
  rw [scanOnce.eq_def] at h
  dsimp only at h
  split_ifs at h with hquote harray hobject
  · cases hscan : scanString s with
    | error => simp [hscan, Except.map] at h
    | ok found =>
      rw [hscan] at h
      cases h
      exact (rests_scanString _ _ _ hscan).trans (List.suffix_cons c s)
  · rcases depth with _ | depth
    · cases h
    · dsimp only at h
      rw [scanArray_eq_scanGroup] at h
      exact (close_mem_of_scanGroup (hnested depth rfl) h).2.trans (List.suffix_cons c s)
  · rcases depth with _ | depth
    · cases h
    · dsimp only at h
      rw [scanObject_eq_scanGroup] at h
      exact (close_mem_of_scanGroup (rests_scanEntry (hnested depth rfl)) h).2.trans
        (List.suffix_cons c s)
  · exact (readable_of_scanAtom 0 h).2

theorem rests_scanOnce (depth : Nat) : Rests (scanOnce depth) := by
  induction depth with
  | zero =>
    refine rests_scanOnce_step fun below hbelow => ?_
    cases hbelow
  | succ depth ih =>
    refine rests_scanOnce_step fun below hbelow => ?_
    cases hbelow
    exact ih

/-- A document that begins with an opening brace has a closing one. -/
theorem brace_mem_of_loads {depth : Nat} {s : Str} {v : Json} (h : loads depth (123 :: s) = .ok v) :
    125 ∈ s := by
  have hskip : skipSpace (123 :: s) = 123 :: s := rfl
  rw [loads, hskip] at h
  split_ifs at h
  obtain ⟨⟨value, rest⟩, hscan, -⟩ := bind_eq_ok_iff.mp h
  rcases depth with _ | depth
  · cases hscan
  · have hobject : scanOnce (depth + 1) (123 :: s) = scanObject (scanOnce depth) s := rfl
    rw [hobject, scanObject_eq_scanGroup] at hscan
    exact (close_mem_of_scanGroup (rests_scanEntry (rests_scanOnce depth)) hscan).1

end Document

end Python
