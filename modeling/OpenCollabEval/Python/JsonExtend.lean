import OpenCollabEval.Python.JsonRest
import OpenCollabEval.Python.Utf8

/-!
# A JSON text that goes on

A value that is closed, or followed by white space or by a delimiter, is read in the same way
whatever comes after the text. So two texts of which one begins with the other, and the shorter is
an object, differ in white space only: an object that is cut off is not read as another one.
-/

namespace Python

namespace Str

/-- What strict UTF-8 decodes is encoded to the same bytes. -/
theorem encode_of_decodeUtf8 {bytes : List Nat} {s : Str} (h : decodeUtf8 false bytes = some s) :
    s.encodeSurrogatePass = bytes := by
  have hfrom (skip : Nat) (bytes : List Nat) (s : Str)
      (h : decodeUtf8From false skip bytes = some s) : s.encodeSurrogatePass = bytes.drop skip := by
    induction bytes generalizing skip s with
    | nil =>
      obtain rfl : [] = s := by simpa [decodeUtf8From] using h
      simp [encodeSurrogatePass]
    | cons b rest ih =>
      rw [decodeUtf8From] at h
      split_ifs at h with hskip
      · obtain ⟨skip, rfl⟩ := Nat.exists_eq_succ_of_ne_zero (Nat.ne_of_gt hskip)
        exact ih skip s h
      · simp only [Option.bind_eq_bind, Option.bind_eq_some_iff, Option.pure_def,
          Option.some.injEq] at h
        obtain ⟨⟨c, length⟩, hpoint, tail, htail, rfl⟩ := h
        have hscalar : utf8Scalar (b :: rest) = some (c, length) := by
          unfold utf8Point at hpoint
          rcases hfound : utf8Scalar (b :: rest) with _ | found
          · rw [hfound] at hpoint
            rcases rest with _ | ⟨b', _ | ⟨b'', rest⟩⟩ <;> simp at hpoint
          · simpa [hfound] using hpoint
        have hfound := List.find?_some hscalar
        simp only [Bool.and_eq_true, beq_iff_eq] at hfound
        obtain ⟨-, hchar⟩ := hfound
        obtain rfl : skip = 0 := Nat.eq_zero_of_not_pos hskip
        obtain ⟨length, rfl⟩ : ∃ n, length = n + 1 := by
          refine Nat.exists_eq_succ_of_ne_zero ?_
          rintro rfl
          exact utf8Char_ne_nil c (hchar.trans List.take_zero)
        have hrest := ih _ _ htail
        rw [encodeSurrogatePass] at hrest
        rw [encodeSurrogatePass, List.flatMap_cons, hrest, hchar, List.take_succ_cons,
          List.cons_append, Nat.add_sub_cancel, List.take_append_drop]
        rfl
  exact hfrom 0 bytes s h

end Str

/-- Nothing can belong to a value that goes on here. -/
def Delimited (rest : Str) : Prop :=
  ∃ c tail, rest = c :: tail ∧ (isJsonSpace c = true ∨ c = 44 ∨ c = 93 ∨ c = 125)

/-- A scanner that leaves a delimited rest reads the same when the text goes on. -/
def Extends {α : Type} (scan : Str → Except PyErr (α × Str)) : Prop :=
  ∀ s a rest, scan s = .ok (a, rest) → Delimited rest →
    ∀ more, scan (s ++ more) = .ok (a, rest ++ more)

theorem scanUnits_append {state : StringState} {s rest : Str} {units : List StringUnit}
    (h : scanUnits state s = some (units, rest)) (more : Str) :
    scanUnits state (s ++ more) = some (units, rest ++ more) := by
  induction s generalizing state units rest with
  | nil => cases state <;> cases h
  | cons c s ih =>
    have hmap {f : List StringUnit → List StringUnit}
        (h : (scanUnits .plain s).map (fun r => (f r.1, r.2)) = some (units, rest)) :
        (scanUnits .plain (s ++ more)).map (fun r => (f r.1, r.2)) =
          some (units, rest ++ more) := by
      obtain ⟨⟨units', rest'⟩, hscan, heq⟩ := Option.map_eq_some_iff.mp h
      cases heq
      rw [ih hscan, Option.map_some]
    cases state with
    | plain =>
      rw [scanUnits] at h
      rw [List.cons_append, scanUnits]
      split_ifs at h ⊢
      · cases h
        rfl
      · exact ih h
      · exact hmap h
    | escape =>
      rw [scanUnits] at h
      rw [List.cons_append, scanUnits]
      split_ifs at h ⊢
      · exact ih h
      · obtain ⟨d, hd, h⟩ := Option.bind_eq_some_iff.mp h
        rw [hd, Option.bind_some]
        exact hmap h
    | hex left value =>
      rw [scanUnits] at h
      obtain ⟨d, hd, h⟩ := Option.bind_eq_some_iff.mp h
      rw [List.cons_append, scanUnits, hd, Option.bind_some]
      cases left with
      | zero => exact hmap h
      | succ left => exact ih h

theorem scanString_append {s key rest : Str} (h : scanString s = .ok (key, rest)) (more : Str) :
    scanString (s ++ more) = .ok (key, rest ++ more) := by
  rw [scanString] at h
  cases hscan : scanUnits .plain s with
  | none => simp [hscan] at h
  | some found =>
    rw [hscan] at h
    cases h
    rw [scanString, scanUnits_append hscan]

/-- A name or a number ends at a delimiter. -/
theorem extends_scanAtom : Extends scanAtom := by
  rintro s v rest h ⟨c, tail, rfl, hc⟩ more
  have hlow : c < 43 ∨ c = 44 ∨ c = 93 ∨ 122 < c := by
    simp only [isJsonSpace, Bool.or_eq_true, beq_iff_eq] at hc
    omega
  obtain ⟨p, rfl⟩ := (readable_of_scanAtom 0 h).2
  rw [scanAtom_cut hlow] at h
  rw [List.append_assoc, List.cons_append, scanAtom_cut hlow]
  cases hatom : scanAtom p with
  | error error => simp [hatom, Except.map] at h
  | ok found =>
    rw [hatom] at h
    obtain ⟨value, rest⟩ := found
    simp only [Except.map, Except.ok.injEq, Prod.mk.injEq, List.append_left_eq_self] at h
    obtain ⟨rfl, rfl⟩ := h
    rfl

section Series

variable {α : Type} {element : Str → Except PyErr (α × Str)} {close : Nat}

/-- White space before something else ends at the same place when the text goes on. -/
theorem skipSpace_append {s : Str} {c : Nat} (h : (skipSpace s).head? = some c) (more : Str) :
    skipSpace (s ++ more) = skipSpace s ++ more := by
  have hne : (skipSpace s).isEmpty = false := by
    cases hskip : skipSpace s with
    | nil => simp [hskip] at h
    | cons => rfl
  have happend : (s ++ more).dropWhile isJsonSpace =
      if (s.dropWhile isJsonSpace).isEmpty then more.dropWhile isJsonSpace
      else s.dropWhile isJsonSpace ++ more := List.dropWhile_append
  rw [skipSpace] at hne ⊢
  rwa [hne, if_neg Bool.false_ne_true] at happend

/-- What comes before a delimiter after white space is delimited. -/
theorem delimited_of_skipSpace {s : Str} {c : Nat} (h : (skipSpace s).head? = some c)
    (hc : c = 44 ∨ c = 93 ∨ c = 125) : Delimited s := by
  rcases s with _ | ⟨d, s⟩
  · cases h
  · refine ⟨d, s, rfl, ?_⟩
    by_cases hspace : isJsonSpace d = true
    · exact .inl hspace
    · rw [skipSpace, List.dropWhile_cons_of_neg hspace] at h
      cases h
      exact .inr hc

/-- A series is read the same with more steps and when the text goes on. -/
theorem scanSeries_append (helement : Extends element) (hnil : ∀ r, element [] ≠ .ok r)
    (hclose : close = 93 ∨ close = 125) {n n' : Nat} {s rest : Str} {vs : List α} (hn : n ≤ n')
    (h : scanSeries close element n s = .ok (vs, rest)) (more : Str) :
    scanSeries close element n' (s ++ more) = .ok (vs, rest ++ more) := by
  induction n generalizing n' s vs rest with
  | zero => cases h
  | succ n ih =>
    obtain ⟨n', rfl⟩ := Nat.exists_eq_succ_of_ne_zero (Nat.ne_zero_of_lt hn)
    rw [scanSeries] at h
    obtain ⟨⟨v, tail⟩, hv, h⟩ := bind_eq_ok_iff.mp h
    dsimp only at h
    -- what follows the value begins with a delimiter after its white space
    have hnext {d : Nat} (hd : (skipSpace tail).head? = some d)
        (hdelimiter : d = 44 ∨ d = 93 ∨ d = 125) :
        ∃ next, skipSpace tail = d :: next ∧ skipSpace (tail ++ more) = d :: (next ++ more) ∧
          element (s ++ more) = .ok (v, tail ++ more) := by
      obtain ⟨next, hskip⟩ := List.head?_eq_some_iff.mp hd
      refine ⟨next, hskip, ?_, helement _ _ _ hv (delimited_of_skipSpace hd hdelimiter) more⟩
      rw [skipSpace_append hd, hskip, List.cons_append]
    by_cases hcomma : (skipSpace tail).head? = some 44
    · obtain ⟨next, hskip, hskip', hvalue⟩ := hnext hcomma (.inl rfl)
      rw [if_pos hcomma, hskip, List.tail_cons] at h
      rw [scanSeries, hvalue, ok_bind]
      dsimp only
      rw [hskip', List.head?_cons, if_pos rfl, List.tail_cons]
      cases hseries : scanSeries close element n (skipSpace next) with
      | error => simp [hseries, Except.map] at h
      | ok found =>
        rw [hseries] at h
        cases h
        have hhead : ∃ c, (skipSpace next).head? = some c := by
          cases hempty : skipSpace next with
          | nil =>
            rw [hempty] at hseries
            cases n with
            | zero => cases hseries
            | succ n =>
              rw [scanSeries] at hseries
              obtain ⟨r, hr, -⟩ := bind_eq_ok_iff.mp hseries
              exact absurd hr (hnil r)
          | cons c tail => exact ⟨c, rfl⟩
        obtain ⟨c, hc⟩ := hhead
        rw [skipSpace_append hc, ih (Nat.le_of_succ_le_succ hn) hseries]
        rfl
    · by_cases hend : (skipSpace tail).head? = some close
      · obtain ⟨next, hskip, hskip', hvalue⟩ := hnext hend (.inr hclose)
        rw [if_neg hcomma, if_pos hend, hskip] at h
        cases h
        rw [hskip, List.head?_cons] at hcomma
        rw [scanSeries, hvalue, ok_bind]
        dsimp only
        rw [hskip', List.head?_cons, if_neg hcomma, if_pos rfl]
        rfl
      · rw [if_neg hcomma, if_neg hend] at h
        cases h

/-- An array or an object is read the same when the text goes on. -/
theorem scanGroup_append (helement : Extends element) (hnil : ∀ r, element [] ≠ .ok r)
    (hclose : close = 93 ∨ close = 125) {make : List α → Json} {s rest : Str} {v : Json}
    (h : scanGroup close element make s = .ok (v, rest)) (more : Str) :
    scanGroup close element make (s ++ more) = .ok (v, rest ++ more) := by
  rw [scanGroup] at h
  split_ifs at h with hempty
  · cases h
    obtain ⟨next, hskip⟩ := List.head?_eq_some_iff.mp hempty
    rw [scanGroup, skipSpace_append hempty, hskip, List.cons_append, List.head?_cons, if_pos rfl,
      List.tail_cons, List.tail_cons]
  · cases hseries : scanSeries close element (skipSpace s).length (skipSpace s) with
    | error => simp [hseries, Except.map] at h
    | ok found =>
      rw [hseries] at h
      cases h
      obtain ⟨c, next, hskip⟩ : ∃ c next, skipSpace s = c :: next := by
        cases hskip : skipSpace s with
        | nil =>
          rw [hskip] at hseries
          cases hseries
        | cons c next => exact ⟨c, next, rfl⟩
      have hhead : (skipSpace s).head? = some c := by rw [hskip, List.head?_cons]
      have hlength : (skipSpace s).length ≤ (skipSpace s ++ more).length := by
        rw [List.length_append]
        exact Nat.le_add_right _ _
      have hmore := scanSeries_append helement hnil hclose hlength hseries more
      rw [scanGroup, skipSpace_append hhead, hmore, hskip, List.cons_append, List.head?_cons,
        if_neg (by rwa [hskip, List.head?_cons] at hempty)]
      rfl

end Series

section Document

variable {inner : Str → Except PyErr (Json × Str)}

theorem scanEntry_nil (r : (Str × Json) × Str) : scanEntry inner [] ≠ .ok r := by
  intro h
  cases h

theorem extends_scanEntry (hinner : Extends inner) (hnil : ∀ r, inner [] ≠ .ok r) :
    Extends (scanEntry inner) := by
  rintro s ⟨key, v⟩ rest h hrest more
  rcases s with _ | ⟨c, s⟩
  · cases h
  by_cases hquote : c = 34
  · subst hquote
    rw [scanEntry] at h
    obtain ⟨⟨key', tail⟩, hkey, h⟩ := bind_eq_ok_iff.mp h
    dsimp only at h
    rcases hskip : skipSpace tail with _ | ⟨d, next⟩
    · rw [hskip] at h
      cases h
    · rw [hskip] at h
      by_cases hcolon : d = 58
      · subst hcolon
        obtain ⟨⟨v', tail'⟩, hv, h⟩ := bind_eq_ok_iff.mp h
        cases h
        obtain ⟨c, hc⟩ : ∃ c, (skipSpace next).head? = some c := by
          cases hempty : skipSpace next with
          | nil =>
            rw [hempty] at hv
            exact absurd hv (hnil _)
          | cons c tail => exact ⟨c, rfl⟩
        have hhead : (skipSpace tail).head? = some 58 := by rw [hskip, List.head?_cons]
        rw [List.cons_append, scanEntry, scanString_append hkey, ok_bind]
        dsimp only
        rw [skipSpace_append hhead, hskip, List.cons_append]
        simp only [skipSpace_append hc, hinner _ _ _ hv hrest more, ok_bind, pure_eq_ok]
      · exact absurd h (by simp [hcolon])
  · exact absurd h (by simp [scanEntry, hquote])

/-- A value is read the same when the text goes on, when the arrays and objects below it are. An
object needs nothing after it. -/
theorem extends_scanOnce_step {depth : Nat}
    (hnested : ∀ below, depth = below + 1 → Extends (scanOnce below)) {s rest : Str} {v : Json}
    (h : scanOnce depth s = .ok (v, rest)) (hrest : s.head? = some 123 ∨ Delimited rest)
    (more : Str) :
    scanOnce depth (s ++ more) = .ok (v, rest ++ more) := by
  rcases s with _ | ⟨c, s⟩
  · exact absurd h (scanOnce_nil depth _)
  rw [scanOnce.eq_def] at h
  rw [List.cons_append, scanOnce.eq_def]
  dsimp only at h ⊢
  split_ifs at h ⊢ with hquote harray hobject
  · cases hscan : scanString s with
    | error => simp [hscan, Except.map] at h
    | ok found =>
      rw [hscan] at h
      cases h
      rw [scanString_append hscan]
      rfl
  · rcases depth with _ | depth
    · cases h
    · dsimp only at h ⊢
      rw [scanArray_eq_scanGroup] at h ⊢
      exact scanGroup_append (hnested depth rfl) (scanOnce_nil depth) (.inl rfl) h more
  · rcases depth with _ | depth
    · cases h
    · dsimp only at h ⊢
      rw [scanObject_eq_scanGroup] at h ⊢
      exact scanGroup_append (extends_scanEntry (hnested depth rfl) (scanOnce_nil depth))
        scanEntry_nil (.inr rfl) h more
  · have hne : c ≠ 123 := by simpa using hobject
    refine extends_scanAtom _ _ _ h (hrest.resolve_left fun hhead => hne ?_) more
    exact Option.some.inj hhead

theorem extends_scanOnce (depth : Nat) : Extends (scanOnce depth) := by
  induction depth with
  | zero =>
    intro s v rest h hrest
    refine extends_scanOnce_step (fun below hbelow => ?_) h (.inr hrest)
    cases hbelow
  | succ depth ih =>
    intro s v rest h hrest
    refine extends_scanOnce_step (fun below hbelow => ?_) h (.inr hrest)
    cases hbelow
    exact ih

/-- Two documents of which one begins with the other, an object, differ in white space. -/
theorem space_of_loads_append {depth : Nat} {s more : Str} {v v' : Json}
    (h : loads depth (123 :: s) = .ok v) (h' : loads depth (123 :: s ++ more) = .ok v') :
    ∀ c ∈ more, isJsonSpace c = true := by
  have hskip (s : Str) : skipSpace (123 :: s) = 123 :: s := rfl
  rw [loads, hskip] at h
  rw [List.cons_append, loads, hskip] at h'
  split_ifs at h h'
  obtain ⟨⟨value, rest⟩, hscan, h⟩ := bind_eq_ok_iff.mp h
  obtain ⟨⟨value', rest'⟩, hscan', h'⟩ := bind_eq_ok_iff.mp h'
  have hmore : scanOnce depth (123 :: s ++ more) = .ok (value, rest ++ more) := by
    refine extends_scanOnce_step (fun below _ => extends_scanOnce below) hscan (.inl rfl) more
  rw [List.cons_append, hscan'] at hmore
  cases hmore
  dsimp only at h h'
  split_ifs at h h' with hspace hspace'
  rw [List.isEmpty_iff, skipSpace, List.dropWhile_eq_nil_iff] at hspace'
  exact fun c hc => hspace' c (List.mem_append_right _ hc)

end Document

end Python
