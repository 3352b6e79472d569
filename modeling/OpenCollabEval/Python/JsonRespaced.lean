import OpenCollabEval.Python.JsonCut

/-!
# White space between the tokens of a JSON text

The white space between two tokens may be any white space: a text in which some stretch of it outside of
the strings is replaced by another one is read as the same document.
-/

namespace Python

/-- Whether a text ends inside a string, when it begins inside of one or outside. -/
def endsQuoted : Bool → Str → Bool
  | inside, [] => inside
  | false, c :: rest => endsQuoted (c == 34) rest
  | true, 92 :: _ :: rest => endsQuoted true rest
  | true, c :: rest => endsQuoted (c != 34) rest

/-- Some white space. -/
def Blank (w : Str) : Prop := w ≠ [] ∧ ∀ c ∈ w, isJsonSpace c = true

/-- Two texts that begin inside of a string or outside and differ at most in one stretch of white space
that stands outside of the strings. -/
def Respaced (inside : Bool) (x y : Str) : Prop :=
  x = y ∨ ∃ p w w' q, x = p ++ (w ++ q) ∧ y = p ++ (w' ++ q) ∧ endsQuoted inside p = false ∧
    Blank w ∧ Blank w'

theorem Respaced.refl (inside : Bool) (x : Str) : Respaced inside x x := .inl rfl

theorem Respaced.append {inside : Bool} {x y : Str} (h : Respaced inside x y) (t : Str) :
    Respaced inside (x ++ t) (y ++ t) := by
  rcases h with rfl | ⟨p, w, w', q, rfl, rfl, hp, hw, hw'⟩
  · exact .refl _ _
  · exact .inr ⟨p, w, w', q ++ t, by simp, by simp, hp, hw, hw'⟩


section Space

variable {w x y : Str}

theorem skipSpace_append_of_space (h : ∀ c ∈ w, isJsonSpace c = true) (q : Str) :
    skipSpace (w ++ q) = skipSpace q := by
  rw [skipSpace, List.dropWhile_append_of_pos h, skipSpace]

/-- Both texts have the same first code point after their white space, and the rest differs at most in
white space. -/
theorem Respaced.skip (h : Respaced false x y) :
    (skipSpace x = [] ∧ skipSpace y = []) ∨
      ∃ c xs ys, skipSpace x = c :: xs ∧ skipSpace y = c :: ys ∧ isJsonSpace c = false ∧
        Respaced (c == 34) xs ys := by
  -- equal texts, and texts whose white space is all skipped
  have hequal : ∀ {s t : Str}, skipSpace s = skipSpace t → (skipSpace s = [] ∧ skipSpace t = []) ∨
      ∃ c xs ys, skipSpace s = c :: xs ∧ skipSpace t = c :: ys ∧ isJsonSpace c = false ∧
        Respaced (c == 34) xs ys := by
    intro s t hst
    rcases hs : skipSpace s with _ | ⟨c, xs⟩
    · exact .inl ⟨rfl, hst ▸ hs⟩
    · refine .inr ⟨c, xs, xs, rfl, hst ▸ hs, ?_, .refl _ _⟩
      have hhead := List.head?_dropWhile_not isJsonSpace s
      rw [← skipSpace, hs] at hhead
      simpa using hhead
  rcases h with rfl | ⟨p, w, w', q, rfl, rfl, hp, hw, hw'⟩
  · exact hequal rfl
  · induction p with
    | nil =>
      apply hequal
      rw [List.nil_append, List.nil_append, skipSpace_append_of_space hw.2,
        skipSpace_append_of_space hw'.2]
    | cons c p ih =>
      by_cases hc : isJsonSpace c = true
      · have hquote : (c == 34) = false := by
          rw [beq_eq_false_iff_ne]
          rintro rfl
          cases hc
        rw [endsQuoted, hquote] at hp
        simpa [skipSpace, hc] using ih hp
      · right
        refine ⟨c, p ++ (w ++ q), p ++ (w' ++ q), ?_, ?_, by simpa using hc, ?_⟩
        · simp [skipSpace, hc]
        · simp [skipSpace, hc]
        · exact .inr ⟨p, w, w', q, rfl, rfl, by rwa [endsQuoted] at hp, hw, hw'⟩

end Space

section Tokens

variable {inside : Bool} {x y : Str}

/-- What a state of the string scanner means for the end of the string. -/
def StringState.endsQuoted : StringState → Str → Bool
  | .escape, _ :: rest => Python.endsQuoted true rest
  | .escape, [] => true
  | _, s => Python.endsQuoted true s

/-- A string that is closed before the white space is read, and the rest begins outside. -/
theorem scanUnits_respaced {state : StringState} {p tail r : Str} {units : List StringUnit}
    (hp : state.endsQuoted p = false) (h : scanUnits state (p ++ tail) = some (units, r)) :
    ∃ r', r = r' ++ tail ∧ Python.endsQuoted false r' = false ∧ r'.length ≤ p.length ∧
      ∀ tail', scanUnits state (p ++ tail') = some (units, r' ++ tail') := by
  induction p generalizing state units r with
  | nil => cases state <;> cases hp
  | cons c p ih =>
    -- a step of the scanner, with or without one more unit
    have hkeep : ∀ {state' : StringState}, state'.endsQuoted p = false →
        scanUnits state' (p ++ tail) = some (units, r) →
        ∃ r', r = r' ++ tail ∧ Python.endsQuoted false r' = false ∧ r'.length ≤ (c :: p).length ∧
          ∀ tail', scanUnits state' (p ++ tail') = some (units, r' ++ tail') := by
      intro state' hstate hscan
      obtain ⟨r', hr, hends, hle, hall⟩ := ih hstate hscan
      exact ⟨r', hr, hends, Nat.le_succ_of_le hle, hall⟩
    have hmap : ∀ {unit : StringUnit} {state' : StringState}, state'.endsQuoted p = false →
        (scanUnits state' (p ++ tail)).map (fun r => (unit :: r.1, r.2)) = some (units, r) →
        ∃ r', r = r' ++ tail ∧ Python.endsQuoted false r' = false ∧ r'.length ≤ (c :: p).length ∧
          ∀ tail', (scanUnits state' (p ++ tail')).map (fun r => (unit :: r.1, r.2)) =
            some (units, r' ++ tail') := by
      intro unit state' hstate hscan
      obtain ⟨⟨others, rest⟩, hrest, heq⟩ := Option.map_eq_some_iff.mp hscan
      cases heq
      obtain ⟨r', hr, hends, hle, hall⟩ := ih hstate hrest
      exact ⟨r', hr, hends, Nat.le_succ_of_le hle, fun tail' => by rw [hall]; rfl⟩
    rw [List.cons_append] at h
    cases state with
    | plain =>
      rw [scanUnits] at h
      simp only [List.cons_append, scanUnits]
      split_ifs at h ⊢ with hquote hescape hcontrol
      · cases h
        refine ⟨p, rfl, ?_, Nat.le_succ _, fun _ => rfl⟩
        rw [beq_iff_eq] at hquote
        subst hquote
        exact hp
      · refine hkeep ?_ h
        rw [beq_iff_eq] at hescape
        subst hescape
        cases p with
        | nil => exact hp
        | cons d p => exact hp
      · refine hmap ?_ h
        have hne : c ≠ 92 := by simpa using hescape
        have hopen : (c != 34) = true := by simpa using hquote
        rw [StringState.endsQuoted] at hp ⊢
        · rwa [Python.endsQuoted, hopen] at hp
          rintro d rest rfl
          exact absurd rfl hne
        -- the other equations are about a backslash
        all_goals
          intros
          contradiction
    | escape =>
      rw [scanUnits] at h
      simp only [List.cons_append, scanUnits]
      split_ifs at h ⊢ with hunicode
      · exact hkeep hp h
      · cases hshort : shortEscape c with
        | none => simp [hshort] at h
        | some d =>
          rw [hshort, Option.bind_some] at h
          simp only [Option.bind_some]
          exact hmap hp h
    | hex left value =>
      rw [scanUnits] at h
      simp only [List.cons_append, scanUnits]
      cases hvalue : hexValue c with
      | none => simp [hvalue] at h
      | some d =>
        -- a hexadecimal digit is no quotation mark and no backslash
        have hends : Python.endsQuoted true (c :: p) = Python.endsQuoted true p := by
          have hne : c ≠ 34 ∧ c ≠ 92 := by
            constructor
            · rintro rfl
              cases hvalue
            · rintro rfl
              cases hvalue
          rw [Python.endsQuoted]
          · rw [bne_iff_ne.mpr hne.1]
          · rintro d rest rfl
            exact absurd rfl hne.2
        have hp' : Python.endsQuoted true p = false := hends ▸ hp
        rw [hvalue, Option.bind_some] at h
        simp only [Option.bind_some]
        cases left with
        | zero => exact hmap hp' h
        | succ left => exact hkeep hp' h

/-- What is left after a string is a part of the text. -/
theorem suffix_of_scanUnits {state : StringState} {s rest : Str} {units : List StringUnit}
    (h : scanUnits state s = some (units, rest)) : rest <:+ s := by
  induction s generalizing state units rest with
  | nil => cases state <;> cases h
  | cons c s ih =>
    have hkeep : ∀ {state' : StringState}, scanUnits state' s = some (units, rest) →
        rest <:+ c :: s := fun hscan => (ih hscan).trans (List.suffix_cons c s)
    have hmap : ∀ {unit : StringUnit} {state' : StringState},
        (scanUnits state' s).map (fun r => (unit :: r.1, r.2)) = some (units, rest) →
        rest <:+ c :: s := by
      intro unit state' hscan
      obtain ⟨⟨others, tail⟩, htail, heq⟩ := Option.map_eq_some_iff.mp hscan
      cases heq
      exact (ih htail).trans (List.suffix_cons c s)
    cases state with
    | plain =>
      rw [scanUnits] at h
      split_ifs at h
      · cases h
        exact List.suffix_cons c s
      · exact hkeep h
      · exact hmap h
    | escape =>
      rw [scanUnits] at h
      split_ifs at h
      · exact hkeep h
      · obtain ⟨d, -, h⟩ := Option.bind_eq_some_iff.mp h
        exact hmap h
    | hex left value =>
      rw [scanUnits] at h
      obtain ⟨d, -, h⟩ := Option.bind_eq_some_iff.mp h
      cases left with
      | zero => exact hmap h
      | succ left => exact hkeep h

theorem scanString_respaced {text r : Str} (hrel : Respaced true x y)
    (h : scanString x = .ok (text, r)) :
    ∃ r', scanString y = .ok (text, r') ∧ Respaced false r r' ∧ r'.length ≤ y.length := by
  rw [scanString] at h
  cases hscan : scanUnits .plain x with
  | none => simp [hscan] at h
  | some found =>
    obtain ⟨units, rest⟩ := found
    rw [hscan] at h
    cases h
    rcases hrel with rfl | ⟨p, w, w', q, rfl, rfl, hp, hw, hw'⟩
    · exact ⟨r, by rw [scanString, hscan], .refl _ _, (suffix_of_scanUnits hscan).length_le⟩
    · have hplain : StringState.plain.endsQuoted p = false := hp
      obtain ⟨r', rfl, hends, hle, hall⟩ := scanUnits_respaced hplain hscan
      refine ⟨r' ++ (w' ++ q), by rw [scanString, hall], ?_, ?_⟩
      · exact .inr ⟨r', w, w', q, rfl, rfl, hends, hw, hw'⟩
      · simp only [List.length_append]
        omega

/-- A text without a quotation mark does not enter a string. -/
theorem endsQuoted_append_of_not_mem {s : Str} (h : 34 ∉ s) (t : Str) :
    endsQuoted false (s ++ t) = endsQuoted false t := by
  induction s with
  | nil => rfl
  | cons c s ih =>
    rw [List.mem_cons, not_or] at h
    rw [List.cons_append, endsQuoted, beq_eq_false_iff_ne.mpr (Ne.symm h.1), ih h.2]

/-- A name or a number ends before the first quotation mark. -/
theorem endsQuoted_scanAtom {p r : Str} {v : Json} (h : scanAtom p = .ok (v, r)) :
    endsQuoted false r = endsQuoted false p := by
  by_cases hquote : 34 ∈ p
  · obtain ⟨before, after, rfl, hbefore⟩ := List.eq_append_cons_of_mem hquote
    rw [scanAtom_cut (.inl (by decide))] at h
    cases hatom : scanAtom before with
    | error error => simp [hatom, Except.map] at h
    | ok found =>
      rw [hatom] at h
      cases h
      have hrest : 34 ∉ found.2 := fun hmem =>
        hbefore ((readable_of_scanAtom 0 hatom).2.subset hmem)
      rw [endsQuoted_append_of_not_mem hrest, endsQuoted_append_of_not_mem hbefore]
  · have hrest : 34 ∉ r := fun hmem => hquote ((readable_of_scanAtom 0 h).2.subset hmem)
    have hr := endsQuoted_append_of_not_mem hrest []
    have hp := endsQuoted_append_of_not_mem hquote []
    rw [List.append_nil] at hr hp
    rw [hr, hp]

/-- What a scanner that begins at a token does with two texts that differ in white space: it reads the
same from both, up to white space in the rest. -/
def Respects {α : Type} (scan : Str → Except PyErr (α × Str)) : Prop :=
  ∀ c xs ys v r, Respaced (c == 34) xs ys → isJsonSpace c = false → scan (c :: xs) = .ok (v, r) →
    ∃ r', scan (c :: ys) = .ok (v, r') ∧ Respaced false r r' ∧ r'.length ≤ ys.length + 1

theorem respects_scanAtom {c : Nat} {xs ys r : Str} {v : Json} (hrel : Respaced (c == 34) xs ys)
    (h : scanAtom (c :: xs) = .ok (v, r)) :
    ∃ r', scanAtom (c :: ys) = .ok (v, r') ∧ Respaced false r r' ∧ r'.length ≤ ys.length + 1 := by
  rcases hrel with rfl | ⟨p, w, w', q, rfl, rfl, hp, ⟨hw, hspace⟩, ⟨hw', hspace'⟩⟩
  · exact ⟨r, h, .refl _ _, (readable_of_scanAtom 0 h).2.length_le⟩
  · obtain ⟨e, w, rfl⟩ := List.exists_cons_of_ne_nil hw
    obtain ⟨e', w', rfl⟩ := List.exists_cons_of_ne_nil hw'
    -- white space stands in no name and in no number
    have hlow : ∀ d, isJsonSpace d = true → d < 43 ∨ d = 44 ∨ d = 93 ∨ 122 < d := by
      intro d hd
      simp only [isJsonSpace, Bool.or_eq_true, beq_iff_eq] at hd
      omega
    have hcut := fun d hd tail => scanAtom_cut (q := tail) (hlow d hd) (c :: p)
    rw [List.cons_append, ← List.cons_append, hcut e (hspace e List.mem_cons_self)] at h
    cases hatom : scanAtom (c :: p) with
    | error error => simp [hatom, Except.map] at h
    | ok found =>
      rw [hatom] at h
      cases h
      have hends := endsQuoted_scanAtom hatom
      rw [endsQuoted, hp] at hends
      refine ⟨found.2 ++ (e' :: w' ++ q), ?_, ?_, ?_⟩
      · rw [List.cons_append, ← List.cons_append, hcut e' (hspace' e' List.mem_cons_self), hatom]
        rfl
      · exact .inr ⟨found.2, e :: w, e' :: w', q, rfl, rfl, hends, ⟨hw, hspace⟩, ⟨hw', hspace'⟩⟩
      · have hle := (readable_of_scanAtom 0 hatom).2.length_le
        simp only [List.length_append, List.length_cons] at hle ⊢
        omega

end Tokens

section Series

variable {α : Type} {element : Str → Except PyErr (α × Str)} {close : Nat}
  (helement : Respects element) (hnil : ∀ r, element [] ≠ .ok r) (hclose : close ≠ 34)

include helement hnil hclose

/-- The series is read from both texts, with enough fuel for the second one. -/
theorem scanSeries_respaced {n n' c : Nat} {xs ys r : Str} {vs : List α}
    (hn : ys.length + 1 ≤ n') (hrel : Respaced (c == 34) xs ys) (hc : isJsonSpace c = false)
    (h : scanSeries close element n (c :: xs) = .ok (vs, r)) :
    ∃ r', scanSeries close element n' (c :: ys) = .ok (vs, r') ∧ Respaced false r r' ∧
      r'.length ≤ ys.length + 1 := by
  induction n' generalizing n c xs ys vs r with
  | zero => omega
  | succ n' ih =>
    rcases n with _ | n
    · cases h
    rw [scanSeries] at h
    obtain ⟨⟨v, s⟩, hv, h⟩ := bind_eq_ok_iff.mp h
    obtain ⟨s', hv', hrel', hle⟩ := helement c xs ys v s hrel hc hv
    rw [scanSeries, hv', ok_bind]
    dsimp only at h ⊢
    rcases hrel'.skip with ⟨hempty, -⟩ | ⟨d, us, us', hskip, hskip', hd, hus⟩
    · rw [hempty] at h
      simp at h
    · have hshort : us'.length < s'.length := by
        have hsuffix : (skipSpace s').length ≤ s'.length := (List.dropWhile_suffix _).length_le
        rw [hskip', List.length_cons] at hsuffix
        omega
      rw [hskip, List.head?_cons, List.tail_cons] at h
      rw [hskip', List.head?_cons, List.tail_cons]
      split_ifs at h ⊢ with hcomma hbracket
      · obtain rfl := Option.some.inj hcomma
        -- the rest of the series is not empty
        rcases Respaced.skip hus with ⟨hempty, -⟩ | ⟨b, ts, ts', hts, hts', hb, hrest⟩
        · rw [hempty] at h
          rcases n with _ | n
          · cases h
          · rw [scanSeries] at h
            cases hnone : element [] with
            | ok found => exact absurd hnone (hnil found)
            | error => simp [hnone, Except.map] at h
        · rw [hts] at h
          rw [hts']
          have hshorter : ts'.length < us'.length := by
            have hsuffix : (skipSpace us').length ≤ us'.length := (List.dropWhile_suffix _).length_le
            rw [hts', List.length_cons] at hsuffix
            omega
          cases hothers : scanSeries close element n (b :: ts) with
          | error => simp [hothers, Except.map] at h
          | ok others =>
            rw [hothers] at h
            cases h
            obtain ⟨r', hr', hrel'', hle'⟩ := ih (by omega) hrest hb hothers
            exact ⟨r', by rw [hr']; rfl, hrel'', by omega⟩
      · cases h
        obtain rfl := Option.some.inj hbracket
        rw [beq_eq_false_iff_ne.mpr hclose] at hus
        exact ⟨us', rfl, hus, by omega⟩

theorem scanGroup_respaced (make : List α → Json) {x y r : Str} {v : Json}
    (hrel : Respaced false x y) (h : scanGroup close element make x = .ok (v, r)) :
    ∃ r', scanGroup close element make y = .ok (v, r') ∧ Respaced false r r' ∧
      r'.length ≤ y.length := by
  rw [scanGroup] at h
  rw [scanGroup]
  rcases hrel.skip with ⟨hempty, -⟩ | ⟨c, xs, ys, hskip, hskip', hc, hrest⟩
  · rw [hempty] at h
    cases h
  · have hshort : ys.length < y.length := by
      have hsuffix : (skipSpace y).length ≤ y.length := (List.dropWhile_suffix _).length_le
      rw [hskip', List.length_cons] at hsuffix
      omega
    rw [hskip, List.head?_cons, List.tail_cons] at h
    rw [hskip', List.head?_cons, List.tail_cons]
    split_ifs at h ⊢ with hbracket
    · cases h
      obtain rfl := Option.some.inj hbracket
      rw [beq_eq_false_iff_ne.mpr hclose] at hrest
      exact ⟨ys, rfl, hrest, by omega⟩
    · cases hfound : scanSeries close element (c :: xs).length (c :: xs) with
      | error =>
        rw [hfound] at h
        cases h
      | ok found =>
        rw [hfound] at h
        cases h
        obtain ⟨r', hr', hrel', hle⟩ := scanSeries_respaced helement hnil hclose le_rfl hrest hc hfound
        exact ⟨r', by rw [List.length_cons, hr']; rfl, hrel', by omega⟩

end Series

section Document

variable {inner : Str → Except PyErr (Json × Str)}

theorem respects_scanEntry (hinner : Respects inner) (hnil : ∀ r, inner [] ≠ .ok r) :
    Respects (scanEntry inner) := by
  rintro c xs ys ⟨key, v⟩ r hrel - h
  by_cases hquote : c = 34
  · subst hquote
    rw [scanEntry] at h
    rw [scanEntry]
    obtain ⟨⟨key', s⟩, hkey, h⟩ := bind_eq_ok_iff.mp h
    obtain ⟨s', hkey', hs, hle⟩ := scanString_respaced hrel hkey
    rw [hkey', ok_bind]
    dsimp only at h ⊢
    rcases hs.skip with ⟨hempty, -⟩ | ⟨d, us, us', hskip, hskip', -, hus⟩
    · rw [hempty] at h
      cases h
    · have hshort : us'.length < s'.length := by
        have hsuffix : (skipSpace s').length ≤ s'.length := (List.dropWhile_suffix _).length_le
        rw [hskip', List.length_cons] at hsuffix
        omega
      rw [hskip] at h
      rw [hskip']
      by_cases hcolon : d = 58
      · subst hcolon
        obtain ⟨⟨v', s''⟩, hv, h⟩ := bind_eq_ok_iff.mp h
        cases h
        -- the value after the colon
        rcases Respaced.skip hus with ⟨hempty, -⟩ | ⟨b, ts, ts', hts, hts', hb, hrest⟩
        · rw [hempty] at hv
          exact absurd hv (hnil _)
        · rw [hts] at hv
          obtain ⟨r', hr', hrel', hle'⟩ := hinner b ts ts' _ _ hrest hb hv
          have hshorter : ts'.length < us'.length := by
            have hsuffix : (skipSpace us').length ≤ us'.length := (List.dropWhile_suffix _).length_le
            rw [hts', List.length_cons] at hsuffix
            omega
          refine ⟨r', ?_, hrel', by omega⟩
          simp only [hts', hr', ok_bind, pure_eq_ok]
      · exact absurd h (by simp [hcolon])
  · exact absurd h (by simp [scanEntry, hquote])

theorem scanOnce_nil (depth : Nat) (r : Json × Str) : scanOnce depth [] ≠ .ok r := by
  rw [scanOnce]
  intro h
  cases h

/-- A value, when the arrays and objects below it are read so. -/
theorem respects_scanOnce_step {depth : Nat}
    (hnested : ∀ below, depth = below + 1 → Respects (scanOnce below)) :
    Respects (scanOnce depth) := by
  intro c xs ys v r hrel _ h
  rw [scanOnce.eq_def] at h ⊢
  dsimp only at h ⊢
  split_ifs at h ⊢ with hquote harray hobject
  · rw [hquote] at hrel
    cases hscan : scanString xs with
    | error => simp [hscan, Except.map] at h
    | ok found =>
      rw [hscan] at h
      cases h
      obtain ⟨r', hr', hrel', hle⟩ := scanString_respaced hrel hscan
      exact ⟨r', by rw [hr']; rfl, hrel', Nat.le_succ_of_le hle⟩
  · rw [Bool.eq_false_iff.mpr hquote] at hrel
    rcases depth with _ | depth
    · cases h
    · dsimp only at h ⊢
      rw [scanArray_eq_scanGroup] at h ⊢
      obtain ⟨r', hr', hrel', hle⟩ :=
        scanGroup_respaced (hnested depth rfl) (scanOnce_nil depth) (by decide) _ hrel h
      exact ⟨r', hr', hrel', Nat.le_succ_of_le hle⟩
  · rw [Bool.eq_false_iff.mpr hquote] at hrel
    rcases depth with _ | depth
    · cases h
    · dsimp only at h ⊢
      rw [scanObject_eq_scanGroup] at h ⊢
      obtain ⟨r', hr', hrel', hle⟩ := scanGroup_respaced
        (respects_scanEntry (hnested depth rfl) (scanOnce_nil depth)) (by rintro r ⟨⟩) (by decide)
        _ hrel h
      exact ⟨r', hr', hrel', Nat.le_succ_of_le hle⟩
  · exact respects_scanAtom hrel h

theorem respects_scanOnce (depth : Nat) : Respects (scanOnce depth) := by
  induction depth with
  | zero => exact respects_scanOnce_step nofun
  | succ depth ih =>
    refine respects_scanOnce_step fun below hbelow => ?_
    cases hbelow
    exact ih

/-- A document is read whatever its white space between the tokens is. -/
theorem loads_respaced {depth : Nat} {x y : Str} {v : Json} (hrel : Respaced false x y)
    (h : loads depth x = .ok v) : loads depth y = .ok v := by
  have hmark : (y.head? == some 0xFEFF) = (x.head? == some 0xFEFF) := by
    rcases hrel with rfl | ⟨p, w, w', q, rfl, rfl, -, ⟨hw, hspace⟩, ⟨hw', hspace'⟩⟩
    · rfl
    · rcases p with _ | ⟨c, p⟩
      · obtain ⟨e, w, rfl⟩ := List.exists_cons_of_ne_nil hw
        obtain ⟨e', w', rfl⟩ := List.exists_cons_of_ne_nil hw'
        have hspaces : ∀ d, isJsonSpace d = true → d ≠ 0xFEFF := by
          rintro d hd rfl
          cases hd
        have he := hspaces e (hspace e List.mem_cons_self)
        have he' := hspaces e' (hspace' e' List.mem_cons_self)
        simp [he, he']
      · rfl
  rw [loads] at h
  rw [loads, hmark]
  split_ifs at h ⊢
  obtain ⟨⟨value, rest⟩, hscan, h⟩ := bind_eq_ok_iff.mp h
  rcases hrel.skip with ⟨hempty, -⟩ | ⟨c, xs, ys, hskip, hskip', hc, hrest⟩
  · rw [hempty] at hscan
    exact absurd hscan (scanOnce_nil depth _)
  · rw [hskip] at hscan
    obtain ⟨rest', hscan', hrel', -⟩ := respects_scanOnce depth c xs ys _ _ hrest hc hscan
    rw [hskip', hscan', ok_bind]
    dsimp only at h ⊢
    rcases hrel'.skip with ⟨-, hempty⟩ | ⟨d, us, us', hus, -, -, -⟩
    · split_ifs at h
      · cases h
        rw [hempty]
        rfl
    · rw [hus] at h
      cases h

end Document

end Python
