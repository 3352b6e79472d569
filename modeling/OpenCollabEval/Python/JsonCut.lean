import OpenCollabEval.Python.JsonReadable

/-!
# JSON texts that are cut off

A text outside ASCII stands only inside the strings of a JSON document. A document that is cut off before
such a code point is therefore cut inside a string, and is not read as a document.
-/

namespace Python

section Cut

variable {e : Nat} {q : Str}

theorem dropWhile_cut {accepts : Nat → Bool} (h : accepts e = false) (p : Str) :
    (p ++ e :: q).dropWhile accepts = p.dropWhile accepts ++ e :: q := by
  induction p with
  | nil => simp [h]
  | cons c p ih => by_cases hc : accepts c = true <;> simp [hc, ih]

theorem takeWhile_cut {accepts : Nat → Bool} (h : accepts e = false) (p : Str) :
    (p ++ e :: q).takeWhile accepts = p.takeWhile accepts := by
  induction p with
  | nil => simp [h]
  | cons c p ih => by_cases hc : accepts c = true <;> simp [hc, ih]

theorem skipSpace_cut (he : 128 ≤ e) (p : Str) :
    skipSpace (p ++ e :: q) = skipSpace p ++ e :: q := by
  refine dropWhile_cut ?_ p
  simp only [isJsonSpace, Bool.or_eq_false_iff, beq_eq_false_iff_ne]
  omega

-- neither a number nor a name has a code point so low or so high, a comma or a closing bracket
variable (he : e < 43 ∨ e = 44 ∨ e = 93 ∨ 122 < e)

include he

theorem spanDigits_cut (p : Str) :
    spanDigits (p ++ e :: q) = ((spanDigits p).1, (spanDigits p).2 ++ e :: q) := by
  have hdigit : Str.isDigit e = false := by
    simp only [Str.isDigit, Bool.and_eq_false_iff, decide_eq_false_iff_not]
    omega
  simp only [spanDigits, List.span_eq_takeWhile_dropWhile, dropWhile_cut hdigit,
    takeWhile_cut hdigit]

theorem scanMinus_cut (p : Str) :
    scanMinus (p ++ e :: q) = ((scanMinus p).1, (scanMinus p).2 ++ e :: q) := by
  cases p with
  | nil =>
    have hne : (e == 45) = false := by simpa using (show e ≠ 45 by omega)
    simp [scanMinus, hne]
  | cons c p => by_cases hc : c = 45 <;> simp [scanMinus, hc]

theorem scanSign_cut (p : Str) :
    scanSign (p ++ e :: q) = ((scanSign p).1, (scanSign p).2 ++ e :: q) := by
  cases p with
  | nil =>
    have hne : (e == 43 || e == 45) = false := by
      simp only [Bool.or_eq_false_iff, beq_eq_false_iff_ne]
      omega
    simp [scanSign, hne]
  | cons c p => by_cases hc : c = 43 ∨ c = 45 <;> simp [scanSign, hc]

theorem scanWhole_cut (p : Str) :
    scanWhole (p ++ e :: q) = (scanWhole p).map fun r => (r.1, r.2 ++ e :: q) := by
  cases p with
  | nil =>
    have hzero : (e == 48) = false := by simpa using (show e ≠ 48 by omega)
    have hdigit : Str.isDigit e = false := by
      simp only [Str.isDigit, Bool.and_eq_false_iff, decide_eq_false_iff_not]
      omega
    simp [scanWhole, hzero, hdigit]
  | cons c p =>
    have hspan := spanDigits_cut he (q := q) (c :: p)
    rw [List.cons_append] at hspan
    rw [List.cons_append, scanWhole, scanWhole, hspan]
    split_ifs <;> rfl

theorem scanFraction_cut (p : Str) :
    scanFraction (p ++ e :: q) = ((scanFraction p).1, (scanFraction p).2 ++ e :: q) := by
  cases p with
  | nil =>
    have hne : (e == 46) = false := by simpa using (show e ≠ 46 by omega)
    simp [scanFraction, hne]
  | cons c p =>
    rw [List.cons_append, scanFraction, scanFraction, spanDigits_cut he]
    dsimp only
    split_ifs <;> rfl

theorem scanExponent_cut (p : Str) :
    scanExponent (p ++ e :: q) = ((scanExponent p).1, (scanExponent p).2 ++ e :: q) := by
  cases p with
  | nil =>
    have hne : (e == 101 || e == 69) = false := by
      simp only [Bool.or_eq_false_iff, beq_eq_false_iff_ne]
      omega
    simp [scanExponent, hne]
  | cons c p =>
    rw [List.cons_append, scanExponent, scanExponent, scanSign_cut he]
    dsimp only
    rw [spanDigits_cut he]
    dsimp only
    split_ifs <;> rfl

/-- A number is read without what is cut off. -/
theorem scanNumber_cut (p : Str) :
    scanNumber (p ++ e :: q) = (scanNumber p).map fun r => (r.1, r.2 ++ e :: q) := by
  rw [scanNumber, scanNumber, scanMinus_cut he]
  dsimp only
  rw [scanWhole_cut he]
  cases scanWhole (scanMinus p).2 with
  | none => rfl
  | some r =>
    change some _ = some _
    rw [scanFraction_cut he]
    dsimp only
    rw [scanExponent_cut he]

omit he in
/-- A string is read without what is cut off, or it is not closed any more. -/
theorem scanUnits_cut {state : StringState} {p r : Str} {units : List StringUnit}
    (h : scanUnits state (p ++ e :: q) = some (units, r)) :
    (∃ r', r = r' ++ e :: q ∧ scanUnits state p = some (units, r') ∧ r'.length ≤ p.length) ∨
      scanUnits state p = none := by
  induction p generalizing state units r with
  | nil => exact .inr (by rw [scanUnits])
  | cons c p ih =>
    -- one more unit before what the rest of the string gives
    have hmap : ∀ {unit : StringUnit} {state' : StringState},
        (scanUnits state' (p ++ e :: q)).map (fun r => (unit :: r.1, r.2)) = some (units, r) →
        (∃ r', r = r' ++ e :: q ∧
          (scanUnits state' p).map (fun r => (unit :: r.1, r.2)) = some (units, r') ∧
            r'.length ≤ (c :: p).length) ∨
          (scanUnits state' p).map (fun r => (unit :: r.1, r.2)) = none := by
      intro unit state' hscan
      obtain ⟨⟨others, tail⟩, htail, heq⟩ := Option.map_eq_some_iff.mp hscan
      cases heq
      rcases ih htail with ⟨r', rfl, hr', hle⟩ | hnone
      · exact .inl ⟨r', rfl, by rw [hr']; rfl, Nat.le_succ_of_le hle⟩
      · exact .inr (by rw [hnone]; rfl)
    have hkeep : ∀ {state' : StringState}, scanUnits state' (p ++ e :: q) = some (units, r) →
        (∃ r', r = r' ++ e :: q ∧ scanUnits state' p = some (units, r') ∧
          r'.length ≤ (c :: p).length) ∨ scanUnits state' p = none := by
      intro state' hscan
      rcases ih hscan with ⟨r', hr, hr', hle⟩ | hnone
      · exact .inl ⟨r', hr, hr', Nat.le_succ_of_le hle⟩
      · exact .inr hnone
    cases state with
    | plain =>
      rw [List.cons_append, scanUnits] at h
      rw [scanUnits]
      split_ifs at h ⊢
      · cases h
        exact .inl ⟨p, rfl, rfl, Nat.le_succ _⟩
      · exact hkeep h
      · exact hmap h
    | escape =>
      rw [List.cons_append, scanUnits] at h
      rw [scanUnits]
      split_ifs at h ⊢
      · exact hkeep h
      · cases hescape : shortEscape c with
        | none => exact .inr rfl
        | some d =>
          rw [hescape] at h
          exact hmap h
    | hex left value =>
      rw [List.cons_append, scanUnits] at h
      rw [scanUnits]
      cases hvalue : hexValue c with
      | none => exact .inr rfl
      | some d =>
        rw [hvalue] at h
        cases left with
        | zero => exact hmap h
        | succ left => exact hkeep h

/-- What a scanner does with a text that is cut off: it reads the same, or it finds the text broken. -/
def Cuts {α : Type} (scan : Str → Except PyErr (α × Str)) (tail : Str) : Prop :=
  ∀ p v r, scan (p ++ tail) = .ok (v, r) →
    (∃ r', r = r' ++ tail ∧ scan p = .ok (v, r') ∧ r'.length ≤ p.length) ∨
      scan p = .error .jsonDecodeError

omit he in
theorem cuts_scanString : Cuts scanString (e :: q) := by
  intro p text r h
  rw [scanString] at h ⊢
  cases hscan : scanUnits .plain (p ++ e :: q) with
  | none => simp [hscan] at h
  | some found =>
    obtain ⟨units, tail⟩ := found
    rw [hscan] at h
    cases h
    rcases scanUnits_cut hscan with ⟨r', rfl, hr', hle⟩ | hnone
    · exact .inl ⟨r', rfl, by rw [hr'], hle⟩
    · exact .inr (by rw [hnone])

/-- The named values are written in letters. -/
theorem startsWith_cut {entry : Str × Json} (hentry : entry ∈ namedValues) (p : Str) :
    Str.startsWith (p ++ e :: q) entry.1 = Str.startsWith p entry.1 := by
  have hletters : ∀ c ∈ entry.1, 45 ≤ c ∧ c ≠ 93 ∧ c ≤ 122 := by
    have hall : ∀ named ∈ namedValues, ∀ c ∈ named.1, 45 ≤ c ∧ c ≠ 93 ∧ c ≤ 122 := by decide
    exact hall entry hentry
  rw [Bool.eq_iff_iff, Str.startsWith, Str.startsWith, List.isPrefixOf_iff_prefix,
    List.isPrefixOf_iff_prefix]
  constructor
  · intro h
    have hnot : e ∉ entry.1 := by
      intro hmem
      have hletter := hletters e hmem
      omega
    have hcut : (p ++ [e]) <+: p ++ e :: q := ⟨q, by simp⟩
    rcases List.prefix_or_prefix_of_prefix h hcut with h | h
    · exact (List.prefix_concat_iff.mp h).resolve_left fun heq => hnot (by simp [heq])
    · exact absurd (h.subset (by simp)) hnot
  · exact fun h => h.trans (List.prefix_append ..)

/-- A name or a number is read without what is cut off. -/
theorem scanAtom_cut (p : Str) :
    scanAtom (p ++ e :: q) = (scanAtom p).map fun r => (r.1, r.2 ++ e :: q) := by
  have hfind : (namedValues.find? fun entry => Str.startsWith (p ++ e :: q) entry.1) =
      namedValues.find? fun entry => Str.startsWith p entry.1 := by
    rw [← List.head?_filter, ← List.head?_filter,
      List.filter_congr fun entry hentry => startsWith_cut he hentry p]
  rw [scanAtom, scanAtom, hfind]
  cases hnamed : namedValues.find? fun entry => Str.startsWith p entry.1 with
  | some entry =>
    have hstart := List.find?_some hnamed
    have hle := (List.isPrefixOf_iff_prefix.mp hstart).length_le
    simp only [Except.map, List.drop_append_of_le_length hle]
  | none =>
    dsimp only
    rw [scanNumber_cut he]
    rcases scanNumber p with _ | ⟨t, tail⟩
    · rfl
    · dsimp only [Option.map_some]
      cases numberValue t <;> rfl

theorem cuts_scanAtom : Cuts scanAtom (e :: q) := by
  intro p v r h
  rw [scanAtom_cut he] at h
  cases hatom : scanAtom p with
  | error error => simp [hatom, Except.map] at h
  | ok found =>
    rw [hatom] at h
    cases h
    exact .inl ⟨found.2, rfl, rfl, (readable_of_scanAtom 0 hatom).2.length_le⟩

end Cut

section Series

variable {α : Type} {element : Str → Except PyErr (α × Str)} {close : Nat}

/-- The values of an array or the entries of an object, up to the closing bracket. -/
def scanSeries (close : Nat) (element : Str → Except PyErr (α × Str)) :
    Nat → Str → Except PyErr (List α × Str)
  | 0, _ => .error .jsonDecodeError
  | n + 1, s => do
    let r ← element s
    if (skipSpace r.2).head? = some 44 then
      (scanSeries close element n (skipSpace (skipSpace r.2).tail)).map fun r' => (r.1 :: r'.1, r'.2)
    else if (skipSpace r.2).head? = some close then return ([r.1], (skipSpace r.2).tail)
    else throw .jsonDecodeError

theorem scanItems_eq_scanSeries (inner : Str → Except PyErr (Json × Str)) (n : Nat) (s : Str) :
    scanItems inner n s = scanSeries 93 inner n s := by
  induction n generalizing s with
  | zero => rfl
  | succ n ih =>
    rw [scanItems, scanSeries]
    cases inner s with
    | error error => rfl
    | ok r =>
      obtain ⟨v, rest⟩ := r
      simp only [ok_bind]
      split
      next next hnext =>
        rw [hnext, List.head?_cons, if_pos rfl, List.tail_cons, ← ih]
        cases scanItems inner n (skipSpace next) <;> rfl
      next next hnext => simp [hnext]
      next hcomma hclose =>
        rcases hskip : skipSpace rest with _ | ⟨c, next⟩
        · simp
        · rw [hskip] at hcomma hclose
          rw [List.head?_cons, if_neg, if_neg]
          · rintro ⟨⟩
            exact hclose next rfl
          · rintro ⟨⟩
            exact hcomma next rfl

theorem scanEntries_eq_scanSeries (inner : Str → Except PyErr (Json × Str)) (n : Nat) (s : Str) :
    scanEntries inner n s = scanSeries 125 (scanEntry inner) n s := by
  induction n generalizing s with
  | zero => rfl
  | succ n ih =>
    rw [scanEntries, scanSeries]
    cases scanEntry inner s with
    | error error => rfl
    | ok r =>
      obtain ⟨v, rest⟩ := r
      simp only [ok_bind]
      split
      next next hnext =>
        rw [hnext, List.head?_cons, if_pos rfl, List.tail_cons, ← ih]
        cases scanEntries inner n (skipSpace next) <;> rfl
      next next hnext => simp [hnext]
      next hcomma hclose =>
        rcases hskip : skipSpace rest with _ | ⟨c, next⟩
        · simp
        · rw [hskip] at hcomma hclose
          rw [List.head?_cons, if_neg, if_neg]
          · rintro ⟨⟩
            exact hclose next rfl
          · rintro ⟨⟩
            exact hcomma next rfl

/-- An array or an object after its opening bracket. -/
def scanGroup (close : Nat) (element : Str → Except PyErr (α × Str)) (make : List α → Json) (s : Str) :
    Except PyErr (Json × Str) :=
  if (skipSpace s).head? = some close then .ok (make [], (skipSpace s).tail)
  else (scanSeries close element (skipSpace s).length (skipSpace s)).map fun r => (make r.1, r.2)

theorem scanArray_eq_scanGroup (inner : Str → Except PyErr (Json × Str)) (s : Str) :
    scanArray inner s = scanGroup 93 inner Json.list s := by
  rw [scanArray, scanGroup]
  split
  next rest hrest => simp [hrest]
  next hclose =>
    have hhead : (skipSpace s).head? ≠ some 93 := by
      intro hhead
      obtain ⟨rest, hrest⟩ := List.head?_eq_some_iff.mp hhead
      exact hclose rest hrest
    rw [if_neg hhead, scanItems_eq_scanSeries]
    cases scanSeries 93 inner (skipSpace s).length (skipSpace s) <;> rfl

theorem scanObject_eq_scanGroup (inner : Str → Except PyErr (Json × Str)) (s : Str) :
    scanObject inner s = scanGroup 125 (scanEntry inner) (fun pairs => .dict (Obj.ofPairs pairs)) s := by
  rw [scanObject, scanGroup]
  split
  next rest hrest =>
    rw [hrest, List.head?_cons, if_pos rfl]
    rfl
  next hclose =>
    have hhead : (skipSpace s).head? ≠ some 125 := by
      intro hhead
      obtain ⟨rest, hrest⟩ := List.head?_eq_some_iff.mp hhead
      exact hclose rest hrest
    rw [if_neg hhead, scanEntries_eq_scanSeries]
    cases scanSeries 125 (scanEntry inner) (skipSpace s).length (skipSpace s) <;> rfl

variable {e : Nat} {q : Str} (he : 128 ≤ e) (helement : Cuts element (e :: q))

include he helement

/-- The series before the cut, with at least as much fuel as code points. -/
theorem scanSeries_cut {n n' : Nat} {p r : Str} {vs : List α}
    (hn : p.length ≤ n') (h : scanSeries close element n (p ++ e :: q) = .ok (vs, r)) :
    (∃ r', r = r' ++ e :: q ∧ scanSeries close element n' p = .ok (vs, r') ∧
        r'.length ≤ p.length) ∨
      scanSeries close element n' p = .error .jsonDecodeError := by
  induction n' generalizing n p vs r with
  | zero => exact .inr rfl
  | succ n' ih =>
    cases n with
    | zero => cases h
    | succ n =>
      rw [scanSeries] at h
      rw [scanSeries]
      obtain ⟨⟨v, s⟩, hv, h⟩ := bind_eq_ok_iff.mp h
      rcases helement p v s hv with ⟨s', rfl, hs', hle⟩ | herror
      · rw [hs', ok_bind]
        dsimp only at h ⊢
        rw [skipSpace_cut he] at h
        have hshort : (skipSpace s').length ≤ s'.length := (List.dropWhile_suffix _).length_le
        cases hskip : skipSpace s' with
        | nil =>
          rw [List.head?_nil, if_neg nofun, if_neg nofun]
          exact .inr rfl
        | cons c rest =>
          rw [hskip, List.cons_append, List.head?_cons, List.tail_cons] at h
          rw [hskip, List.length_cons] at hshort
          rw [List.head?_cons, List.tail_cons]
          split_ifs at h ⊢
          · rw [skipSpace_cut he] at h
            have hrest : (skipSpace rest).length ≤ rest.length :=
              (List.dropWhile_suffix _).length_le
            cases hothers : scanSeries close element n (skipSpace rest ++ e :: q) with
            | error error => simp [hothers, Except.map] at h
            | ok others =>
              rw [hothers] at h
              cases h
              rcases ih (by omega) hothers with ⟨r', hr, hr', hle'⟩ | herror
              · exact .inl ⟨r', hr, by rw [hr']; rfl, by omega⟩
              · exact .inr (by rw [herror]; rfl)
          · cases h
            exact .inl ⟨rest, rfl, rfl, by omega⟩
      · exact .inr (by rw [herror]; rfl)

theorem cuts_scanGroup (make : List α → Json) : Cuts (scanGroup close element make) (e :: q) := by
  intro p v r h
  have hshort : (skipSpace p).length ≤ p.length := (List.dropWhile_suffix _).length_le
  rw [scanGroup, skipSpace_cut he] at h
  rw [scanGroup]
  cases hskip : skipSpace p with
  | nil => exact .inr rfl
  | cons c rest =>
    rw [hskip, List.length_cons] at hshort
    rw [hskip, List.cons_append, List.head?_cons, List.tail_cons] at h
    rw [List.head?_cons, List.tail_cons]
    split_ifs at h ⊢
    · cases h
      exact .inl ⟨rest, rfl, rfl, by omega⟩
    · rw [← List.cons_append] at h
      cases hfound : scanSeries close element (c :: rest ++ e :: q).length (c :: rest ++ e :: q) with
      | error error =>
        rw [hfound] at h
        cases h
      | ok found =>
        rw [hfound] at h
        cases h
        rcases scanSeries_cut he helement le_rfl hfound with ⟨r', hr, hr', hle⟩ | herror
        · rw [List.length_cons] at hle
          exact .inl ⟨r', hr, by rw [hr']; rfl, by omega⟩
        · exact .inr (by rw [herror]; rfl)

end Series

section Document

variable {inner : Str → Except PyErr (Json × Str)} {e : Nat} {q : Str} (he : 128 ≤ e)

include he

theorem cuts_scanEntry (hinner : Cuts inner (e :: q)) : Cuts (scanEntry inner) (e :: q) := by
  rintro p ⟨key, v⟩ r h
  cases p with
  | nil => exact .inr rfl
  | cons c p =>
    by_cases hquote : c = 34
    · subst hquote
      rw [List.cons_append, scanEntry] at h
      rw [scanEntry]
      obtain ⟨⟨key', s⟩, hkey, h⟩ := bind_eq_ok_iff.mp h
      rcases cuts_scanString p key' s hkey with ⟨s', rfl, hs', hle⟩ | herror
      · rw [hs', ok_bind]
        dsimp only at h ⊢
        rw [skipSpace_cut he] at h
        have hshort : (skipSpace s').length ≤ s'.length := (List.dropWhile_suffix _).length_le
        rcases hskip : skipSpace s' with _ | ⟨d, rest⟩
        · exact .inr rfl
        · rw [hskip, List.length_cons] at hshort
          rw [hskip, List.cons_append] at h
          by_cases hcolon : d = 58
          · subst hcolon
            simp only [skipSpace_cut he] at h
            obtain ⟨⟨v', s''⟩, hv, h⟩ := bind_eq_ok_iff.mp h
            cases h
            have hrest : (skipSpace rest).length ≤ rest.length :=
              (List.dropWhile_suffix _).length_le
            rcases hinner _ _ _ hv with ⟨r', hr, hr', hle'⟩ | herror
            · refine .inl ⟨r', hr, ?_, ?_⟩
              · simp only [hr', ok_bind, pure_eq_ok]
              · rw [List.length_cons]
                omega
            · refine .inr ?_
              simp only [herror, error_bind]
          · exact absurd h (by simp [hcolon])
      · exact .inr (by rw [herror]; rfl)
    · exact absurd h (by simp [scanEntry, hquote])

/-- A value, when the arrays and objects below it are cut so. -/
theorem cuts_scanOnce_step {depth : Nat}
    (hnested : ∀ below, depth = below + 1 → Cuts (scanOnce below) (e :: q)) :
    Cuts (scanOnce depth) (e :: q) := by
  intro p v r h
  cases p with
  | nil => exact .inr (by rw [scanOnce])
  | cons c p =>
    -- one code point before what was read
    have hkeep : ∀ {scan : Str → Except PyErr (Json × Str)}, Cuts scan (e :: q) →
        scan (p ++ e :: q) = .ok (v, r) →
        (∃ r', r = r' ++ e :: q ∧ scan p = .ok (v, r') ∧ r'.length ≤ (c :: p).length) ∨
          scan p = .error .jsonDecodeError := by
      intro scan hcuts hscan
      rcases hcuts p v r hscan with ⟨r', hr, hr', hle⟩ | herror
      · exact .inl ⟨r', hr, hr', Nat.le_succ_of_le hle⟩
      · exact .inr herror
    rw [List.cons_append, scanOnce.eq_def] at h
    rw [scanOnce.eq_def]
    dsimp only at h ⊢
    split_ifs at h ⊢
    · have htext : Cuts (fun s => (scanString s).map fun r => (Json.str r.1, r.2)) (e :: q) := by
        intro p v r h
        dsimp only at h ⊢
        cases hscan : scanString (p ++ e :: q) with
        | error error => simp [hscan, Except.map] at h
        | ok found =>
          rw [hscan] at h
          cases h
          rcases cuts_scanString p _ _ hscan with ⟨r', hr, hr', hle⟩ | herror
          · exact .inl ⟨r', hr, by rw [hr']; rfl, hle⟩
          · exact .inr (by rw [herror]; rfl)
      exact hkeep htext h
    · cases depth with
      | zero => cases h
      | succ depth =>
        have hcuts : Cuts (scanArray (scanOnce depth)) (e :: q) := by
          rw [funext (scanArray_eq_scanGroup (scanOnce depth))]
          exact cuts_scanGroup he (hnested depth rfl) _
        exact hkeep hcuts h
    · cases depth with
      | zero => cases h
      | succ depth =>
        have hcuts : Cuts (scanObject (scanOnce depth)) (e :: q) := by
          rw [funext (scanObject_eq_scanGroup (scanOnce depth))]
          exact cuts_scanGroup he (cuts_scanEntry he (hnested depth rfl)) _
        exact hkeep hcuts h
    · rw [← List.cons_append] at h
      exact cuts_scanAtom (.inr (by omega)) _ v r h

theorem cuts_scanOnce (depth : Nat) : Cuts (scanOnce depth) (e :: q) := by
  induction depth with
  | zero => exact cuts_scanOnce_step he nofun
  | succ depth ih =>
    refine cuts_scanOnce_step he fun below hbelow => ?_
    cases hbelow
    exact ih

/-- A document is not read when it is cut off before a code point outside ASCII. -/
theorem loads_cut {depth : Nat} {p : Str} {v : Json} (h : loads depth (p ++ e :: q) = .ok v) :
    loads depth p = .error .jsonDecodeError := by
  rcases p with _ | ⟨c, p⟩
  · rw [loads, if_neg (by simp), skipSpace, List.dropWhile_nil, scanOnce]
    rfl
  rw [List.cons_append, loads, List.head?_cons] at h
  rw [loads, List.head?_cons]
  split_ifs at h ⊢
  rw [← List.cons_append] at h
  obtain ⟨⟨value, rest⟩, hscan, h⟩ := bind_eq_ok_iff.mp h
  rw [skipSpace_cut he] at hscan
  rcases cuts_scanOnce he depth _ _ _ hscan with ⟨rest', rfl, -, -⟩ | herror
  · dsimp only at h
    rw [skipSpace_cut he] at h
    exact absurd h (by simp)
  · rw [herror]
    rfl

end Document

end Python
