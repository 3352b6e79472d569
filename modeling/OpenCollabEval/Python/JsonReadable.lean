import OpenCollabEval.Python.JsonRoundTrip

/-!
# What a text can stand for

A value that `json.loads` reads from decoded text can be written and read again without a change:
its strings hold no surrogates that a reader would join, its integers are short, and the keys of its
dicts are distinct.
-/

namespace Python

/-- Text that was decoded from bytes. -/
def Str.Decoded (s : Str) : Prop := ∀ c ∈ s, c < 0x110000 ∧ isSurrogate c = false

theorem Str.Decoded.tail {c : Nat} {s : Str} (h : Decoded (c :: s)) : Decoded s :=
  fun d hd => h d (by simp [hd])

theorem Str.Decoded.dropWhile {s : Str} (h : s.Decoded) (p : Nat → Bool) :
    Decoded (s.dropWhile p) := fun c hc => h c ((List.dropWhile_sublist p).subset hc)

theorem Str.Decoded.drop {s : Str} (h : s.Decoded) (n : Nat) : Decoded (s.drop n) :=
  fun c hc => h c (List.mem_of_mem_drop hc)

/-- A unit that was not escaped is no surrogate. -/
def UnitOk (u : StringUnit) : Prop := u.1 < 0x110000 ∧ (u.2 = false → Str.isSurrogate u.1 = false)

theorem hexValue_lt {c d : Nat} (h : hexValue c = some d) : d < 16 := by
  unfold hexValue at h
  split at h
  next hc => simp at hc; cases h; omega
  split at h
  next hc => simp at hc; cases h; omega
  split at h
  next hc => simp at hc; cases h; omega
  · cases h

theorem shortEscape_ok {c d : Nat} (h : shortEscape c = some d) : UnitOk (d, false) := by
  unfold shortEscape at h
  split at h
  next hc =>
    cases h
    simp only [Bool.or_eq_true, beq_iff_eq] at hc
    rcases hc with (rfl | rfl) | rfl <;> exact ⟨by decide, by decide⟩
  repeat' split at h
  all_goals first
    | (cases h; exact ⟨by decide, by decide⟩)
    | cases h

/-- The values that an escape may have in a state. -/
def StringState.Ok : StringState → Prop
  | .hex left value => left ≤ 3 ∧ value < 16 ^ (3 - left)
  | _ => True

/-- The units of a decoded text, and what is left of it. -/
theorem units_of_scanUnits {state : StringState} {s rest : Str} {units : List StringUnit}
    (hstate : state.Ok) (hs : s.Decoded) (h : scanUnits state s = some (units, rest)) :
    (∀ u ∈ units, UnitOk u) ∧ rest.Decoded := by
  induction s generalizing state units rest with
  | nil => cases state <;> simp [scanUnits] at h
  | cons c s ih =>
    have hmore : ∀ {u : StringUnit} {units rest}, UnitOk u →
        (scanUnits .plain s).map (fun r => (u :: r.1, r.2)) = some (units, rest) →
        (∀ u ∈ units, UnitOk u) ∧ rest.Decoded := by
      intro u units rest hu hmap
      obtain ⟨⟨units', rest'⟩, hscan, heq⟩ := Option.map_eq_some_iff.mp hmap
      obtain ⟨hunits, hrest⟩ := @ih .plain _ _ trivial hs.tail hscan
      cases heq
      exact ⟨List.forall_mem_cons.mpr ⟨hu, hunits⟩, hrest⟩
    cases state with
    | plain =>
      rw [scanUnits] at h
      split at h
      · cases h
        exact ⟨by simp, hs.tail⟩
      split at h
      · exact @ih .escape _ _ trivial hs.tail h
      split at h
      · cases h
      · exact hmore ⟨(hs c (by simp)).1, fun _ => (hs c (by simp)).2⟩ h
    | escape =>
      rw [scanUnits] at h
      split at h
      · exact @ih (.hex 3 0) _ _ ⟨le_rfl, by decide⟩ hs.tail h
      · obtain ⟨d, hd, hmap⟩ := Option.bind_eq_some_iff.mp h
        exact hmore (shortEscape_ok hd) hmap
    | hex left value =>
      rw [scanUnits] at h
      obtain ⟨d, hd, hnext⟩ := Option.bind_eq_some_iff.mp h
      have hlt := hexValue_lt hd
      obtain ⟨hleft, hvalue⟩ := hstate
      cases left with
      | zero => exact hmore ⟨by dsimp only; omega, by simp⟩ hnext
      | succ left =>
        refine @ih (.hex left (16 * value + d)) _ _ ⟨by omega, ?_⟩ hs.tail hnext
        have hpow : 3 - left = (3 - (left + 1)) + 1 := by omega
        rw [hpow, pow_succ]
        omega

/-- The first code point that units are joined to. -/
theorem head_joinUnits {u : StringUnit} {units : List StringUnit} :
    ∀ c ∈ (joinUnits (u :: units)).head?, c = u.1 ∨ 0x10000 ≤ c := by
  obtain ⟨c, escaped⟩ := u
  rcases units with _ | ⟨⟨d, escaped'⟩, units⟩
  · intro first hfirst
    rw [joinUnits, List.head?_cons, Option.mem_def, Option.some.injEq] at hfirst
    exact .inl hfirst.symm
  intro first hfirst
  by_cases hpair : (escaped && escaped' && isHighSurrogate c && isLowSurrogate d) = true
  · rw [joinUnits, if_pos hpair, List.head?_cons, Option.mem_def, Option.some.injEq] at hfirst
    right
    rw [← hfirst]
    unfold joinSurrogates
    omega
  · rw [joinUnits, if_neg hpair, List.head?_cons, Option.mem_def, Option.some.injEq] at hfirst
    exact .inl hfirst.symm

/-- The units of a decoded text are joined to one that can be written. -/
theorem readable_joinUnits {units : List StringUnit} (h : ∀ u ∈ units, UnitOk u) :
    (joinUnits units).Readable := by
  fun_induction joinUnits units with
  | case1 => exact ⟨by simp, .nil⟩
  | case2 c escaped => exact ⟨by simpa using (h (c, escaped) (by simp)).1, .singleton _⟩
  | case3 c escaped d escaped' rest hpair ih =>
    simp only [Bool.and_eq_true, isHighSurrogate, isLowSurrogate, decide_eq_true_iff] at hpair
    obtain ⟨hpoints, hseparate⟩ := ih fun u hu => h u (by simp [hu])
    have hjoined : 0x10000 ≤ joinSurrogates c d ∧ joinSurrogates c d < 0x110000 := by
      unfold joinSurrogates
      omega
    refine ⟨List.forall_mem_cons.mpr ⟨hjoined.2, hpoints⟩, List.isChain_cons.mpr ⟨?_, hseparate⟩⟩
    intro next _
    rw [Bool.and_eq_false_iff]
    left
    simp only [isHighSurrogate, Bool.and_eq_false_iff, decide_eq_false_iff_not]
    omega
  | case4 c escaped d escaped' rest hpair ih =>
    obtain ⟨hpoints, hseparate⟩ := ih fun u hu => h u (by simp [hu])
    obtain ⟨hc, hplain⟩ := h (c, escaped) (by simp)
    obtain ⟨-, hplain'⟩ := h (d, escaped') (by simp)
    refine ⟨List.forall_mem_cons.mpr ⟨hc, hpoints⟩, List.isChain_cons.mpr ⟨?_, hseparate⟩⟩
    intro next hnext
    rcases head_joinUnits next hnext with rfl | hlarge
    · -- the pair was not joined, so one of the two is no surrogate
      simp only [Str.isSurrogate, Bool.and_eq_false_iff, decide_eq_false_iff_not] at hplain hplain'
      cases escaped <;> cases escaped' <;>
        simp_all [isHighSurrogate, isLowSurrogate] <;> omega
    · rw [Bool.and_eq_false_iff]
      right
      simp only [isLowSurrogate, Bool.and_eq_false_iff, decide_eq_false_iff_not]
      omega

/-- A string of a decoded text. -/
theorem readable_of_scanString {s text rest : Str} (hs : s.Decoded)
    (h : scanString s = .ok (text, rest)) : text.Readable ∧ rest.Decoded := by
  unfold scanString at h
  split at h
  next units rest' hscan =>
    cases h
    obtain ⟨hunits, hrest⟩ := @units_of_scanUnits .plain _ _ _ trivial hs hscan
    exact ⟨readable_joinUnits hunits, hrest⟩
  · cases h

/-- What is left of a text after a prefix was read. -/
theorem Str.Decoded.of_suffix {s rest : Str} (hs : s.Decoded) (h : rest <:+ s) : rest.Decoded :=
  fun c hc => hs c (h.subset hc)

theorem suffix_of_spanDigits (s : Str) : (spanDigits s).2 <:+ s := by
  rw [spanDigits, List.span_eq_takeWhile_dropWhile]
  exact List.dropWhile_suffix _

theorem suffix_of_scanMinus (s : Str) : (scanMinus s).2 <:+ s := by
  unfold scanMinus
  split
  · exact List.suffix_rfl
  · split
    · exact List.suffix_cons _ _
    · exact List.suffix_rfl

theorem suffix_of_scanSign (s : Str) : (scanSign s).2 <:+ s := by
  unfold scanSign
  split
  · exact List.suffix_rfl
  · split
    · exact List.suffix_cons _ _
    · exact List.suffix_rfl

/-- The whole part of a number is made of digits. -/
theorem scanWhole_eq_some {s whole rest : Str} (h : scanWhole s = some (whole, rest)) :
    (∀ c ∈ whole, Str.isDigit c = true) ∧ rest <:+ s := by
  unfold scanWhole at h
  split at h
  · cases h
  split at h
  · cases h
    exact ⟨by simp [Str.isDigit], List.suffix_cons _ _⟩
  split at h
  · rw [Option.some.injEq, spanDigits, List.span_eq_takeWhile_dropWhile] at h
    cases h
    exact ⟨fun c hc => List.mem_takeWhile_imp hc, List.dropWhile_suffix _⟩
  · cases h

theorem suffix_of_scanFraction (s : Str) : (scanFraction s).2 <:+ s := by
  unfold scanFraction
  split
  · exact List.suffix_rfl
  split
  · dsimp only
    split
    · exact List.suffix_rfl
    · exact (suffix_of_spanDigits _).trans (List.suffix_cons _ _)
  · exact List.suffix_rfl

theorem suffix_of_scanExponent (s : Str) : (scanExponent s).2 <:+ s := by
  unfold scanExponent
  split
  · exact List.suffix_rfl
  split
  · dsimp only
    split
    · exact List.suffix_rfl
    · exact ((suffix_of_spanDigits _).trans (suffix_of_scanSign _)).trans (List.suffix_cons _ _)
  · exact List.suffix_rfl

/-- A number at the start of a text. -/
theorem scanNumber_eq_some {s rest : Str} {t : NumberText} (h : scanNumber s = some (t, rest)) :
    (∀ c ∈ t.whole, Str.isDigit c = true) ∧ rest <:+ s := by
  unfold scanNumber at h
  obtain ⟨⟨whole, tail⟩, hwhole, h⟩ := Option.bind_eq_some_iff.mp h
  cases h
  obtain ⟨hdigits, htail⟩ := scanWhole_eq_some hwhole
  exact ⟨hdigits, (suffix_of_scanExponent _).trans ((suffix_of_scanFraction _).trans
    (htail.trans (suffix_of_scanMinus _)))⟩

/-- Digits write a number below the power of ten of their count. -/
theorem digitsValue_lt {ds : Str} (h : ∀ c ∈ ds, Str.isDigit c = true) :
    digitsValue ds < 10 ^ ds.length := by
  have hdigits : ∀ d ∈ (ds.map (· - 48)).reverse, d < 10 := by
    intro d hd
    obtain ⟨c, hc, rfl⟩ := List.mem_map.mp (List.mem_reverse.mp hd)
    have hdigit := h c hc
    simp only [Str.isDigit, Bool.and_eq_true, decide_eq_true_iff] at hdigit
    omega
  have hlt := Nat.ofDigits_lt_base_pow_length (by decide) hdigits
  simpa [digitsValue] using hlt

/-- The text of a number is no longer than digits that write it. -/
theorem length_natStr_le {n k : Nat} (hk : 0 < k) (h : n < 10 ^ k) : (natStr n).length ≤ k := by
  unfold natStr
  split
  · exact hk
  next hn =>
    rw [List.length_map, digits, List.length_reverse, Nat.length_digits 10 n (by decide) hn]
    exact Nat.log_lt_of_lt_pow hn h

/-- The value of a number of a text. -/
theorem readable_of_numberValue {t : NumberText} {v : Json} (depth : Nat)
    (hwhole : ∀ c ∈ t.whole, Str.isDigit c = true) (h : numberValue t = .ok v) :
    v.Readable depth := by
  unfold numberValue at h
  split at h
  · split at h
    · cases h
    next hlength =>
      cases h
      refine .int depth _ ?_
      have habs : (if t.negative = true then -(digitsValue t.whole : Int)
          else (digitsValue t.whole : Int)).natAbs = digitsValue t.whole := by
        split <;> simp
      rw [habs]
      refine length_natStr_le (by decide) ((digitsValue_lt hwhole).trans_le ?_)
      exact Nat.pow_le_pow_right (by decide) (by omega)
  · cases h
    exact .float depth _

/-- A name or a number of a text. -/
theorem readable_of_scanAtom {s rest : Str} {v : Json} (depth : Nat)
    (h : scanAtom s = .ok (v, rest)) : v.Readable depth ∧ rest <:+ s := by
  unfold scanAtom at h
  split at h
  next name value hfind =>
    cases h
    refine ⟨?_, List.drop_suffix _ _⟩
    have hmem := List.mem_of_find?_eq_some hfind
    simp only [namedValues, List.mem_cons, Prod.mk.injEq, List.not_mem_nil, or_false] at hmem
    rcases hmem with ⟨-, rfl⟩ | ⟨-, rfl⟩ | ⟨-, rfl⟩ | ⟨-, rfl⟩ | ⟨-, rfl⟩ | ⟨-, rfl⟩
    · exact .null depth
    · exact .bool depth _
    · exact .bool depth _
    · exact .float depth _
    · exact .float depth _
    · exact .float depth _
  next =>
    split at h
    next t tail hscan =>
      obtain ⟨hwhole, htail⟩ := scanNumber_eq_some hscan
      rcases hvalue : numberValue t with e | value
      · simp [hvalue, Except.map] at h
      · rw [hvalue] at h
        cases h
        exact ⟨readable_of_numberValue depth hwhole hvalue, htail⟩
    · cases h

section Nested

variable {inner : Str → Except PyErr (Json × Str)} {depth : Nat}

/-- A scanner that reads readable values from decoded texts. -/
def ScansReadable (inner : Str → Except PyErr (Json × Str)) (depth : Nat) : Prop :=
  ∀ s v rest, s.Decoded → inner s = .ok (v, rest) → v.Readable depth ∧ rest.Decoded

theorem readable_of_scanItems (hinner : ScansReadable inner depth) {n : Nat} {s rest : Str}
    {items : List Json} (hs : s.Decoded) (h : scanItems inner n s = .ok (items, rest)) :
    (∀ v ∈ items, v.Readable depth) ∧ rest.Decoded := by
  induction n generalizing s items rest with
  | zero => cases h
  | succ n ih =>
    rw [scanItems] at h
    obtain ⟨⟨v, tail⟩, hv, h⟩ := bind_eq_ok_iff.mp h
    obtain ⟨hreadable, htail⟩ := hinner _ _ _ hs hv
    have hskipped : (skipSpace tail).Decoded := htail.dropWhile _
    dsimp only at h
    split at h
    next next hnext =>
      rw [hnext] at hskipped
      obtain ⟨⟨others, tail'⟩, hothers, h⟩ := bind_eq_ok_iff.mp h
      obtain ⟨hitems, hrest⟩ := ih (hskipped.tail.dropWhile _) hothers
      cases h
      exact ⟨List.forall_mem_cons.mpr ⟨hreadable, hitems⟩, hrest⟩
    next next hnext =>
      rw [hnext] at hskipped
      cases h
      exact ⟨by simpa using hreadable, hskipped.tail⟩
    · cases h

theorem readable_of_scanArray (hinner : ScansReadable inner depth) {s rest : Str} {v : Json}
    (hs : s.Decoded) (h : scanArray inner s = .ok (v, rest)) :
    v.Readable (depth + 1) ∧ rest.Decoded := by
  have hskipped : (skipSpace s).Decoded := hs.dropWhile _
  unfold scanArray at h
  split at h
  next tail htail =>
    cases h
    rw [htail] at hskipped
    exact ⟨.list depth [] (by simp), hskipped.tail⟩
  next =>
    obtain ⟨⟨items, tail⟩, hitems, h⟩ := bind_eq_ok_iff.mp h
    cases h
    obtain ⟨hreadable, hrest⟩ := readable_of_scanItems hinner hskipped hitems
    exact ⟨.list depth items hreadable, hrest⟩

theorem readable_of_scanEntry (hinner : ScansReadable inner depth) {s rest : Str}
    {entry : Str × Json} (hs : s.Decoded) (h : scanEntry inner s = .ok (entry, rest)) :
    (entry.1.Readable ∧ entry.2.Readable depth) ∧ rest.Decoded := by
  unfold scanEntry at h
  split at h
  next s =>
    obtain ⟨⟨key, tail⟩, hkey, h⟩ := bind_eq_ok_iff.mp h
    obtain ⟨hreadable, htail⟩ := readable_of_scanString hs.tail hkey
    have hskipped : (skipSpace tail).Decoded := htail.dropWhile _
    dsimp only at h
    split at h
    next next hnext =>
      rw [hnext] at hskipped
      obtain ⟨⟨v, tail'⟩, hv, h⟩ := bind_eq_ok_iff.mp h
      obtain ⟨hvalue, hrest⟩ := hinner _ _ _ (hskipped.tail.dropWhile _) hv
      cases h
      exact ⟨⟨hreadable, hvalue⟩, hrest⟩
    · cases h
  · cases h

theorem readable_of_scanEntries (hinner : ScansReadable inner depth) {n : Nat} {s rest : Str}
    {entries : List (Str × Json)} (hs : s.Decoded)
    (h : scanEntries inner n s = .ok (entries, rest)) :
    (∀ entry ∈ entries, entry.1.Readable ∧ entry.2.Readable depth) ∧ rest.Decoded := by
  induction n generalizing s entries rest with
  | zero => cases h
  | succ n ih =>
    rw [scanEntries] at h
    obtain ⟨⟨entry, tail⟩, hentry, h⟩ := bind_eq_ok_iff.mp h
    obtain ⟨hreadable, htail⟩ := readable_of_scanEntry hinner hs hentry
    have hskipped : (skipSpace tail).Decoded := htail.dropWhile _
    dsimp only at h
    split at h
    next next hnext =>
      rw [hnext] at hskipped
      obtain ⟨⟨others, tail'⟩, hothers, h⟩ := bind_eq_ok_iff.mp h
      obtain ⟨hentries, hrest⟩ := ih (hskipped.tail.dropWhile _) hothers
      cases h
      exact ⟨List.forall_mem_cons.mpr ⟨hreadable, hentries⟩, hrest⟩
    next next hnext =>
      rw [hnext] at hskipped
      cases h
      exact ⟨by simpa using hreadable, hskipped.tail⟩
    · cases h

/-- The keys of a dict stay distinct, and its entries come from the pairs. -/
theorem Obj.ofPairs_spec (pairs : List (Str × Json)) :
    ((Obj.ofPairs pairs).map (·.1)).Nodup ∧ ∀ entry ∈ Obj.ofPairs pairs, entry ∈ pairs := by
  induction pairs using List.reverseRecOn with
  | nil => simp [Obj.ofPairs]
  | append_singleton pairs last ih =>
    obtain ⟨hnodup, hmem⟩ := ih
    have hfold : Obj.ofPairs (pairs ++ [last]) = (Obj.ofPairs pairs).set last.1 last.2 := by
      simp [Obj.ofPairs, List.foldl_append]
    rw [hfold]
    generalize Obj.ofPairs pairs = o at *
    unfold Obj.set
    split
    · have hkeys : (o.map fun entry => if entry.1 = last.1 then (last.1, last.2) else entry).map
          (·.1) = o.map (·.1) := by
        rw [List.map_map]
        refine List.map_congr_left fun entry _ => ?_
        by_cases h : entry.1 = last.1 <;> simp [h]
      refine ⟨hkeys ▸ hnodup, fun entry hentry => ?_⟩
      obtain ⟨old, hold, rfl⟩ := List.mem_map.mp hentry
      split
      · simp
      · simp [hmem old hold]
    next hnew =>
      rw [Obj.has, Bool.not_eq_true, Option.isSome_eq_false_iff, Option.isNone_iff_eq_none,
        List.lookup_eq_none_iff] at hnew
      refine ⟨?_, fun entry hentry => ?_⟩
      · rw [List.map_append, List.nodup_append]
        refine ⟨hnodup, by simp, fun key hkey => ?_⟩
        obtain ⟨entry, hentry, rfl⟩ := List.mem_map.mp hkey
        simpa using Ne.symm (by simpa using hnew entry hentry)
      · rcases List.mem_append.mp hentry with hentry | hentry
        · simp [hmem entry hentry]
        · rw [List.mem_singleton.mp hentry]
          simp

theorem readable_of_scanObject (hinner : ScansReadable inner depth) {s rest : Str} {v : Json}
    (hs : s.Decoded) (h : scanObject inner s = .ok (v, rest)) :
    v.Readable (depth + 1) ∧ rest.Decoded := by
  have hskipped : (skipSpace s).Decoded := hs.dropWhile _
  unfold scanObject at h
  split at h
  next tail htail =>
    cases h
    rw [htail] at hskipped
    exact ⟨.dict depth [] (by simp) (by simp) (by simp), hskipped.tail⟩
  next =>
    obtain ⟨⟨entries, tail⟩, hentries, h⟩ := bind_eq_ok_iff.mp h
    cases h
    obtain ⟨hreadable, hrest⟩ := readable_of_scanEntries hinner hskipped hentries
    obtain ⟨hnodup, hmem⟩ := Obj.ofPairs_spec entries
    exact ⟨.dict depth _ hnodup (fun entry hentry => (hreadable entry (hmem entry hentry)).1)
      (fun entry hentry => (hreadable entry (hmem entry hentry)).2), hrest⟩

end Nested

/-- A value of a decoded text, when the arrays and objects below it are read so. -/
theorem readable_of_scanOnce_step {depth : Nat} {s rest : Str} {v : Json} (hs : s.Decoded)
    (hnested : ∀ below, depth = below + 1 → ScansReadable (scanOnce below) below)
    (h : scanOnce depth s = .ok (v, rest)) : v.Readable depth ∧ rest.Decoded := by
  cases s with
  | nil => simp [scanOnce] at h
  | cons c s =>
    rw [scanOnce.eq_def] at h
    dsimp only at h
    split at h
    · rcases hscan : scanString s with e | ⟨text, tail⟩
      · simp [hscan, Except.map] at h
      · rw [hscan] at h
        cases h
        obtain ⟨htext, hrest⟩ := readable_of_scanString hs.tail hscan
        exact ⟨.str depth text htext, hrest⟩
    split at h
    · cases depth with
      | zero => cases h
      | succ depth => exact readable_of_scanArray (hnested depth rfl) hs.tail h
    split at h
    · cases depth with
      | zero => cases h
      | succ depth => exact readable_of_scanObject (hnested depth rfl) hs.tail h
    · obtain ⟨hreadable, hsuffix⟩ := readable_of_scanAtom depth h
      exact ⟨hreadable, hs.of_suffix hsuffix⟩

/-- A value of a decoded text. -/
theorem readable_of_scanOnce (depth : Nat) : ScansReadable (scanOnce depth) depth := by
  induction depth with
  | zero => exact fun s v rest hs h => readable_of_scanOnce_step hs nofun h
  | succ depth ih =>
    refine fun s v rest hs h => readable_of_scanOnce_step hs (fun below hbelow => ?_) h
    cases hbelow
    exact ih

/-- What `json.loads` reads of a decoded text can be written. -/
theorem readable_of_loads {depth : Nat} {s : Str} {v : Json} (hs : s.Decoded)
    (h : loads depth s = .ok v) : v.Readable depth := by
  unfold loads at h
  split at h
  · cases h
  obtain ⟨⟨value, rest⟩, hscan, h⟩ := bind_eq_ok_iff.mp h
  have hreadable := (readable_of_scanOnce depth _ _ _ (hs.dropWhile _) hscan).1
  dsimp only at h
  split at h
  · cases h
    exact hreadable
  · cases h

end Python
