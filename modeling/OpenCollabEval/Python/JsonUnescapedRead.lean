import OpenCollabEval.Python.JsonRoundTrip
import OpenCollabEval.Python.JsonUnescaped

/-!
# JSON that is written without escapes and read

What `json.dumps` writes with `ensure_ascii=False`, `json.loads` reads back, and no line ends inside
it.
-/

namespace Python

/-- The code unit that a code point is written as. -/
def unescapedUnit (c : Nat) : StringUnit :=
  (c, c < 32 && !(c == 10 || c == 13 || c == 9 || c == 12 || c == 8))

theorem charUnits_of_small {c : Nat} (h : c < 32) : charUnits c = [unescapedUnit c] := by
  have h34 : c ≠ 34 := by omega
  have h92 : c ≠ 92 := by omega
  have hsmall : c < 0x10000 := by omega
  have hspace : ¬32 ≤ c := by omega
  unfold charUnits unescapedUnit
  split
  · rename_i hshort
    have hshort : (c == 10 || c == 13 || c == 9 || c == 12 || c == 8) = true := by
      simpa [h34, h92, hspace, or_assoc] using hshort
    rw [hshort]
    simp
  · rename_i hshort
    have hshort : (c == 10 || c == 13 || c == 9 || c == 12 || c == 8) = false := by
      simpa [h34, h92, hspace, and_assoc] using hshort
    rw [hshort]
    simp [h]

/-- A written code point is read back. -/
theorem scanUnits_dumpCharUnescaped (c : Nat) (rest : Str) :
    scanUnits .plain (dumpCharUnescaped c ++ rest) =
      (scanUnits .plain rest).map fun r => (unescapedUnit c :: r.1, r.2) := by
  unfold dumpCharUnescaped
  split
  · rename_i hsmall
    rw [scanUnits_dumpChar (by omega) rest, charUnits_of_small hsmall]
    rfl
  · rename_i hlarge
    have hunit : unescapedUnit c = (c, false) := by simp [unescapedUnit, hlarge]
    rw [hunit]
    split
    · rename_i hmark
      simp only [Bool.or_eq_true, beq_iff_eq] at hmark
      rcases hmark with rfl | rfl <;> exact scanUnits_dumpChar (by decide) rest
    · rename_i hmark
      simp only [Bool.or_eq_true, beq_iff_eq, not_or] at hmark
      simp [scanUnits, hmark, hlarge]

/-- Units none of which is an escaped leading surrogate are not joined. -/
theorem joinUnits_eq_map {units : List StringUnit}
    (h : ∀ u ∈ units, (u.2 && isHighSurrogate u.1) = false) : joinUnits units = units.map (·.1) := by
  induction units with
  | nil => rfl
  | cons u units ih =>
    have hrest := ih fun w hw => h w (by simp [hw])
    obtain ⟨c, escaped⟩ := u
    cases units with
    | nil => rfl
    | cons w units =>
      have hfirst : (escaped && isHighSurrogate c) = false := h (c, escaped) (by simp)
      rw [joinUnits, if_neg, hrest]
      · rfl
      · cases escaped <;> simp_all

/-- A written string is read back. -/
theorem scanString_dumpUnescaped (s rest : Str) :
    scanString (s.flatMap dumpCharUnescaped ++ 34 :: rest) = .ok (s, rest) := by
  have hscan : scanUnits .plain (s.flatMap dumpCharUnescaped ++ 34 :: rest) =
      some (s.map unescapedUnit, rest) := by
    induction s with
    | nil => simp [scanUnits]
    | cons c s ih =>
      rw [List.flatMap_cons, List.append_assoc, scanUnits_dumpCharUnescaped, ih]
      rfl
  have hjoin : joinUnits (s.map unescapedUnit) = s := by
    rw [joinUnits_eq_map]
    · exact (List.map_map ..).trans (List.map_id _)
    · intro u hu
      obtain ⟨c, -, rfl⟩ := List.mem_map.mp hu
      by_cases hsmall : c < 32
      · have hhigh : ¬0xD800 ≤ c := by omega
        simp [unescapedUnit, isHighSurrogate, hhigh]
      · simp [unescapedUnit, hsmall]
  rw [scanString, hscan]
  simp [hjoin]

namespace DumpFormat

variable {format : DumpFormat}

/-- A written list. -/
theorem dumpsUnescaped_list (items : List Json) :
    format.dumpsUnescaped (.list items) =
      91 :: (Str.join format.itemSeparator (items.map format.dumpsUnescaped) ++ [93]) := by
  have hitems : format.dumpItemsUnescaped items = items.map format.dumpsUnescaped := by
    induction items with
    | nil => rfl
    | cons v rest ih => rw [dumpItemsUnescaped, ih, List.map_cons]
  rw [dumpsUnescaped, hitems]
  rfl

/-- A written dict: its entries in order. -/
theorem dumpsUnescaped_dict (entries : Obj) :
    format.dumpsUnescaped (.dict entries) = 123 :: (Str.join format.itemSeparator
      ((format.arrange entries).map fun entry =>
        dumpStrUnescaped entry.1 ++ format.keySeparator ++ format.dumpsUnescaped entry.2) ++
          [125]) := by
  have hentries : format.dumpEntriesUnescaped entries =
      entries.map fun entry => (entry.1, format.dumpsUnescaped entry.2) := by
    induction entries with
    | nil => rfl
    | cons entry rest ih => rw [dumpEntriesUnescaped, ih, List.map_cons]
  have hsort : (if format.sortKeys then
      (format.dumpEntriesUnescaped entries).insertionSort (Str.le ·.1 ·.1)
        else format.dumpEntriesUnescaped entries) =
      (format.arrange entries).map fun entry => (entry.1, format.dumpsUnescaped entry.2) := by
    rw [hentries, ← arrange_map]
    rfl
  rw [dumpsUnescaped]
  simp only [hsort, List.map_map]
  rfl

/-- A written entry of a dict is read back. -/
theorem scanEntry_unescaped {inner : Str → Except PyErr (Json × Str)} {colon key text : Str}
    {v : Json} (hcolon : IsSeparator 58 colon) (htext : ReadsAs inner text v) {rest : Str}
    (hrest : EndsNumber rest) :
    scanEntry inner (dumpStrUnescaped key ++ colon ++ text ++ rest) = .ok ((key, v), rest) := by
  obtain ⟨space, rfl, hspace⟩ := hcolon
  have hskip : skipSpace (space ++ (text ++ rest)) = text ++ rest :=
    skipSpace_spaces hspace (skipSpace_of_startsValue htext.1 rest)
  have hentry : dumpStrUnescaped key ++ 58 :: space ++ text ++ rest =
      34 :: (key.flatMap dumpCharUnescaped ++ 34 :: 58 :: (space ++ (text ++ rest))) := by
    simp [dumpStrUnescaped]
  rw [hentry, scanEntry, scanString_dumpUnescaped]
  simp only [ok_bind, skipSpace_colon]
  rw [hskip, htext.2 rest hrest]
  rfl

/-- A written value is read back, whatever ends a number after it. -/
theorem readsAs_dumpsUnescaped (hformat : format.Standard) {depth : Nat} {v : Json}
    (hv : v.Readable depth) :
    ReadsAs (scanOnce depth) (format.dumpsUnescaped v) (format.reorder v) := by
  induction hv with
  | null depth => exact readsAs_dumps hformat (.null depth)
  | bool depth b => exact readsAs_dumps hformat (.bool depth b)
  | int depth n short => exact readsAs_dumps hformat (.int depth n short)
  | float depth x => exact readsAs_dumps hformat (.float depth x)
  | str depth s text =>
    refine ⟨⟨34, _, rfl, by decide⟩, fun rest _ => ?_⟩
    have hsplit : format.dumpsUnescaped (.str s) ++ rest =
        34 :: (s.flatMap dumpCharUnescaped ++ 34 :: rest) := by
      simp [dumpsUnescaped, dumpStrUnescaped]
    rw [hsplit]
    cases depth <;> simp [scanOnce, scanString_dumpUnescaped, reorder, Except.map]
  | list depth items values ih =>
    refine ⟨⟨91, _, dumpsUnescaped_list items, by decide⟩, fun rest _ => ?_⟩
    have hitems := @scanArray_join (scanOnce depth) _ hformat.item
      (items.map fun v => (format.dumpsUnescaped v, format.reorder v)) (by simpa using ih) rest
    simp only [List.map_map, Function.comp_def] at hitems
    rw [dumpsUnescaped_list, List.cons_append, List.append_assoc, scanOnce]
    simp only [Nat.reduceBEq, Bool.false_eq_true, if_false, if_true]
    exact hitems.trans (by rw [reorder, reorderItems_eq_map])
  | dict depth entries distinct keys values ih =>
    refine ⟨⟨123, _, dumpsUnescaped_dict entries, by decide⟩, fun rest _ => ?_⟩
    have hperm := format.arrange_perm entries
    have hfields := @scanObject_join (scanOnce depth) _ hformat.item _
      (fun entry : Str × Json =>
        dumpStrUnescaped entry.1 ++ format.keySeparator ++ format.dumpsUnescaped entry.2)
      (fun entry => (entry.1, format.reorder entry.2)) (format.arrange entries)
      (fun entry _ => ⟨_, rfl⟩)
      (fun entry hentry rest hrest =>
        scanEntry_unescaped hformat.key (ih entry (hperm.mem_iff.mp hentry)) hrest) rest
    rw [dumpsUnescaped_dict, List.cons_append, List.append_assoc, scanOnce]
    simp only [Nat.reduceBEq, Bool.false_eq_true, if_false, if_true]
    refine hfields.trans ?_
    rw [Obj.ofPairs_of_nodup, reorder, reorderEntries_eq_map, arrange_map]
    rw [List.map_map]
    exact (hperm.map _).nodup_iff.mpr distinct

/-- Where keys are not sorted, a value is read back as it was. -/
theorem reorder_unsorted (hsort : format.sortKeys = false) {depth : Nat} {v : Json}
    (hv : v.Readable depth) : format.reorder v = v := by
  induction hv with
  | null | bool | int | float | str => rfl
  | list depth items values ih =>
    rw [reorder, reorderItems_eq_map, List.map_congr_left ih, List.map_id']
  | dict depth entries distinct keys values ih =>
    rw [reorder, reorderEntries_eq_map,
      List.map_congr_left fun entry hentry => by rw [ih entry hentry]]
    simp [arrange, hsort]

/-- A written text is read back, whatever white space follows it. -/
theorem loads_unsorted (hformat : format.Standard) (hsort : format.sortKeys = false) {depth : Nat}
    {v : Json} (hv : v.Readable depth) {space : Str} (hspace : ∀ c ∈ space, isJsonSpace c = true) :
    loads depth (format.dumpsUnescaped v ++ space) = .ok v := by
  have hreads := readsAs_dumpsUnescaped hformat hv
  rw [reorder_unsorted hsort hv] at hreads
  exact loads_of_readsAs hreads hspace

theorem loads_dumpsUnescaped {depth : Nat} {v : Json} (hv : v.Readable depth) {space : Str}
    (hspace : ∀ c ∈ space, isJsonSpace c = true) :
    loads depth (plain.dumpsUnescaped v ++ space) = .ok v :=
  loads_unsorted standard_plain rfl hv hspace

end DumpFormat

/-- Text of code points without control characters. -/
def Str.Plain (s : Str) : Prop := ∀ c ∈ s, 32 ≤ c ∧ c < 0x110000

theorem Str.Plain.append {s t : Str} (hs : s.Plain) (ht : t.Plain) : Str.Plain (s ++ t) := by
  intro c hc
  rcases List.mem_append.mp hc with h | h
  · exact hs c h
  · exact ht c h

theorem Str.Plain.cons {c : Nat} {s : Str} (hc : 32 ≤ c ∧ c < 0x110000) (hs : s.Plain) : Str.Plain (c :: s) := by
  intro d hd
  rcases List.mem_cons.mp hd with rfl | h
  · exact hc
  · exact hs d h

theorem Str.Plain.join {separator : Str} {parts : List Str} (hseparator : separator.Plain)
    (hparts : ∀ part ∈ parts, Str.Plain part) : Str.Plain (Str.join separator parts) := by
  induction parts with
  | nil => simp [Str.join, List.intercalate, Str.Plain]
  | cons first rest ih =>
    have hrest := ih fun part hpart => hparts part (by simp [hpart])
    cases rest with
    | nil => rw [Str.join_singleton]; exact hparts first (by simp)
    | cons second rest =>
      rw [Str.join_cons_cons]
      exact (hparts first (by simp)).append (hseparator.append hrest)

theorem plain_of_areDigits {s : Str} (h : ∀ c ∈ s, Str.isDigit c = true) : s.Plain := by
  intro c hc
  have hdigit := h c hc
  simp only [Str.isDigit, Bool.and_eq_true, decide_eq_true_iff] at hdigit
  omega

/-- What holds of the digits and of the marks of a number holds of its text. -/
theorem NumberText.Valid.forall_text {P : Nat → Prop} {t : NumberText} (h : t.Valid)
    (hdigit : ∀ c, Str.isDigit c = true → P c) (hmarks : ∀ c ∈ [43, 45, 46, 101], P c) :
    ∀ c ∈ t.text, P c := by
  intro c hc
  simp only [NumberText.text, List.mem_append] at hc
  rcases hc with hsign | hwhole | hfraction | hexponent
  · cases hneg : t.negative <;> simp only [hneg, if_true, if_false, Bool.false_eq_true,
      List.not_mem_nil, List.mem_singleton] at hsign
    exact hmarks c (by simp [hsign])
  · rcases h.whole with hzero | ⟨hdigits, -⟩
    · rw [hzero] at hwhole
      exact hdigit c (by simp_all [Str.isDigit])
    · exact hdigit c (hdigits.2 c hwhole)
  · cases hf : t.fraction with
    | none => simp [fractionText, hf] at hfraction
    | some ds =>
      rw [fractionText, hf] at hfraction
      rcases List.mem_cons.mp hfraction with rfl | hmem
      · exact hmarks _ (by simp)
      · exact hdigit c ((h.fraction ds hf).2 c hmem)
  · cases he : t.exponent with
    | none => simp [exponentText, he] at hexponent
    | some e =>
      obtain ⟨hmark, hdigits⟩ := h.exponent e he
      rw [exponentText, he] at hexponent
      rcases List.mem_cons.mp hexponent with rfl | hmem
      · exact hmarks _ (by simp)
      · rcases List.mem_append.mp hmem with hmem | hmem
        · refine hmarks c ?_
          rcases hmark with hmark | hmark | hmark <;> rw [hmark] at hmem <;> simp_all
        · exact hdigit c (hdigits.2 c hmem)

/-- A written number has no control characters. -/
theorem NumberText.Valid.plain {t : NumberText} (h : t.Valid) : t.text.Plain := by
  refine h.forall_text (fun c hc => ?_) (by decide)
  exact plain_of_areDigits (s := [c]) (by simpa using hc) c (by simp)

/-- A written code point has no control characters. -/
theorem plain_dumpCharUnescaped {c : Nat} (h : c < 0x110000) : Str.Plain (dumpCharUnescaped c) := by
  have hsmall : ∀ d < 128, ∀ e ∈ dumpChar d, 32 ≤ e ∧ e < 0x110000 := by decide +kernel
  unfold dumpCharUnescaped
  split
  · exact hsmall c (by omega)
  · split
    · rename_i hmark
      simp only [Bool.or_eq_true, beq_iff_eq] at hmark
      exact hsmall c (by omega)
    · exact .cons ⟨by omega, h⟩ (by simp [Str.Plain])

/-- A written string has no control characters. -/
theorem plain_dumpStrUnescaped {s : Str} (h : ∀ c ∈ s, c < 0x110000) :
    (dumpStrUnescaped s).Plain := by
  refine .append (.cons (by decide) fun c hc => ?_) (by simp [Str.Plain])
  obtain ⟨d, hmem, hd⟩ := List.mem_flatMap.mp hc
  exact plain_dumpCharUnescaped (h d hmem) c hd

namespace DumpFormat

/-- No control character is written between plain separators. -/
theorem plain_dumps_of_separators {format : DumpFormat} (hcomma : format.itemSeparator.Plain)
    (hcolon : format.keySeparator.Plain) {depth : Nat} {v : Json} (hv : v.Readable depth) :
    (format.dumpsUnescaped v).Plain := by
  have hclose : ∀ {c : Nat}, 32 ≤ c ∧ c < 0x110000 → Str.Plain [c] :=
    fun hc => .cons hc (by simp [Str.Plain])
  induction hv with
  | null depth => simp [dumpsUnescaped, lit, Str.Plain]
  | bool depth b => cases b <;> simp [dumpsUnescaped, lit, Str.Plain]
  | int depth n =>
    have htext : format.dumpsUnescaped (.int n) = (intText n).text := (intText_text n).symm
    exact htext ▸ (intText_valid n).plain
  | float depth x =>
    cases x with
    | nan => simp [dumpsUnescaped, dumpFloat, lit, Str.Plain]
    | inf negative => cases negative <;> simp [dumpsUnescaped, dumpFloat, lit, Str.Plain]
    | finite negative significand exponent normal =>
      exact (PyFloat.Magnitude.numberText_valid negative ⟨significand, exponent, normal⟩).plain
  | str depth s text => exact plain_dumpStrUnescaped text.points
  | list depth items values ih =>
    rw [dumpsUnescaped_list]
    refine .cons (by decide) (.append (.join hcomma fun part hpart => ?_) (hclose (by decide)))
    obtain ⟨v, hv, rfl⟩ := List.mem_map.mp hpart
    exact ih v hv
  | dict depth entries distinct keys values ih =>
    rw [dumpsUnescaped_dict]
    refine .cons (by decide) (.append (.join hcomma fun part hpart => ?_) (hclose (by decide)))
    obtain ⟨entry, hentry, rfl⟩ := List.mem_map.mp hpart
    have hmem := (format.arrange_perm entries).mem_iff.mp hentry
    exact ((plain_dumpStrUnescaped (keys entry hmem).points).append hcolon).append (ih entry hmem)

theorem plain_dumpsUnescaped {depth : Nat} {v : Json} (hv : v.Readable depth) :
    (plain.dumpsUnescaped v).Plain :=
  plain_dumps_of_separators (by simp [plain, lit, Str.Plain]) (by simp [plain, lit, Str.Plain]) hv

end DumpFormat

end Python
