import OpenCollabEval.ChatStream.Readback
import OpenCollabEval.Python.JsonExtend
import OpenCollabEval.Records.TornAppend

/-!
# One writer of a log

A log that only `_append_jsonl_durable_once` writes to, wherever its calls are cut off: its tail is
the beginning of a record, and what is left of a record is not read as another one. So no call fails
to see what was torn, no row is ever lost, and no two rows claim the same record.
-/

open Python

namespace Python

/-- Decoding goes on after a text. -/
theorem decodeUtf8_encode_append {surrogates : Bool} {s : Str} (h : s.Decoded) (rest : List Nat) :
    Str.decodeUtf8 surrogates (s.encodeSurrogatePass ++ rest) =
      (Str.decodeUtf8 surrogates rest).map (s ++ ·) := by
  induction s with
  | nil =>
    show Str.decodeUtf8 surrogates rest = _
    cases Str.decodeUtf8 surrogates rest <;> rfl
  | cons c s ih =>
    obtain ⟨hc, hsurrogate⟩ := h c List.mem_cons_self
    have hrest := ih h.tail
    have hscalar := Str.utf8Scalar_utf8Char (Nat.le_of_lt_succ hc) hsurrogate
      (Str.encodeSurrogatePass s ++ rest)
    obtain ⟨b, others, hbytes⟩ := List.exists_cons_of_ne_nil (Str.utf8Char_ne_nil c)
    have hskip :=
      @Str.decodeUtf8From_skip surrogates others (Str.encodeSurrogatePass s ++ rest)
    have hcons : Str.encodeSurrogatePass (c :: s) =
      Str.utf8Char c ++ Str.encodeSurrogatePass s := rfl
    rw [hbytes, List.cons_append] at hscalar
    rw [Str.decodeUtf8] at hrest
    rw [hcons, Str.decodeUtf8, hbytes, List.append_assoc, List.cons_append, Str.decodeUtf8From,
      if_neg (lt_irrefl 0), Str.utf8Point_of_utf8Scalar hscalar]
    simp only [Option.bind_eq_bind, Option.bind_some, List.length_cons, Nat.add_sub_cancel, hskip,
      hrest]
    cases Str.decodeUtf8 surrogates rest <;> rfl

/-- A small byte is a code point of its own. -/
theorem eq_of_utf8Char {c b : Nat} {bytes : List Nat} (h : Str.utf8Char c = b :: bytes)
    (hb : b < 0x80) : c = b := by
  rw [Str.utf8Char] at h
  split_ifs at h
  · exact (List.cons.inj h).1
  all_goals
    have hfirst := (List.cons.inj h).1
    omega

theorem not_loads_nil (depth : Nat) (v : Json) : loads depth [] ≠ .ok v := by
  rw [loads, if_neg (by decide), skipSpace, List.dropWhile_nil, scanOnce]
  intro h
  cases h

/-- White space is its own encoding. -/
theorem encode_of_space {s : Str} (h : ∀ c ∈ s, isJsonSpace c = true) :
    s.encodeSurrogatePass = s := by
  induction s with
  | nil => rfl
  | cons c s ih =>
    have hsmall : c < 0x80 := by
      have hc := h c List.mem_cons_self
      simp only [isJsonSpace, Bool.or_eq_true, beq_iff_eq] at hc
      omega
    have hchar : Str.utf8Char c = [c] := by rw [Str.utf8Char, if_pos hsmall]
    have hrest := ih fun d hd => h d (List.mem_cons_of_mem c hd)
    rw [Str.encodeSurrogatePass, List.flatMap_cons, hchar]
    exact congrArg (c :: ·) hrest

end Python

namespace OpenCollabEval

variable {host : LogHost} {row : Obj} {text tail : List Nat}

/-- The text of a record ends with its closing brace. -/
theorem IsRecord.getLast? (h : IsRecord host row text) : text.getLast? = some 125 := by
  obtain ⟨-, rfl⟩ := h.written
  rw [DumpFormat.dumpsUnescaped_dict, Str.encodeSurrogatePass, ← List.cons_append,
    List.flatMap_append]
  exact List.getLast?_concat

/-- What is left of a record that is cut off is not read. -/
theorem IsRecord.eq_of_loads (h : IsRecord host row text) (hcut : tail <+: text) {v : Json}
    (hloads : OpenCollabEval.loadsUtf8 host tail = .ok v) : tail = text := by
  obtain ⟨rest, rfl⟩ := hcut
  obtain ⟨whole, hwhole, hread⟩ := h.decoded false isJsonSpace_of_mem_nil
  rw [List.append_nil] at hwhole
  rw [OpenCollabEval.loadsUtf8] at hloads
  cases hdecoded : Str.decodeUtf8 false tail with
  | none => simp [hdecoded] at hloads
  | some s =>
    rw [hdecoded] at hloads
    dsimp only at hloads
    have hencoded := Str.encode_of_decodeUtf8 hdecoded
    have hgoes := @decodeUtf8_encode_append false _ (decoded_of_decodeUtf8 hdecoded) rest
    rw [hencoded, hwhole] at hgoes
    obtain ⟨more, hmore, heq⟩ := Option.map_eq_some_iff.mp hgoes.symm
    obtain ⟨s, rfl⟩ : ∃ others, s = 123 :: others := by
      rcases s with _ | ⟨c, s⟩
      · exact absurd hloads (not_loads_nil host.depth v)
      · obtain ⟨others, hothers⟩ := h.eq_cons
        rw [← hencoded] at hothers
        obtain ⟨b, bytes, hbytes⟩ := List.exists_cons_of_ne_nil (Str.utf8Char_ne_nil c)
        have hcons : Str.encodeSurrogatePass (c :: s) =
            Str.utf8Char c ++ Str.encodeSurrogatePass s := rfl
        rw [hcons, hbytes, List.cons_append, List.cons_append, List.cons.injEq] at hothers
        rw [eq_of_utf8Char hbytes (by omega), hothers.1]
        exact ⟨s, rfl⟩
    have hspace := space_of_loads_append hloads (heq ▸ hread)
    have hrest : rest = more := by
      rw [← Str.encode_of_decodeUtf8 hmore, encode_of_space hspace]
    rcases List.eq_nil_or_concat rest with hnil | ⟨others, c, hconcat⟩
    · rw [hnil, List.append_nil]
    · have hlast := h.getLast?
      rw [hconcat, List.concat_eq_append, ← List.append_assoc, List.getLast?_concat] at hlast
      cases hlast
      have hbrace := hspace 125 (by rw [← hrest, hconcat]; simp)
      exact absurd hbrace (by decide)

/-- A call of `_append_jsonl_durable_once`, cut off after so many bytes or completed: the log, and
whether the call completed. -/
def appendedOnce (host : LogHost) (log : List Nat) (row : Obj) (cut : Option Nat) :
    List Nat × Bool :=
  let plan := appendJsonlDurableOnce host log row
  match plan.bytes with
  | .error _ => (plan.base, false)
  | .ok none => (plan.base, cut.isNone)
  | .ok (some bytes) => (plan.base ++ bytes.take (cut.getD bytes.length), cut.isNone)

/-- A line holds a row. -/
def LineReads (host : LogHost) (line : List Nat) (row : Obj) : Prop :=
  loadsUtf8 host line = .ok (.dict row)

/-- A log holds a row, or one that Python takes for it. -/
def Committed (host : LogHost) (log : List Nat) (row : Obj) : Prop :=
  ∃ line ∈ physicalLines log, ∃ read, LineReads host line read ∧
    (read = row ∨ (Json.dict read).pyEq (.dict row) = true)

/-- No two lines of a log hold rows that claim the same record. -/
def RowsOnce (host : LogHost) (log : List Nat) : Prop :=
  (physicalLines log).Pairwise fun line line' => ∀ row row', LineReads host line row →
    LineReads host line' row' → sameIdentity host row row' = false

/-- What the tail of such a log is. -/
def TornTail (host : LogHost) (tail : List Nat) : Prop :=
  tail = [] ∨ ∃ row text, IsRecord host row text ∧ tail <+: text

/-- A log that holds records of different identities, and the beginning of one more. -/
structure OnceLog (host : LogHost) (log : List Nat) (records : List (Obj × List Nat))
    (tail : List Nat) : Prop where
  joined : log = recordLog records tail
  texts : ∀ p ∈ records, IsRecord host p.1 p.2
  torn : TornTail host tail
  size : log.length ≤ maxFileBytes
  once : ∀ last, WholeTail host tail last →
    (records.map (·.1) ++ last).Pairwise fun row row' => sameIdentity host row row' = false
  records : (records.map (·.1)).Pairwise fun row row' => sameIdentity host row row' = false

section Once

variable {log : List Nat} {records : List (Obj × List Nat)} {last : List Obj}

theorem TornTail.plain (h : TornTail host tail) : ∀ b ∈ tail, 32 ≤ b := by
  rcases h with rfl | ⟨row, text, hrow, hcut⟩
  · simp
  · exact fun b hb => hrow.plain b (hcut.subset hb)

/-- A torn tail is whole, or it is not read. -/
theorem TornTail.whole_or (h : TornTail host tail) :
    (∃ last, WholeTail host tail last) ∨ tail ≠ [] ∧ ∀ v, loadsUtf8 host tail ≠ .ok v := by
  rcases h with rfl | ⟨row, text, hrow, hcut⟩
  · exact .inl ⟨[], .inl ⟨rfl, rfl⟩⟩
  · by_cases hread : ∃ v, loadsUtf8 host tail = .ok v
    · obtain ⟨v, hv⟩ := hread
      rw [hrow.eq_of_loads hcut hv]
      exact .inl ⟨[row], .inr ⟨row, hrow, rfl⟩⟩
    · by_cases hnil : tail = []
      · rw [hnil]
        exact .inl ⟨[], .inl ⟨rfl, rfl⟩⟩
      · exact .inr ⟨hnil, fun v hv => hread ⟨v, hv⟩⟩

theorem onceLog_nil : OnceLog host [] [] [] := by
  refine ⟨rfl, by simp, .inl rfl, by simp [maxFileBytes], fun last hlast => ?_, List.Pairwise.nil⟩
  rcases hlast with ⟨-, rfl⟩ | ⟨row, hrow, -⟩
  · exact List.Pairwise.nil
  · obtain ⟨others, hothers⟩ := hrow.eq_cons
    cases hothers

/-- The rows that the lines of such a log hold. -/
theorem OnceLog.lineReads (h : OnceLog host log records tail) {line : List Nat}
    (hline : line ∈ physicalLines log) {row : Obj} (hrow : LineReads host line row) :
    (∃ text, (row, text) ∈ records ∧ line = text ++ [10]) ∨
      IsRecord host row tail ∧ line = tail := by
  rw [h.joined, physicalLines_recordLog h.texts h.torn.plain, List.mem_append] at hline
  rcases hline with hline | hline
  · obtain ⟨p, hp, rfl⟩ := List.mem_map.mp hline
    have hread := (h.texts p hp).loadsUtf8 isJsonSpace_of_mem_lineFeed
    rw [LineReads, hread] at hrow
    cases hrow
    exact .inl ⟨p.2, hp, rfl⟩
  · split_ifs at hline with hnil
    · cases hline
    · obtain rfl := List.mem_singleton.mp hline
      rcases h.torn with rfl | ⟨row', text, hrow', hcut⟩
      · exact absurd rfl hnil
      · obtain rfl := hrow'.eq_of_loads hcut hrow
        rw [LineReads, ← List.append_nil line, hrow'.loadsUtf8 isJsonSpace_of_mem_nil] at hrow
        cases hrow
        exact .inr ⟨hrow', rfl⟩

/-- A scan that found its record does not lose it. -/
theorem scanCommitted_of_found {expected : Obj} {lines : List (List Nat)} {result : Bool × Bool}
    (h : scanCommitted host expected true lines = .ok result) : result.1 = true := by
  induction lines with
  | nil =>
    cases h
    rfl
  | cons line lines ih =>
    rw [scanCommitted] at h
    split_ifs at h
    all_goals
      split at h
      · cases h <;> rfl
      · cases h
      · split_ifs at h
        · exact ih h
        · exact ih h
      · cases h

/-- A scan that does not find its record passes no row that claims the same one. -/
theorem differs_of_scanCommitted {pairs : List (Obj × List Nat)} {expected : Obj}
    {rest : List (List Nat)} {result : Bool × Bool}
    (hline : ∀ p ∈ pairs, ∃ text space, p.2 = text ++ space ∧ (space = [] ∨ space = [10]) ∧
      IsRecord host p.1 text)
    (hlength : (pairs.flatMap (·.2)).length ≤ maxFileBytes)
    (h : scanCommitted host expected false (pairs.map (·.2) ++ rest) = .ok result)
    (hresult : result.1 = false) : ∀ p ∈ pairs, sameIdentity host p.1 expected = false := by
  induction pairs with
  | nil => simp
  | cons p pairs ih =>
    obtain ⟨text, space, heq, hspace, hrow⟩ := hline p List.mem_cons_self
    rw [List.flatMap_cons, List.length_append] at hlength
    rw [List.map_cons, List.cons_append, heq,
      scanCommitted_cons hrow hspace (by rw [← heq]; omega)] at h
    split_ifs at h with hdiffers
    · have hrest := ih (fun q hq => hline q (List.mem_cons_of_mem p hq)) (by omega) h
      intro q hq
      rcases List.mem_cons.mp hq with rfl | hq
      · simpa using hdiffers
      · exact hrest q hq
    · rw [scanCommitted_of_found h] at hresult
      cases hresult

theorem differs_of_scan (hrecords : ∀ p ∈ records, IsRecord host p.1 p.2)
    (hlast : WholeTail host tail last) (hsize : (recordLog records tail).length ≤ maxFileBytes)
    {expected : Obj} {rest : List (List Nat)} {torn : Bool}
    (h : scanCommitted host expected false (physicalLines (recordLog records tail) ++ rest) =
      .ok (false, torn)) :
    ∀ read ∈ records.map (·.1) ++ last, sameIdentity host read expected = false := by
  obtain ⟨pairs, hlines, hjoin, hpairs, hline⟩ := exists_pairs hrecords hlast
  rw [hlines] at h
  have hdiffers := differs_of_scanCommitted hline (by rw [hjoin]; exact hsize) h rfl
  intro read hread
  rw [← hpairs] at hread
  obtain ⟨p, hp, rfl⟩ := List.mem_map.mp hread
  exact hdiffers p hp

/-- What a scan of such a log leaves and finds. -/
structure Scanned (host : LogHost) (records : List (Obj × List Nat)) (tail₀ : List Nat)
    (expected : Obj) (base : List Nat) (found : Bool) (tail : List Nat) (last : List Obj) :
    Prop where
  joined : base = recordLog records tail
  kept : tail = tail₀ ∨ tail = [] ∧ ∀ v, loadsUtf8 host tail₀ ≠ .ok v
  whole : WholeTail host tail last
  present : found = true → ∃ read ∈ records.map (·.1) ++ last,
    (Json.dict read).pyEq (.dict expected) = true
  differs : found = false → ∀ read ∈ records.map (·.1) ++ last,
    sameIdentity host read expected = false

/-- A scan gets past a torn tail only by cutting it off. -/
theorem OnceLog.scanned (h : OnceLog host log records tail) {expected : Obj} {base : List Nat}
    {found : Bool} (hscan : findCommittedIdentity host log expected = .ok (base, found)) :
    ∃ tail' last, Scanned host records tail expected base found tail' last := by
  have hsize := h.size
  have hlines := byteLines_recordLog h.texts h.torn.plain
  rw [h.joined] at hscan hsize
  have hdefinition := hscan
  rw [findCommittedIdentity, if_neg (by omega), hlines] at hdefinition
  obtain ⟨⟨found', torn⟩, hcommitted, hresult⟩ := bind_eq_ok_iff.mp hdefinition
  obtain rfl : found' = found := by
    cases hresult
    rfl
  rcases h.torn.whole_or with ⟨last, hlast⟩ | ⟨hne, hunread⟩
  · obtain ⟨hbase, hfound⟩ := findCommittedIdentity_of_whole h.texts hlast hsize hscan
    refine ⟨tail, last, hbase, .inl rfl, hlast, hfound, ?_⟩
    rintro rfl
    rw [← List.append_nil (physicalLines _)] at hcommitted
    exact differs_of_scan h.texts hlast hsize hcommitted
  · have hnil : WholeTail host [] [] := .inl ⟨rfl, rfl⟩
    have hshort : (recordLog records []).length ≤ maxFileBytes := by
      rw [recordLog, joinLines, List.length_append] at hsize ⊢
      simp only [List.length_nil]
      omega
    have hsplit : physicalLines (recordLog records tail) =
        physicalLines (recordLog records []) ++ [tail] := by
      rw [physicalLines_recordLog h.texts h.torn.plain, physicalLines_recordLog h.texts (by simp),
        if_neg hne, if_pos rfl, List.append_nil]
    rw [hsplit] at hcommitted
    have htorn : loadsUtf8 host tail = .error .jsonDecodeError := by
      obtain ⟨pairs, hpairs, hjoin, -, hline⟩ := exists_pairs h.texts hnil
      have hend := hcommitted
      rw [hpairs] at hend
      obtain ⟨found'', hend, -⟩ := scanCommitted_append hline (by rw [hjoin]; exact hshort) hend
      have hopen : (tail.getLast? == some 10) = false := by
        rw [beq_eq_false_iff_ne]
        intro hfeed
        exact absurd (h.torn.plain 10 (List.mem_of_getLast? hfeed)) (by decide)
      rw [scanCommitted] at hend
      simp only [hopen, Bool.false_eq_true, if_false] at hend
      cases hloads : loadsUtf8 host tail with
      | ok v => exact absurd hloads (hunread v)
      | error e =>
        rw [hloads] at hend
        split_ifs at hend
        all_goals
          cases e with
          | jsonDecodeError => rfl
          | _ => cases hend
    obtain ⟨hbase, hfound⟩ :=
      findCommittedIdentity_of_torn h.texts h.torn.plain hne htorn hsize hscan
    refine ⟨[], [], hbase, .inr ⟨rfl, hunread⟩, hnil, by simpa using hfound, ?_⟩
    rintro rfl
    exact differs_of_scan h.texts hnil hshort hcommitted

/-- The records of a log whose whole tail has been ended as a line of its own. -/
theorem ended_records (hrecords : ∀ p ∈ records, IsRecord host p.1 p.2)
    (hlast : WholeTail host tail last) :
    (∀ p ∈ records ++ last.map fun row => (row, tail), IsRecord host p.1 p.2) ∧
      ∀ p : Obj × List Nat, IsRecord host p.1 p.2 → p.2 = tail →
        p ∈ records ++ last.map fun row => (row, tail) := by
  rcases hlast with ⟨rfl, rfl⟩ | ⟨row, hrow, rfl⟩
  · refine ⟨by simpa using hrecords, fun p hp hnil => ?_⟩
    obtain ⟨rest, hcons⟩ := hp.eq_cons
    simp [hnil] at hcons
  · refine ⟨fun p hp => ?_, fun p hp htail => ?_⟩
    · rcases List.mem_append.mp hp with hp | hp
      · exact hrecords p hp
      · obtain rfl := List.mem_singleton.mp hp
        exact hrow
    · obtain ⟨read, text⟩ := p
      obtain rfl : text = tail := htail
      obtain rfl : read = row := hrow.eq hp
      exact List.mem_append_right _ List.mem_cons_self

/-- A whole tail of a torn record is that record. -/
theorem IsRecord.eq_of_whole (hrow : IsRecord host row text) (hcut : tail <+: text)
    (hlast : WholeTail host tail last) : last = [] ∨ last = [row] := by
  rcases hlast with ⟨-, hlast⟩ | ⟨row', hrow', rfl⟩
  · exact .inl hlast
  · have hread := hrow'.loadsUtf8 isJsonSpace_of_mem_nil
    rw [List.append_nil] at hread
    obtain rfl := hrow.eq_of_loads hcut hread
    exact .inr (by rw [hrow.eq hrow'])

/-- A record that is written after such a log, as far as its writer gets. -/
theorem OnceLog.write (h : OnceLog host log records tail) (hlast : WholeTail host tail last)
    (hrow : IsRecord host row text)
    (hsize : log.length + (separator log ++ (text ++ [10])).length ≤ maxFileBytes)
    (hdiffers : ∀ read ∈ records.map (·.1) ++ last, sameIdentity host read row = false)
    (cut : Nat) : ∃ records' tail',
      OnceLog host (log ++ (separator log ++ (text ++ [10])).take cut) records' tail' ∧
      (∀ p : Obj × List Nat, IsRecord host p.1 p.2 → p ∈ records ∨ p.2 = tail →
        p ∈ records' ∨ p.2 = tail') ∧
      ((separator log ++ (text ++ [10])).length ≤ cut → (row, text) ∈ records') := by
  obtain ⟨htexts, hended⟩ := ended_records h.texts hlast
  have hrows : (records ++ last.map fun row => (row, tail)).map (·.1) =
      records.map (·.1) ++ last := by
    rw [List.map_append, List.map_map]
    exact congrArg _ (List.map_id last)
  have honce := h.once last hlast
  have honce' : (records.map (·.1) ++ last ++ [row]).Pairwise
      fun row row' => sameIdentity host row row' = false := by
    refine List.pairwise_append.mpr
      ⟨honce, List.pairwise_singleton _ _, fun read hread row' hrow' => ?_⟩
    rw [List.mem_singleton.mp hrow']
    exact hdiffers read hread
  have hshort : (log ++ (separator log ++ (text ++ [10])).take cut).length ≤ maxFileBytes := by
    have htake := (List.take_sublist cut (separator log ++ (text ++ [10]))).length_le
    rw [List.length_append]
    omega
  -- after the separator, the bytes are those of the record
  have hbytes : (∃ k, log ++ (separator log ++ (text ++ [10])).take cut =
        recordLog (records ++ last.map fun row => (row, tail)) [] ++ (text ++ [10]).take k ∧
        ((separator log ++ (text ++ [10])).length ≤ cut → text.length < k)) ∨
      cut = 0 := by
    rw [h.joined, separator_recordLog h.torn.plain]
    by_cases hnil : tail = []
    · refine .inl ⟨cut, ?_, ?_⟩
      · rw [← recordLog_ended hlast, if_pos hnil]
        rfl
      · rw [if_pos hnil, List.nil_append, List.length_append]
        exact id
    · cases cut with
      | zero => exact .inr rfl
      | succ k =>
        refine .inl ⟨k, ?_, ?_⟩
        · rw [← recordLog_ended hlast, if_neg hnil]
          rfl
        · rw [if_neg hnil, List.length_append, List.length_append, List.length_singleton]
          omega
  rcases hbytes with ⟨k, hbytes, hfull⟩ | rfl
  · rw [hbytes] at hshort ⊢
    by_cases hk : k ≤ text.length
    · -- the record is torn
      refine ⟨_, text.take k, ⟨?_, htexts, .inr ⟨row, text, hrow, List.take_prefix k text⟩, hshort,
        fun last' hlast' => ?_, hrows ▸ honce⟩, fun p hp hplace => .inl ?_, fun hcut => ?_⟩
      · rw [List.take_append_of_le_length hk, recordLog, joinLines, recordLog, joinLines,
          List.append_nil]
      · rw [hrows]
        rcases hrow.eq_of_whole (List.take_prefix k text) hlast' with rfl | rfl
        · rwa [List.append_nil]
        · exact honce'
      · exact hplace.elim (fun hmem => List.mem_append_left _ hmem) (hended p hp)
      · exact absurd (hfull hcut) (Nat.not_lt.mpr hk)
    · -- the record is whole
      have hconcat : (records ++ last.map (fun row => (row, tail)) ++ [(row, text)]).map (·.1) =
          records.map (·.1) ++ last ++ [row] := by rw [List.map_append, hrows]; rfl
      refine ⟨records ++ last.map (fun row => (row, tail)) ++ [(row, text)], [],
        ⟨?_, fun p hp => ?_, .inl rfl, hshort, fun last' hlast' => ?_, hconcat ▸ honce'⟩,
        fun p hp hplace => .inl ?_, fun _ => List.mem_append_right _ List.mem_cons_self⟩
      · rw [List.take_of_length_le (by rw [List.length_append, List.length_singleton]; omega)]
        simp [recordLog, joinLines]
      · rcases List.mem_append.mp hp with hp | hp
        · exact htexts p hp
        · rw [List.mem_singleton.mp hp]
          exact hrow
      · rw [hconcat]
        rcases hlast' with ⟨-, rfl⟩ | ⟨row', hrow', -⟩
        · rwa [List.append_nil]
        · obtain ⟨others, hothers⟩ := hrow'.eq_cons
          cases hothers
      · exact List.mem_append_left _
          (hplace.elim (fun hmem => List.mem_append_left _ hmem) (hended p hp))
  · refine ⟨records, tail, ?_, fun p hp => id, fun hcut => ?_⟩
    · rwa [List.take_zero, List.append_nil]
    · rw [List.length_append, List.length_append, List.length_singleton] at hcut
      omega

/-- The rows of such a log are those of its records and of its tail. -/
theorem OnceLog.committed_iff (h : OnceLog host log records tail) (row : Obj) :
    Committed host log row ↔ ∃ p : Obj × List Nat, IsRecord host p.1 p.2 ∧
      (p ∈ records ∨ p.2 = tail) ∧ (p.1 = row ∨ (Json.dict p.1).pyEq (.dict row) = true) := by
  constructor
  · rintro ⟨line, hline, read, hread, hsame⟩
    rcases h.lineReads hline hread with ⟨text, hmem, -⟩ | ⟨hrecord, -⟩
    · exact ⟨(read, text), h.texts _ hmem, .inl hmem, hsame⟩
    · exact ⟨(read, tail), hrecord, .inr rfl, hsame⟩
  · rintro ⟨⟨read, text⟩, hrecord, hplace, hsame⟩
    have hlines := physicalLines_recordLog h.texts h.torn.plain
    rw [← h.joined] at hlines
    rcases hplace with hmem | htail
    · refine ⟨text ++ [10], ?_, read, hrecord.loadsUtf8 isJsonSpace_of_mem_lineFeed, hsame⟩
      rw [hlines]
      exact List.mem_append_left _ (List.mem_map.mpr ⟨_, hmem, rfl⟩)
    · obtain rfl : text = tail := htail
      have hread := hrecord.loadsUtf8 isJsonSpace_of_mem_nil
      rw [List.append_nil] at hread
      refine ⟨text, ?_, read, hread, hsame⟩
      obtain ⟨others, hothers⟩ := hrecord.eq_cons
      rw [hlines, if_neg fun hnil : text = [] => List.cons_ne_nil _ _ (hothers.symm.trans hnil)]
      exact List.mem_append_right _ List.mem_cons_self

/-- The log without its torn tail. -/
theorem OnceLog.base (h : OnceLog host log records tail) {expected : Obj} {base : List Nat}
    {found : Bool} {tail' : List Nat}
    (hscanned : Scanned host records tail expected base found tail' last) :
    OnceLog host base records tail' ∧ ∀ row, Committed host log row → Committed host base row := by
  have hbase : OnceLog host base records tail' := by
    have hsize := h.size
    rw [h.joined] at hsize
    rcases hscanned.kept with rfl | ⟨rfl, -⟩
    · exact ⟨hscanned.joined, h.texts, h.torn, hscanned.joined ▸ hsize, h.once, h.records⟩
    · refine ⟨hscanned.joined, h.texts, .inl rfl, ?_, fun last' hlast' => ?_, h.records⟩
      · rw [hscanned.joined, recordLog, joinLines, List.append_nil]
        rw [recordLog, joinLines, List.length_append] at hsize
        omega
      · rcases hlast' with ⟨-, rfl⟩ | ⟨row', hrow', -⟩
        · rw [List.append_nil]
          exact h.records
        · obtain ⟨others, hothers⟩ := hrow'.eq_cons
          cases hothers
  refine ⟨hbase, fun row hrow => ?_⟩
  obtain ⟨p, hp, hplace, hsame⟩ := (h.committed_iff row).mp hrow
  refine (hbase.committed_iff row).mpr ⟨p, hp, hplace.imp_right fun htail => ?_, hsame⟩
  rcases hscanned.kept with rfl | ⟨-, hunread⟩
  · exact htail
  · have hread := hp.loadsUtf8 isJsonSpace_of_mem_nil
    rw [List.append_nil, htail] at hread
    exact absurd hread (hunread _)

/-- A call of `_append_jsonl_durable_once` keeps every row and every identity once, wherever it is
cut off, and its row is in the log when it completes. -/
theorem OnceLog.append (h : OnceLog host log records tail) {row : Obj}
    (hreadable : (Json.dict row).Readable host.depth) (cut : Option Nat) :
    (∃ records' tail', OnceLog host (appendedOnce host log row cut).1 records' tail') ∧
      (∀ other, Committed host log other →
        Committed host (appendedOnce host log row cut).1 other) ∧
      ((appendedOnce host log row cut).2 = true →
        Committed host (appendedOnce host log row cut).1 row) := by
  have hstays : (∃ records' tail', OnceLog host log records' tail') ∧
      (∀ other, Committed host log other → Committed host log other) ∧
      (false = true → Committed host log row) :=
    ⟨⟨records, tail, h⟩, fun _ => id, fun hfalse => by cases hfalse⟩
  rw [appendedOnce, appendJsonlDurableOnce]
  cases hpayload : recordPayload host .outputLimit row with
  | error e => exact hstays
  | ok payload =>
    cases hscan : findCommittedIdentity host log row with
    | error e => exact hstays
    | ok result =>
      obtain ⟨base, found⟩ := result
      obtain ⟨tail', last, hscanned⟩ := h.scanned hscan
      obtain ⟨hbase, hkept⟩ := h.base hscanned
      cases found with
      | true =>
        -- the row was there
        refine ⟨⟨records, tail', hbase⟩, hkept, fun _ => (hbase.committed_iff row).mpr ?_⟩
        obtain ⟨read, hread, hsame⟩ := hscanned.present rfl
        rcases List.mem_append.mp hread with hread | hread
        · obtain ⟨p, hp, rfl⟩ := List.mem_map.mp hread
          exact ⟨p, h.texts p hp, .inl hp, .inr hsame⟩
        · rcases hscanned.whole with ⟨-, rfl⟩ | ⟨row', hrow', rfl⟩
          · cases hread
          · obtain rfl := List.mem_singleton.mp hread
            exact ⟨(read, tail'), hrow', .inr rfl, .inr hsame⟩
      | false =>
        dsimp only
        rw [if_neg Bool.false_ne_true]
        cases hbounded : boundedAppend .outputLimit base payload with
        | error e => exact ⟨⟨records, tail', hbase⟩, hkept, fun hfalse => by cases hfalse⟩
        | ok bytes =>
          obtain ⟨rfl, hsize⟩ := boundedAppend_eq_ok hbounded
          obtain ⟨text, rfl, hrow⟩ := recordPayload_eq_ok hreadable hpayload
          obtain ⟨records', tail'', hwritten, hgrown, hfull⟩ :=
            hbase.write hscanned.whole hrow hsize (hscanned.differs rfl)
              (cut.getD (separator base ++ (text ++ [10])).length)
          refine ⟨⟨records', tail'', hwritten⟩, fun other hother => ?_, fun hcut => ?_⟩
          · obtain ⟨p, hp, hplace, hsame⟩ := (hbase.committed_iff other).mp (hkept other hother)
            exact (hwritten.committed_iff other).mpr ⟨p, hp, hgrown p hp hplace, hsame⟩
          · obtain rfl := Option.isNone_iff_eq_none.mp hcut
            exact (hwritten.committed_iff row).mpr
              ⟨(row, text), hrow, .inl (hfull le_rfl), .inl rfl⟩

/-- No two lines of such a log claim the same record. -/
theorem OnceLog.rowsOnce (h : OnceLog host log records tail) : RowsOnce host log := by
  have hlines := physicalLines_recordLog h.texts h.torn.plain
  rw [← h.joined] at hlines
  have hread (p : Obj × List Nat) (hp : p ∈ records) (row : Obj)
      (hrow : LineReads host (p.2 ++ [10]) row) : row = p.1 := by
    rw [LineReads, (h.texts p hp).loadsUtf8 isJsonSpace_of_mem_lineFeed] at hrow
    cases hrow
    rfl
  rw [RowsOnce, hlines]
  refine List.pairwise_append.mpr ⟨?_, ?_, ?_⟩
  · refine List.pairwise_map.mpr ((List.pairwise_map.mp h.records).imp_of_mem ?_)
    intro p q hp hq hdiffers row row' hrow hrow'
    rw [hread p hp row hrow, hread q hq row' hrow']
    exact hdiffers
  · split_ifs
    · exact List.Pairwise.nil
    · exact List.pairwise_singleton _ _
  · intro line hline line' hline' row row' hrow hrow'
    obtain ⟨p, hp, rfl⟩ := List.mem_map.mp hline
    split_ifs at hline'
    · cases hline'
    · obtain rfl := List.mem_singleton.mp hline'
      rw [hread p hp row hrow]
      rcases h.torn with rfl | ⟨whole, text, hwhole, hcut⟩
      · contradiction
      · obtain rfl := hwhole.eq_of_loads hcut hrow'
        have honce := h.once [whole] (.inr ⟨whole, hwhole, rfl⟩)
        have hsame := hwhole.loadsUtf8 isJsonSpace_of_mem_nil
        rw [List.append_nil, hrow'] at hsame
        cases hsame
        exact (List.pairwise_append.mp honce).2.2 p.1 (List.mem_map_of_mem hp) _ List.mem_cons_self

end Once

end OpenCollabEval
