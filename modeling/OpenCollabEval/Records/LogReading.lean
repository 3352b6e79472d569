import OpenCollabEval.Records.RecordLog

/-!
# Reading a log of records

What the readers and the scans make of a log that holds the texts of records, the last of which may
lack its line feed.

* `readLog_eq`: both readers return its rows.
* `findCommittedIdentity_of_whole`, `findCommittedIdentity_of_torn`: what a scan finds, and what it
  leaves of the log.
* `exists_findCommittedIdentity`: a scan raises only over a conflict.
-/

open Python

namespace OpenCollabEval

variable {host : LogHost}

/-- Some bytes are the text of a row, without its line feed. -/
structure IsRecord (host : LogHost) (row : Obj) (text : List Nat) : Prop where
  readable : (Json.dict row).Readable host.depth
  encoded : encodeCandidateJsonl host row = .ok (text ++ [10])

theorem isJsonSpace_of_mem_nil : ∀ b ∈ ([] : List Nat), isJsonSpace b = true := by simp

theorem isJsonSpace_of_mem_lineFeed : ∀ b ∈ [10], isJsonSpace b = true := by decide

section Record

variable {row : Obj} {text : List Nat}

/-- Texts are encoded code point by code point. -/
theorem encode_eq_ok_iff {s : Str} {bytes : List Nat} :
    s.encode = .ok bytes ↔ (∀ c ∈ s, Str.isSurrogate c = false) ∧ s.encodeSurrogatePass = bytes := by
  unfold Str.encode
  split
  · rename_i hsurrogate
    obtain ⟨c, hc, hpart⟩ := List.any_eq_true.mp hsurrogate
    simp only [reduceCtorEq, false_iff, not_and]
    intro hnone
    simp [hnone c hc] at hpart
  · rename_i hnone
    simp only [Except.ok.injEq, iff_and_self]
    intro _ c hc
    simpa using List.any_eq_false.mp (by simpa using hnone) c hc

/-- What is written for a row that can be read back. -/
theorem isRecord_of_encoded {payload : List Nat} (hreadable : (Json.dict row).Readable host.depth)
    (h : encodeCandidateJsonl host row = .ok payload) :
    ∃ text, payload = text ++ [10] ∧ IsRecord host row text := by
  have hpayload := h
  obtain ⟨-, -, h⟩ := bind_eq_ok_iff.mp h
  obtain ⟨bytes, hbytes, h⟩ := bind_eq_ok_iff.mp h
  obtain ⟨-, -, h⟩ := bind_eq_ok_iff.mp h
  cases h
  obtain ⟨-, rfl⟩ := encode_eq_ok_iff.mp hbytes
  refine ⟨(DumpFormat.plain.dumpsUnescaped (.dict row)).encodeSurrogatePass, ?_, hreadable, ?_⟩
  · simp [Str.encodeSurrogatePass, lit, Str.utf8Char]
  · rw [hpayload]
    simp [Str.encodeSurrogatePass, lit, Str.utf8Char]

theorem IsRecord.validated (h : IsRecord host row text) :
    validateCandidateRecord host row = .ok () := by
  obtain ⟨_, hvalid, -⟩ := bind_eq_ok_iff.mp h.encoded
  exact hvalid

/-- The text of a record, as it was written. -/
theorem IsRecord.written (h : IsRecord host row text) :
    (∀ c ∈ DumpFormat.plain.dumpsUnescaped (.dict row), Str.isSurrogate c = false) ∧
      (DumpFormat.plain.dumpsUnescaped (.dict row)).encodeSurrogatePass = text := by
  obtain ⟨-, -, hrest⟩ := bind_eq_ok_iff.mp h.encoded
  obtain ⟨bytes, hbytes, hrest⟩ := bind_eq_ok_iff.mp hrest
  obtain ⟨-, -, hrest⟩ := bind_eq_ok_iff.mp hrest
  cases hrest
  obtain ⟨hnone, hbytes⟩ := encode_eq_ok_iff.mp hbytes
  refine ⟨fun c hc => hnone c (by simp [hc]), ?_⟩
  have hfeed : Str.encodeSurrogatePass (lit "\n") = [10] := by decide
  rw [Str.encodeSurrogatePass, List.flatMap_append] at hbytes
  exact List.append_cancel_right (hbytes.trans (by rw [← hfeed]; rfl))

/-- No byte of a record is a control character. -/
theorem IsRecord.plain (h : IsRecord host row text) : ∀ b ∈ text, 32 ≤ b := by
  obtain ⟨-, rfl⟩ := h.written
  intro b hb
  obtain ⟨c, hc, hb⟩ := List.mem_flatMap.mp hb
  have hplain := (DumpFormat.plain_dumpsUnescaped h.readable c hc).1
  unfold Str.utf8Char at hb
  split_ifs at hb <;> simp only [List.mem_cons, List.not_mem_nil, or_false] at hb <;> omega

/-- A record starts with a brace. -/
theorem IsRecord.eq_cons (h : IsRecord host row text) : ∃ rest, text = 123 :: rest := by
  obtain ⟨-, rfl⟩ := h.written
  rw [DumpFormat.dumpsUnescaped_dict]
  exact ⟨_, rfl⟩

/-- The text of a record is decoded, whatever white space follows it. -/
theorem IsRecord.decoded (h : IsRecord host row text) (surrogates : Bool) {space : List Nat}
    (hspace : ∀ b ∈ space, isJsonSpace b = true) :
    ∃ s, Str.decodeUtf8 surrogates (text ++ space) = some s ∧
      loads host.depth s = .ok (.dict row) := by
  obtain ⟨hnone, rfl⟩ := h.written
  refine ⟨DumpFormat.plain.dumpsUnescaped (.dict row) ++ space, ?_,
    DumpFormat.loads_dumpsUnescaped h.readable hspace⟩
  have hbytes : Str.encodeSurrogatePass space = space := by
    clear * - hspace
    induction space with
    | nil => rfl
    | cons b space ih =>
      have hwhite := hspace b (by simp)
      simp only [isJsonSpace, Bool.or_eq_true, beq_iff_eq] at hwhite
      have hsmall : b < 0x80 := by omega
      rw [Str.encodeSurrogatePass, List.flatMap_cons, ← Str.encodeSurrogatePass,
        ih fun c hc => hspace c (by simp [hc])]
      simp [Str.utf8Char, hsmall]
  have hall : ∀ c ∈ DumpFormat.plain.dumpsUnescaped (.dict row) ++ space,
      c ≤ 0x10FFFF ∧ Str.isSurrogate c = false := by
    intro c hc
    rcases List.mem_append.mp hc with hc | hc
    · have hpoint := (DumpFormat.plain_dumpsUnescaped h.readable c hc).2
      exact ⟨by omega, hnone c hc⟩
    · have hwhite := hspace c hc
      simp only [isJsonSpace, Bool.or_eq_true, beq_iff_eq] at hwhite
      rcases hwhite with ((rfl | rfl) | rfl) | rfl <;> decide
  have hdecoded := @Str.decodeUtf8_encode surrogates _ hall
  rwa [Str.encodeSurrogatePass, List.flatMap_append, ← Str.encodeSurrogatePass,
    ← Str.encodeSurrogatePass, hbytes] at hdecoded

theorem IsRecord.loadsUtf8 (h : IsRecord host row text) {space : List Nat}
    (hspace : ∀ b ∈ space, isJsonSpace b = true) :
    loadsUtf8 host (text ++ space) = .ok (.dict row) := by
  obtain ⟨s, hs, hloads⟩ := h.decoded false hspace
  rw [OpenCollabEval.loadsUtf8, hs]
  exact hloads

/-- Bytes without control characters that start with a brace are taken for UTF-8. -/
theorem detectEncoding_of_plain {rest : List Nat} (h : ∀ b ∈ rest, 32 ≤ b) :
    detectEncoding (123 :: rest) = none := by
  rcases rest with _ | ⟨b, _ | ⟨c, _ | ⟨d, rest⟩⟩⟩
  · rfl
  · have hb := h b (by simp)
    have hne : b ≠ 0 := by omega
    simp [detectEncoding, List.isPrefixOf, hne]
  · simp [detectEncoding, List.isPrefixOf]
  · have hb := h b (by simp)
    have hne : b ≠ 0 := by omega
    simp [detectEncoding, List.isPrefixOf, hne]

theorem IsRecord.loadsBytes (h : IsRecord host row text) :
    loadsBytes host text = .ok (.dict row) := by
  obtain ⟨rest, rfl⟩ := h.eq_cons
  obtain ⟨s, hs, hloads⟩ := h.decoded true isJsonSpace_of_mem_nil
  rw [OpenCollabEval.loadsBytes, detectEncoding_of_plain fun b hb => h.plain b (by simp [hb])]
  rw [List.append_nil] at hs
  simp only [hs]
  exact hloads

/-- A record is read from its line, with or without the line feed. -/
theorem IsRecord.readRecord (h : IsRecord host row text) {space : List Nat}
    (hspace : ∀ b ∈ space, isJsonSpace b = true) :
    readRecord host (text ++ space) = .ok row := by
  rw [OpenCollabEval.readRecord, h.loadsUtf8 hspace]
  simp only [h.validated]

theorem IsRecord.not_blank (h : IsRecord host row text) (rest : List Nat) :
    isBlankLine (text ++ rest) = false := by
  obtain ⟨others, rfl⟩ := h.eq_cons
  rfl

/-- A text stands for one row. -/
theorem IsRecord.eq (h : IsRecord host row text) {row' : Obj} (h' : IsRecord host row' text) :
    row' = row := by
  have hsame := (h'.loadsUtf8 isJsonSpace_of_mem_nil).symm.trans (h.loadsUtf8 isJsonSpace_of_mem_nil)
  simpa using hsame

end Record

/-- A tail is nothing, or a record that only lacks its line feed; `last` are its rows. -/
def WholeTail (host : LogHost) (tail : List Nat) (last : List Obj) : Prop :=
  tail = [] ∧ last = [] ∨ ∃ row, IsRecord host row tail ∧ last = [row]

section Log

variable {records : List (Obj × List Nat)} {tail : List Nat} {last : List Obj}

/-- The log of some records and a tail. -/
def recordLog (records : List (Obj × List Nat)) (tail : List Nat) : List Nat :=
  joinLines (records.map (·.2)) tail

theorem WholeTail.plain (h : WholeTail host tail last) : ∀ b ∈ tail, 32 ≤ b := by
  rcases h with ⟨rfl, -⟩ | ⟨row, hrow, -⟩
  · simp
  · exact hrow.plain

theorem not_mem_of_plain {bytes : List Nat} {b : Nat} (h : ∀ c ∈ bytes, 32 ≤ c) (hb : b < 32) :
    b ∉ bytes := fun hmem => absurd (h b hmem) (by omega)

theorem physicalLines_recordLog (hrecords : ∀ p ∈ records, IsRecord host p.1 p.2)
    (htail : ∀ b ∈ tail, 32 ≤ b) :
    physicalLines (recordLog records tail) =
      records.map (·.2 ++ [10]) ++ if tail = [] then [] else [tail] := by
  rw [recordLog, physicalLines_joinLines _ (not_mem_of_plain htail (by decide)), List.map_map]
  · rfl
  · intro line hline
    obtain ⟨p, hp, rfl⟩ := List.mem_map.mp hline
    exact not_mem_of_plain (hrecords p hp).plain (by decide)

theorem byteLines_recordLog (hrecords : ∀ p ∈ records, IsRecord host p.1 p.2)
    (htail : ∀ b ∈ tail, 32 ≤ b) :
    byteLines (recordLog records tail) = physicalLines (recordLog records tail) := by
  refine byteLines_eq_physicalLines fun hmem => ?_
  rw [recordLog, joinLines, List.mem_append, List.mem_flatMap] at hmem
  rcases hmem with ⟨line, hline, hmem⟩ | hmem
  · obtain ⟨p, hp, rfl⟩ := List.mem_map.mp hline
    rcases List.mem_append.mp hmem with hmem | hmem
    · exact not_mem_of_plain (hrecords p hp).plain (by decide) hmem
    · simp at hmem
  · exact not_mem_of_plain htail (by decide) hmem

/-- Lines that hold records are read as those records. -/
theorem readRecords_eq {skipBlank : Bool} {pairs : List (Obj × List Nat)} {count retained : Nat}
    (hread : ∀ p ∈ pairs, readRecord host p.2 = .ok p.1 ∧ isBlankLine p.2 = false)
    (hcount : count + pairs.length ≤ maxRetainedRows)
    (hbytes : retained + (pairs.flatMap (·.2)).length ≤ maxFileBytes) :
    readRecords host skipBlank count retained (pairs.map (·.2)) = .ok (pairs.map (·.1)) := by
  induction pairs generalizing count retained with
  | nil => rfl
  | cons p pairs ih =>
    obtain ⟨hrow, hblank⟩ := hread p (by simp)
    simp only [List.length_cons, List.flatMap_cons, List.length_append] at hcount hbytes
    have hrest := @ih (count + 1) (retained + p.2.length)
      (fun q hq => hread q (by simp [hq])) (by omega) (by omega)
    rw [List.map_cons, readRecords, if_neg (by omega), hblank, hrow]
    have hroom : ¬maxRetainedRows ≤ count := by omega
    have hfits : ¬maxFileBytes < retained + p.2.length := by omega
    simp [hroom, hfits, hrest]

/-- The rows of the lines of a log with a whole tail. -/
theorem exists_pairs (hrecords : ∀ p ∈ records, IsRecord host p.1 p.2)
    (hlast : WholeTail host tail last) :
    ∃ pairs : List (Obj × List Nat), physicalLines (recordLog records tail) = pairs.map (·.2) ∧
      pairs.flatMap (·.2) = recordLog records tail ∧ pairs.map (·.1) = records.map (·.1) ++ last ∧
      ∀ p ∈ pairs, ∃ text space, p.2 = text ++ space ∧ (space = [] ∨ space = [10]) ∧
        IsRecord host p.1 text := by
  have hlines := physicalLines_recordLog hrecords hlast.plain
  refine ⟨records.map (fun p => (p.1, p.2 ++ [10])) ++ last.map (fun row => (row, tail)),
    ?_, ?_, ?_, fun p hp => ?_⟩
  · rw [hlines]
    rcases hlast with ⟨rfl, rfl⟩ | ⟨row, hrow, rfl⟩
    · simp [Function.comp_def]
    · obtain ⟨rest, rfl⟩ := hrow.eq_cons
      simp [Function.comp_def]
  · rw [recordLog, joinLines, List.flatMap_append]
    rcases hlast with ⟨rfl, rfl⟩ | ⟨row, -, rfl⟩ <;> simp [List.flatMap_map]
  · simp [Function.comp_def]
  · rcases List.mem_append.mp hp with hp | hp
    · obtain ⟨q, hq, rfl⟩ := List.mem_map.mp hp
      exact ⟨q.2, [10], rfl, .inr rfl, hrecords q hq⟩
    · obtain ⟨row, hrow, rfl⟩ := List.mem_map.mp hp
      rcases hlast with ⟨-, rfl⟩ | ⟨row', hrow', rfl⟩
      · simp at hrow
      · rw [List.mem_singleton.mp hrow]
        exact ⟨tail, [], by simp, .inl rfl, hrow'⟩

theorem isJsonSpace_of_mem {space : List Nat} (h : space = [] ∨ space = [10]) :
    ∀ b ∈ space, isJsonSpace b = true := by
  rcases h with rfl | rfl
  · exact isJsonSpace_of_mem_nil
  · exact isJsonSpace_of_mem_lineFeed

/-- Both readers read a log whose tail is whole. -/
theorem readLog_eq (hrecords : ∀ p ∈ records, IsRecord host p.1 p.2)
    (hlast : WholeTail host tail last) (hsize : (recordLog records tail).length ≤ maxFileBytes)
    (hrows : (physicalLines (recordLog records tail)).length ≤ maxRetainedRows)
    (skipBlank : Bool) :
    readLog host skipBlank (recordLog records tail) = .ok (records.map (·.1) ++ last) := by
  obtain ⟨pairs, hlines, hjoin, hpairs, hline⟩ := exists_pairs hrecords hlast
  rw [readLog, if_neg (by omega), hlines, ← hpairs]
  refine readRecords_eq (fun p hp => ?_) (by simpa [hlines] using hrows) (by simpa [hjoin] using hsize)
  obtain ⟨text, space, heq, hspace, hrecord⟩ := hline p hp
  rw [heq]
  exact ⟨hrecord.readRecord (isJsonSpace_of_mem hspace), hrecord.not_blank space⟩

/-- What the scan does at the line of a record. -/
theorem scanCommitted_cons {row expected : Obj} {text space : List Nat} {found : Bool}
    {lines : List (List Nat)} (hrow : IsRecord host row text) (hspace : space = [] ∨ space = [10])
    (hlength : (text ++ space).length ≤ maxFileBytes) :
    scanCommitted host expected found ((text ++ space) :: lines) =
      if !sameIdentity host row expected then scanCommitted host expected found lines
      else if sameRecord host row expected then scanCommitted host expected true lines
      else .error .conflict := by
  have hcontent : (if ((text ++ space).getLast? == some 10) = true then (text ++ space).dropLast
      else text ++ space) = text := by
    rcases hspace with rfl | rfl
    · have hlast : (text.getLast? == some 10) = false := by
        rw [beq_eq_false_iff_ne]
        intro hlast
        exact absurd (hrow.plain 10 (List.mem_of_getLast? hlast)) (by decide)
      simp [hlast]
    · simp
  have hblank : isBlankLine text = false := by simpa using hrow.not_blank []
  have hloads : loadsUtf8 host text = .ok (.dict row) := by
    simpa using hrow.loadsUtf8 isJsonSpace_of_mem_nil
  rw [scanCommitted]
  simp only [hcontent]
  rw [if_neg (by omega), hblank, hloads]
  simp

/-- A scan that gets past the lines of records found its record before, or at one of them. -/
theorem scanCommitted_append {pairs : List (Obj × List Nat)} {expected : Obj} {found : Bool}
    {rest : List (List Nat)} {result : Bool × Bool}
    (hline : ∀ p ∈ pairs, ∃ text space, p.2 = text ++ space ∧ (space = [] ∨ space = [10]) ∧
      IsRecord host p.1 text)
    (hlength : (pairs.flatMap (·.2)).length ≤ maxFileBytes)
    (h : scanCommitted host expected found (pairs.map (·.2) ++ rest) = .ok result) :
    ∃ found', scanCommitted host expected found' rest = .ok result ∧
      (found' = true → found = true ∨
        ∃ p ∈ pairs, (Json.dict p.1).pyEq (.dict expected) = true) := by
  induction pairs generalizing found with
  | nil => exact ⟨found, h, .inl⟩
  | cons p pairs ih =>
    obtain ⟨text, space, heq, hspace, hrow⟩ := hline p (by simp)
    rw [List.flatMap_cons, List.length_append] at hlength
    have hstep := fun found => @ih found (fun q hq => hline q (by simp [hq])) (by omega)
    rw [List.map_cons, List.cons_append, heq,
      scanCommitted_cons hrow hspace (by rw [← heq]; omega)] at h
    split at h
    · obtain ⟨found', hrest, hfound⟩ := hstep _ h
      exact ⟨found', hrest, fun h' => (hfound h').imp_right
        fun ⟨q, hq, hsame⟩ => ⟨q, by simp [hq], hsame⟩⟩
    · split at h
      · rename_i hsame
        obtain ⟨found', hrest, -⟩ := hstep _ h
        exact ⟨found', hrest, fun _ => .inr ⟨p, by simp, (Bool.and_eq_true_iff.mp hsame).2⟩⟩
      · cases h

/-- A record that conflicts with no row is scanned for without error. -/
theorem exists_scanCommitted {pairs : List (Obj × List Nat)} {expected : Obj} {found : Bool}
    (hline : ∀ p ∈ pairs, ∃ text space, p.2 = text ++ space ∧ (space = [] ∨ space = [10]) ∧
      IsRecord host p.1 text)
    (hlength : (pairs.flatMap (·.2)).length ≤ maxFileBytes)
    (hagrees : ∀ p ∈ pairs, sameIdentity host p.1 expected = true →
      sameRecord host p.1 expected = true) :
    ∃ found', scanCommitted host expected found (pairs.map (·.2)) = .ok (found', false) := by
  induction pairs generalizing found with
  | nil => exact ⟨found, rfl⟩
  | cons p pairs ih =>
    obtain ⟨text, space, heq, hspace, hrow⟩ := hline p (by simp)
    rw [List.flatMap_cons, List.length_append] at hlength
    have hstep := fun found => @ih found (fun q hq => hline q (by simp [hq])) (by omega)
      fun q hq => hagrees q (by simp [hq])
    rw [List.map_cons, heq, scanCommitted_cons hrow hspace (by rw [← heq]; omega)]
    split
    · exact hstep found
    · rename_i hidentity
      rw [if_pos (hagrees p (by simp) (by simpa using hidentity))]
      exact hstep true

theorem findCommittedIdentity_of_whole (hrecords : ∀ p ∈ records, IsRecord host p.1 p.2)
    (hlast : WholeTail host tail last) (hsize : (recordLog records tail).length ≤ maxFileBytes)
    {expected : Obj} {base : List Nat} {found : Bool}
    (h : findCommittedIdentity host (recordLog records tail) expected = .ok (base, found)) :
    base = recordLog records tail ∧ (found = true →
      ∃ row ∈ records.map (·.1) ++ last, (Json.dict row).pyEq (.dict expected) = true) := by
  obtain ⟨pairs, hlines, hjoin, hpairs, hline⟩ := exists_pairs hrecords hlast
  rw [findCommittedIdentity, if_neg (by omega), byteLines_recordLog hrecords hlast.plain, hlines] at h
  obtain ⟨⟨found', torn⟩, hscan, h⟩ := bind_eq_ok_iff.mp h
  rw [← List.append_nil (pairs.map (·.2))] at hscan
  obtain ⟨found'', hend, hfound⟩ := scanCommitted_append hline (by rw [hjoin]; omega) hscan
  cases hend
  cases h
  refine ⟨rfl, fun hfound' => ?_⟩
  obtain ⟨p, hp, hsame⟩ := (hfound hfound').resolve_left (by simp)
  exact ⟨p.1, hpairs ▸ List.mem_map_of_mem hp, hsame⟩

theorem findCommittedIdentity_of_torn (hrecords : ∀ p ∈ records, IsRecord host p.1 p.2)
    (htail : ∀ b ∈ tail, 32 ≤ b) (hne : tail ≠ [])
    (htorn : loadsUtf8 host tail = .error .jsonDecodeError)
    (hsize : (recordLog records tail).length ≤ maxFileBytes)
    {expected : Obj} {base : List Nat} {found : Bool}
    (h : findCommittedIdentity host (recordLog records tail) expected = .ok (base, found)) :
    base = recordLog records [] ∧ (found = true →
      ∃ row ∈ records.map (·.1), (Json.dict row).pyEq (.dict expected) = true) := by
  have hnil : WholeTail host [] [] := .inl ⟨rfl, rfl⟩
  obtain ⟨pairs, hlines, hjoin, hpairs, hline⟩ := exists_pairs hrecords hnil
  have hcut : physicalLines (recordLog records tail) = pairs.map (·.2) ++ [tail] := by
    rw [← hlines, physicalLines_recordLog hrecords htail, physicalLines_recordLog hrecords (by simp)]
    simp [hne]
  have hshort : (pairs.flatMap (·.2)).length ≤ maxFileBytes := by
    rw [hjoin]
    rw [recordLog, joinLines, List.length_append] at hsize ⊢
    simp only [List.length_nil]
    omega
  rw [findCommittedIdentity, if_neg (by omega), byteLines_recordLog hrecords htail, hcut] at h
  obtain ⟨⟨found', torn⟩, hscan, h⟩ := bind_eq_ok_iff.mp h
  obtain ⟨found'', hend, hfound⟩ := scanCommitted_append hline hshort hscan
  have hlast : (tail.getLast? == some 10) = false := by
    rw [beq_eq_false_iff_ne]
    intro hlast
    exact absurd (htail 10 (List.mem_of_getLast? hlast)) (by decide)
  rw [scanCommitted] at hend
  simp only [hlast, Bool.false_eq_true, if_false, htorn, List.isEmpty_nil, Bool.not_false,
    Bool.and_self, if_true] at hend
  split at hend
  · cases hend
  split at hend
  · cases hend
  cases hend
  cases h
  refine ⟨?_, fun hfound' => ?_⟩
  · rw [if_pos rfl, recordLog, terminatedPart_joinLines (not_mem_of_plain htail (by decide))]
    rfl
  · obtain ⟨p, hp, hsame⟩ := (hfound hfound').resolve_left (by simp)
    rw [List.append_nil] at hpairs
    exact ⟨p.1, hpairs ▸ List.mem_map_of_mem hp, hsame⟩

/-- The scan of a log with a whole tail raises only over a conflict. -/
theorem exists_findCommittedIdentity (hrecords : ∀ p ∈ records, IsRecord host p.1 p.2)
    (hlast : WholeTail host tail last) (hsize : (recordLog records tail).length ≤ maxFileBytes)
    {expected : Obj} (hagrees : ∀ row ∈ records.map (·.1) ++ last,
      sameIdentity host row expected = true → sameRecord host row expected = true) :
    ∃ found, findCommittedIdentity host (recordLog records tail) expected =
      .ok (recordLog records tail, found) := by
  obtain ⟨pairs, hlines, hjoin, hpairs, hline⟩ := exists_pairs hrecords hlast
  obtain ⟨found, hscan⟩ := @exists_scanCommitted host pairs expected false hline (by rw [hjoin]; omega)
    fun p hp => hagrees p.1 (hpairs ▸ List.mem_map_of_mem hp)
  refine ⟨found, ?_⟩
  rw [findCommittedIdentity, if_neg (by omega), byteLines_recordLog hrecords hlast.plain, hlines,
    hscan]
  rfl

/-- A record that is found among the lines of a log is one of its rows. -/
theorem scanExisting_eq_true {pairs : List (Obj × List Nat)} {row : Obj}
    (hline : ∀ p ∈ pairs, ∃ text space, p.2 = text ++ space ∧ (space = [] ∨ space = [10]) ∧
      IsRecord host p.1 text)
    (h : scanExisting host row (pairs.map (·.2)) = .ok true) :
    ∃ p ∈ pairs, (Json.dict p.1).pyEq (.dict row) = true := by
  induction pairs with
  | nil => cases h
  | cons p pairs ih =>
    obtain ⟨text, space, heq, hspace, hrow⟩ := hline p (by simp)
    have hkeep : lineContent text = text := by
      rw [lineContent, List.rdropWhile_eq_self_iff]
      intro hne
      have hlast := hrow.plain _ (List.getLast_mem hne)
      simp only [Bool.or_eq_true, beq_iff_eq]
      omega
    have hcontent : lineContent (text ++ space) = text := by
      rcases hspace with rfl | rfl
      · rw [List.append_nil, hkeep]
      · rw [lineContent, List.rdropWhile_concat_pos _ _ _ (by decide)]
        exact hkeep
    rw [List.map_cons, heq, scanExisting, hcontent, hrow.loadsBytes] at h
    have hrest : scanExisting host row (pairs.map (·.2)) = .ok true →
        ∃ q ∈ p :: pairs, (Json.dict q.1).pyEq (.dict row) = true := fun h => by
      obtain ⟨q, hq, hsame⟩ := ih (fun q hq => hline q (by simp [hq])) h
      exact ⟨q, by simp [hq], hsame⟩
    simp only at h
    split at h
    · split at h
      · rename_i hsame
        exact ⟨p, by simp, hsame⟩
      · cases h
    · exact hrest h

end Log

end OpenCollabEval
