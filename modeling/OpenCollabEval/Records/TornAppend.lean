import OpenCollabEval.Env
import OpenCollabEval.Python.JsonDocument
import OpenCollabEval.Records.LogReading

/-!
# Torn appends

A writer that is cut off leaves the start of its record as the tail of the log. The next writer has to
deal with it: `_append_jsonl_durable_once` cuts a torn tail off, the other two end its line, after
which no reader gets past it. As long as they find a tail that is a whole record, every record whose
append completed is read back in order.
-/

open Python

namespace OpenCollabEval

variable {host : LogHost}

/-- A tail is nothing, or the whole text of a record. -/
def TailIsWhole (host : LogHost) (tail : List Nat) : Prop := ∃ last, WholeTail host tail last

/-- A call finds room for one more row, and no torn tail that its writer would not cut off. -/
def CallMeets (s : LogState) (call : LogCall host) : Prop :=
  (physicalLines s.log).length < maxRetainedRows ∧
    (TailIsWhole host (lineTail s.log) ∨
      call.writer = .durableOnce ∧ loadsUtf8 host (lineTail s.log) = .error .jsonDecodeError)

/-- Every call of a run meets its condition. -/
def LogRunMeets (s : LogState) : List (LogCall host) → Prop
  | [] => True
  | call :: calls => CallMeets s call ∧ LogRunMeets (s.step call) calls

/-- The log is read as it was promised: both readers return every record whose append completed, in
order, and a scan raises only over a record that conflicts with a committed one. -/
structure LogReads (host : LogHost) (s : LogState) (rows : List Obj) : Prop where
  remote : readJsonlRemote host s.log = .ok rows
  eval : readJsonlEval host s.log = .ok rows
  written : s.written.Sublist rows
  present : ∀ row ∈ s.present, ∃ read ∈ rows, (Json.dict read).pyEq (.dict row) = true
  scanned : ∀ expected, (∀ row ∈ rows, sameIdentity host row expected = true →
      sameRecord host row expected = true) →
    ∃ found, findCommittedIdentity host s.log expected = .ok (s.log, found)

section Write

variable {records : List (Obj × List Nat)} {tail : List Nat} {last : List Obj}

theorem length_physicalLines (hrecords : ∀ p ∈ records, IsRecord host p.1 p.2)
    (htail : ∀ b ∈ tail, 32 ≤ b) :
    (physicalLines (recordLog records tail)).length =
      records.length + if tail = [] then 0 else 1 := by
  rw [physicalLines_recordLog hrecords htail]
  split <;> simp

/-- A line feed is missing exactly after a tail. -/
theorem separator_recordLog (htail : ∀ b ∈ tail, 32 ≤ b) :
    separator (recordLog records tail) = if tail = [] then [] else [10] := by
  unfold separator
  by_cases hne : tail = []
  · subst hne
    rcases List.eq_nil_or_concat records with rfl | ⟨others, p, rfl⟩ <;> simp [recordLog, joinLines]
  · obtain ⟨others, b, rfl⟩ := (List.eq_nil_or_concat tail).resolve_left hne
    have hb := htail b (by simp)
    have hfeed : b ≠ 10 := by omega
    have hlast : (recordLog records (others.concat b)).getLast? = some b := by
      simp [recordLog, joinLines, ← List.append_assoc]
    have hsome : (recordLog records (others.concat b)).isEmpty = false := by
      simp [recordLog, joinLines]
    rw [hlast, hsome]
    simp [hfeed]

/-- A log with the line of its tail ended. -/
theorem recordLog_ended (hlast : WholeTail host tail last) (rest : List Nat) :
    recordLog records tail ++ ((if tail = [] then [] else [10]) ++ rest) =
      recordLog (records ++ last.map fun row => (row, tail)) [] ++ rest := by
  rcases hlast with ⟨rfl, rfl⟩ | ⟨row, hrow, rfl⟩
  · simp
  · obtain ⟨others, rfl⟩ := hrow.eq_cons
    simp [recordLog, joinLines]

/-- The first bytes of a record after terminated records. -/
theorem exists_recordLog_take {row : Obj} {text : List Nat} (hrow : IsRecord host row text)
    (hrecords : ∀ p ∈ records, IsRecord host p.1 p.2) (cut : Nat) :
    ∃ records' tail', recordLog records [] ++ (text ++ [10]).take cut = recordLog records' tail' ∧
      (∀ p ∈ records', IsRecord host p.1 p.2) ∧ (∀ b ∈ tail', 32 ≤ b) ∧
      records <+: records' ∧
      records'.length + (if tail' = [] then 0 else 1) ≤ records.length + 1 := by
  by_cases hcut : cut ≤ text.length
  · refine ⟨records, text.take cut, ?_, hrecords, fun b hb => hrow.plain b (List.mem_of_mem_take hb),
      List.prefix_rfl, by split <;> omega⟩
    rw [List.take_append_of_le_length hcut]
    simp [recordLog, joinLines]
  · refine ⟨records ++ [(row, text)], [], ?_, ?_, by simp, List.prefix_append _ _, by simp⟩
    · rw [List.take_of_length_le (by simp; omega)]
      simp [recordLog, joinLines]
    · intro p hp
      rcases List.mem_append.mp hp with hp | hp
      · exact hrecords p hp
      · rw [List.mem_singleton.mp hp]
        exact hrow

end Write

/-- Some row is among those of a log: at a terminated line, or as the whole tail. -/
def HoldsRow (host : LogHost) (records : List (Obj × List Nat)) (tail : List Nat) (row : Obj) :
    Prop :=
  ∃ p : Obj × List Nat, IsRecord host p.1 p.2 ∧ (p ∈ records ∨ p.2 = tail) ∧
    (Json.dict p.1).pyEq (.dict row) = true

section Plan

variable {records : List (Obj × List Nat)} {tail tail₀ : List Nat} {last : List Obj}

/-- A row of a log with a whole tail. -/
theorem HoldsRow.of_mem (hrecords : ∀ p ∈ records, IsRecord host p.1 p.2)
    (hlast : WholeTail host tail last) {row : Obj}
    (h : ∃ read ∈ records.map (·.1) ++ last, (Json.dict read).pyEq (.dict row) = true) :
    HoldsRow host records tail row := by
  obtain ⟨read, hread, hsame⟩ := h
  rcases List.mem_append.mp hread with hread | hread
  · obtain ⟨p, hp, rfl⟩ := List.mem_map.mp hread
    exact ⟨p, hrecords p hp, .inl hp, hsame⟩
  · rcases hlast with ⟨-, rfl⟩ | ⟨row', hrow', rfl⟩
    · simp at hread
    · rw [List.mem_singleton.mp hread] at hsame
      exact ⟨(row', tail), hrow', .inr rfl, hsame⟩

/-- What a writer plans on a log that meets the condition of its call: it keeps the rows, and what it
writes is its record after a whole tail. -/
structure PlanHolds (host : LogHost) (records : List (Obj × List Nat)) (tail₀ : List Nat) (row : Obj)
    (plan : PlannedAppend) (tail : List Nat) : Prop where
  base : plan.base = recordLog records tail
  kept : tail = tail₀ ∨ tail = [] ∧ ∀ other, ¬IsRecord host other tail₀
  whole : ∀ bytes, plan.bytes = .ok bytes → TailIsWhole host tail
  present : plan.bytes = .ok none → HoldsRow host records tail row
  written : ∀ bytes, plan.bytes = .ok (some bytes) →
    ∃ text, IsRecord host row text ∧ bytes = separator plan.base ++ (text ++ [10]) ∧
      plan.base.length + bytes.length ≤ maxFileBytes

theorem boundedAppend_eq_ok {error : LogError} {log payload : List Nat} {bytes : Option (List Nat)}
    (h : boundedAppend error log payload = .ok bytes) :
    bytes = some (separator log ++ payload) ∧
      log.length + (separator log ++ payload).length ≤ maxFileBytes := by
  unfold boundedAppend at h
  split at h
  · cases h
  · cases h
    refine ⟨rfl, ?_⟩
    rw [List.length_append]
    omega

theorem recordPayload_eq_ok {error : LogError} {row : Obj} {payload : List Nat}
    (hreadable : (Json.dict row).Readable host.depth)
    (h : recordPayload host error row = .ok payload) :
    ∃ text, payload = text ++ [10] ∧ IsRecord host row text := by
  obtain ⟨encoded, hencoded, h⟩ := bind_eq_ok_iff.mp h
  split at h
  · cases h
  · cases h
    refine isRecord_of_encoded hreadable ?_
    cases hrow : encodeCandidateJsonl host row with
    | ok bytes => rw [hrow] at hencoded; cases hencoded; rfl
    | error e => rw [hrow] at hencoded; cases hencoded

/-- A record that is appended after a whole tail. -/
theorem PlanHolds.of_bounded {error error' : LogError} {row : Obj} {payload : List Nat}
    {plan : PlannedAppend} (hreadable : (Json.dict row).Readable host.depth)
    (hpayload : recordPayload host error row = .ok payload)
    (hbase : plan.base = recordLog records tail)
    (hkept : tail = tail₀ ∨ tail = [] ∧ ∀ other, ¬IsRecord host other tail₀)
    (hwhole : TailIsWhole host tail) (hplan : plan.bytes = boundedAppend error' plan.base payload) :
    PlanHolds host records tail₀ row plan tail where
  base := hbase
  kept := hkept
  whole _ _ := hwhole
  present h := by
    rw [hplan] at h
    cases (boundedAppend_eq_ok h).1
  written bytes h := by
    rw [hplan] at h
    obtain ⟨hbytes, hsize⟩ := boundedAppend_eq_ok h
    obtain ⟨text, rfl, hrow⟩ := recordPayload_eq_ok hreadable hpayload
    cases hbytes
    exact ⟨text, hrow, rfl, hsize⟩

/-- A writer that gives up leaves the log as it is. -/
theorem PlanHolds.of_error {row : Obj} {plan : PlannedAppend} {e : LogError}
    (hbase : plan.base = recordLog records tail₀) (hplan : plan.bytes = .error e) :
    PlanHolds host records tail₀ row plan tail₀ where
  base := hbase
  kept := .inl rfl
  whole _ h := by rw [hplan] at h; cases h
  present h := by rw [hplan] at h; cases h
  written _ h := by rw [hplan] at h; cases h

/-- A writer that finds its record leaves the rows as they are. -/
theorem PlanHolds.of_present {row : Obj} {plan : PlannedAppend}
    (hbase : plan.base = recordLog records tail)
    (hkept : tail = tail₀ ∨ tail = [] ∧ ∀ other, ¬IsRecord host other tail₀)
    (hwhole : TailIsWhole host tail) (hplan : plan.bytes = .ok none)
    (hrow : HoldsRow host records tail row) : PlanHolds host records tail₀ row plan tail where
  base := hbase
  kept := hkept
  whole _ _ := hwhole
  present _ := hrow
  written _ h := by rw [hplan] at h; cases h

variable {row : Obj}

theorem planHolds_jsonl (hreadable : (Json.dict row).Readable host.depth)
    (hwhole : TailIsWhole host tail₀) :
    PlanHolds host records tail₀ row (appendJsonl host (recordLog records tail₀) row) tail₀ := by
  cases hpayload : recordPayload host .inputLimit row with
  | error e =>
    refine .of_error (e := e) rfl ?_
    rw [appendJsonl, hpayload]
    rfl
  | ok payload =>
    have hplan : (appendJsonl host (recordLog records tail₀) row).bytes =
        boundedAppend .inputLimit (recordLog records tail₀) payload := by
      simp [appendJsonl, hpayload]
    exact .of_bounded hreadable hpayload rfl (.inl rfl) hwhole hplan

/-- A record that `_existing_output_record` finds is among the rows of the log. -/
theorem holdsRow_of_existing (hrecords : ∀ p ∈ records, IsRecord host p.1 p.2)
    (hsize : (recordLog records tail).length ≤ maxFileBytes) (hlast : WholeTail host tail last)
    (h : existingOutputRecord host (recordLog records tail) row = .ok true) :
    HoldsRow host records tail row := by
  obtain ⟨pairs, hlines, -, hpairs, hline⟩ := exists_pairs hrecords hlast
  unfold existingOutputRecord at h
  split at h
  · cases h
  rw [List.take_of_length_le (by omega), byteLines_recordLog hrecords hlast.plain, hlines] at h
  obtain ⟨p, hp, hsame⟩ := scanExisting_eq_true hline h
  exact .of_mem hrecords hlast ⟨p.1, hpairs ▸ List.mem_map_of_mem hp, hsame⟩

theorem planHolds_durable (hrecords : ∀ p ∈ records, IsRecord host p.1 p.2)
    (hsize : (recordLog records tail₀).length ≤ maxFileBytes)
    (hreadable : (Json.dict row).Readable host.depth) (hwhole : TailIsWhole host tail₀) :
    PlanHolds host records tail₀ row (appendJsonlDurable host (recordLog records tail₀) row)
      tail₀ := by
  cases hpayload : recordPayload host .outputLimit row with
  | error e => exact .of_error (e := e) rfl (by simp [appendJsonlDurable, hpayload])
  | ok payload =>
    cases hexisting : existingOutputRecord host (recordLog records tail₀) row with
    | error e =>
      exact .of_error (e := e) rfl (by simp [appendJsonlDurable, hpayload, hexisting])
    | ok found =>
      cases found with
      | true =>
        obtain ⟨last, hlast⟩ := hwhole
        exact .of_present rfl (.inl rfl) ⟨last, hlast⟩
          (by simp [appendJsonlDurable, hpayload, hexisting])
          (holdsRow_of_existing hrecords hsize hlast hexisting)
      | false =>
        have hplan : (appendJsonlDurable host (recordLog records tail₀) row).bytes =
            boundedAppend .outputLimit (recordLog records tail₀) payload := by
          simp [appendJsonlDurable, hpayload, hexisting]
        exact .of_bounded hreadable hpayload rfl (.inl rfl) hwhole hplan

theorem planHolds_durableOnce (hrecords : ∀ p ∈ records, IsRecord host p.1 p.2)
    (htail : ∀ b ∈ tail₀, 32 ≤ b) (hsize : (recordLog records tail₀).length ≤ maxFileBytes)
    (hreadable : (Json.dict row).Readable host.depth)
    (hmeets : TailIsWhole host tail₀ ∨ loadsUtf8 host tail₀ = .error .jsonDecodeError) :
    ∃ tail, PlanHolds host records tail₀ row
      (appendJsonlDurableOnce host (recordLog records tail₀) row) tail := by
  unfold appendJsonlDurableOnce
  cases hpayload : recordPayload host .outputLimit row with
  | error e => exact ⟨tail₀, .of_error (e := e) rfl rfl⟩
  | ok payload =>
    cases hscan : findCommittedIdentity host (recordLog records tail₀) row with
    | error e => exact ⟨tail₀, .of_error (e := e) rfl rfl⟩
    | ok result =>
      obtain ⟨base, found⟩ := result
      -- the tail that is left is whole: the one that was there, or none
      obtain ⟨tail, last, hbase, hkept, hlast, hfound⟩ : ∃ tail last,
          base = recordLog records tail ∧
          (tail = tail₀ ∨ tail = [] ∧ ∀ other, ¬IsRecord host other tail₀) ∧
          WholeTail host tail last ∧ (found = true → ∃ read ∈ records.map (·.1) ++ last,
            (Json.dict read).pyEq (.dict row) = true) := by
        by_cases hwhole : TailIsWhole host tail₀
        · obtain ⟨last, hlast⟩ := hwhole
          obtain ⟨hbase, hfound⟩ := findCommittedIdentity_of_whole hrecords hlast hsize hscan
          exact ⟨tail₀, last, hbase, .inl rfl, hlast, hfound⟩
        · have htorn := hmeets.resolve_left hwhole
          have hne : tail₀ ≠ [] := fun hnil => hwhole ⟨[], .inl ⟨hnil, rfl⟩⟩
          obtain ⟨hbase, hfound⟩ :=
            findCommittedIdentity_of_torn hrecords htail hne htorn hsize hscan
          refine ⟨[], [], hbase, .inr ⟨rfl, fun other hother => ?_⟩, .inl ⟨rfl, rfl⟩,
            by simpa using hfound⟩
          exact hwhole ⟨[other], .inr ⟨other, hother, rfl⟩⟩
      refine ⟨tail, ?_⟩
      cases hfound' : found with
      | true =>
        exact .of_present hbase hkept ⟨last, hlast⟩ rfl (.of_mem hrecords hlast (hfound hfound'))
      | false =>
        have hplan : (if false = true then (.ok none : Except LogError (Option (List Nat)))
            else boundedAppend .outputLimit base payload) =
              boundedAppend .outputLimit base payload := rfl
        exact .of_bounded hreadable hpayload hbase hkept ⟨last, hlast⟩ hplan

end Plan

/-- What is known of a log and its reports: it holds records and a tail without control characters,
with every record that was reported, within its bounds, and after a completed append the tail is
whole. -/
structure LogHolds (host : LogHost) (s : LogState) (records : List (Obj × List Nat))
    (tail : List Nat) : Prop where
  log : s.log = recordLog records tail
  texts : ∀ p ∈ records, IsRecord host p.1 p.2
  plain : ∀ b ∈ tail, 32 ≤ b
  size : s.log.length ≤ maxFileBytes
  rows : records.length + (if tail = [] then 0 else 1) ≤ maxRetainedRows
  written : s.written.Sublist (records.map (·.1))
  present : ∀ row ∈ s.present, HoldsRow host records tail row
  whole : s.completed = true → TailIsWhole host tail

theorem logHolds_init : LogHolds host LogState.init [] [] where
  log := rfl
  texts := by simp
  plain := by simp
  size := by simp [LogState.init, maxFileBytes]
  rows := by simp [maxRetainedRows]
  written := List.Sublist.refl _
  present := by simp [LogState.init]
  whole h := by cases h

section Step

variable {records : List (Obj × List Nat)} {tail : List Nat} {s : LogState} {call : LogCall host}

/-- The plan of a call that meets its condition. -/
theorem LogHolds.plan (h : LogHolds host s records tail) (hmeets : CallMeets s call) :
    ∃ tail', PlanHolds host records tail call.row (call.writer.plan host s.log call.row) tail' := by
  have htail : lineTail s.log = tail := by
    rw [h.log, recordLog, lineTail_joinLines (not_mem_of_plain h.plain (by decide))]
  have hsize := h.size
  obtain ⟨-, hwhole⟩ := hmeets
  rw [htail] at hwhole
  rw [h.log] at hsize ⊢
  cases hwriter : call.writer with
  | jsonl =>
    exact ⟨tail, planHolds_jsonl call.readable (hwhole.resolve_right (by simp [hwriter]))⟩
  | durable =>
    exact ⟨tail, planHolds_durable h.texts hsize call.readable
      (hwhole.resolve_right (by simp [hwriter]))⟩
  | durableOnce =>
    exact planHolds_durableOnce h.texts h.plain hsize call.readable (hwhole.imp_right And.right)

/-- A row stays when the records grow and the tail is kept or ended. -/
theorem HoldsRow.mono {records' : List (Obj × List Nat)} {tail' : List Nat} {row : Obj}
    (h : HoldsRow host records tail row) (hrecords : ∀ p ∈ records, p ∈ records')
    (htail : ∀ p : Obj × List Nat, IsRecord host p.1 p.2 → p.2 = tail → p ∈ records' ∨ p.2 = tail') :
    HoldsRow host records' tail' row := by
  obtain ⟨p, hp, hplace, hsame⟩ := h
  exact ⟨p, hp, hplace.elim (fun hmem => .inl (hrecords p hmem)) (htail p hp), hsame⟩

/-- What a call starts to write from: the log, or the log without its torn tail. -/
theorem LogHolds.base {tail' : List Nat} {plan : PlannedAppend} {row : Obj}
    (h : LogHolds host s records tail) (hplan : PlanHolds host records tail row plan tail') :
    LogHolds host { s with log := plan.base, completed := false } records tail' := by
  have hshort : (recordLog records tail').length ≤ (recordLog records tail).length ∧
      (if tail' = [] then 0 else 1) ≤ if tail = [] then 0 else 1 := by
    rcases hplan.kept with rfl | ⟨rfl, -⟩
    · exact ⟨le_rfl, le_rfl⟩
    · simp [recordLog, joinLines]
  have hsize := h.size
  have hrows := h.rows
  rw [h.log] at hsize
  refine ⟨hplan.base, h.texts, ?_, ?_, by omega, h.written, fun other hother => ?_, by simp⟩
  · rcases hplan.kept with rfl | ⟨rfl, -⟩
    · exact h.plain
    · simp
  · show plan.base.length ≤ maxFileBytes
    rw [hplan.base]
    omega
  · refine (h.present other hother).mono (fun p hp => hp) fun p hp htail => ?_
    rcases hplan.kept with rfl | ⟨-, hnone⟩
    · exact .inr htail
    · exact absurd (htail ▸ hp) (hnone p.1)

/-- A log whose tail has been ended as a line of its own. -/
theorem LogHolds.ended {last : List Obj} (h : LogHolds host s records tail)
    (hlast : WholeTail host tail last) :
    (∀ p ∈ records ++ last.map fun row => (row, tail), IsRecord host p.1 p.2) ∧
      (records ++ last.map fun row => (row, tail)).length =
        records.length + (if tail = [] then 0 else 1) ∧
      ∀ p : Obj × List Nat, IsRecord host p.1 p.2 → p.2 = tail →
        p ∈ records ++ last.map fun row => (row, tail) := by
  rcases hlast with ⟨rfl, rfl⟩ | ⟨row, hrow, rfl⟩
  · refine ⟨by simpa using h.texts, by simp, fun p hp hnil => ?_⟩
    obtain ⟨rest, hcons⟩ := hp.eq_cons
    simp [hnil] at hcons
  · obtain ⟨rest, hcons⟩ := hrow.eq_cons
    refine ⟨fun p hp => ?_, by simp [hcons], fun p hp htail => ?_⟩
    · rcases List.mem_append.mp hp with hp | hp
      · exact h.texts p hp
      · simp only [List.map_cons, List.map_nil, List.mem_singleton] at hp
        rw [hp]
        exact hrow
    · obtain ⟨read, text⟩ := p
      simp only at htail hp
      subst htail
      simp [hrow.eq hp]

/-- What holds of a log that has grown from one with a whole tail. -/
theorem LogHolds.grow {last : List Obj} (h : LogHolds host s records tail)
    (hlast : WholeTail host tail last) {s' : LogState} {records' : List (Obj × List Nat)}
    {tail' : List Nat} (hgrown : (records ++ last.map fun row => (row, tail)) <+: records')
    (hlog : s'.log = recordLog records' tail') (htexts : ∀ p ∈ records', IsRecord host p.1 p.2)
    (hplain : ∀ b ∈ tail', 32 ≤ b) (hsize : s'.log.length ≤ maxFileBytes)
    (hrows : records'.length + (if tail' = [] then 0 else 1) ≤ maxRetainedRows)
    (hwritten : s'.written.Sublist (records'.map (·.1))) (hpresent : s'.present = s.present)
    (hwhole : s'.completed = true → TailIsWhole host tail') :
    LogHolds host s' records' tail' := by
  refine ⟨hlog, htexts, hplain, hsize, hrows, hwritten, fun row hrow => ?_, hwhole⟩
  rw [hpresent] at hrow
  refine (h.present row hrow).mono (fun p hp => hgrown.subset (by simp [hp])) fun p hp htail => ?_
  exact .inl (hgrown.subset ((h.ended hlast).2.2 p hp htail))

/-- A record that is written after a whole tail, as far as its writer gets. -/
theorem LogHolds.write {last : List Obj} {row : Obj} {text : List Nat}
    (h : LogHolds host s records tail) (hlast : WholeTail host tail last)
    (hrow : IsRecord host row text)
    (hsize : s.log.length + (separator s.log ++ (text ++ [10])).length ≤ maxFileBytes)
    (hroom : records.length + (if tail = [] then 0 else 1) < maxRetainedRows) (cut : Nat) :
    ∃ records' tail', LogHolds host
      { s with
        log := s.log ++ (separator s.log ++ (text ++ [10])).take cut
        completed := false } records' tail' := by
  obtain ⟨htexts, hlength, -⟩ := h.ended hlast
  have hshort : (s.log ++ (separator s.log ++ (text ++ [10])).take cut).length ≤ maxFileBytes := by
    have htake := (List.take_sublist cut (separator s.log ++ (text ++ [10]))).length_le
    rw [List.length_append]
    omega
  -- after the separator, the bytes are those of the record
  have hbytes : (∃ k, s.log ++ (separator s.log ++ (text ++ [10])).take cut =
        recordLog (records ++ last.map fun row => (row, tail)) [] ++ (text ++ [10]).take k) ∨
      s.log ++ (separator s.log ++ (text ++ [10])).take cut = s.log := by
    rw [h.log, separator_recordLog h.plain]
    by_cases hnil : tail = []
    · refine .inl ⟨cut, ?_⟩
      rw [← recordLog_ended hlast, if_pos hnil]
      rfl
    · cases cut with
      | zero => exact .inr (by simp)
      | succ k =>
        refine .inl ⟨k, ?_⟩
        rw [← recordLog_ended hlast, if_neg hnil]
        rfl
  rcases hbytes with ⟨k, hbytes⟩ | hbytes
  · obtain ⟨records', tail', hlog, htexts', hplain', hprefix, hrows⟩ :=
      exists_recordLog_take hrow htexts k
    refine ⟨records', tail', h.grow hlast hprefix (hbytes.trans hlog) htexts' hplain' hshort
      (by omega) ?_ rfl (by simp)⟩
    refine h.written.trans ((List.Sublist.map _ ?_))
    exact ((List.prefix_append _ _).trans hprefix).sublist
  · refine ⟨records, tail, ?_⟩
    rw [hbytes]
    exact ⟨h.log, h.texts, h.plain, h.size, h.rows, h.written, h.present, by simp⟩

/-- A record that is written to its end. -/
theorem LogHolds.append {last : List Obj} {row : Obj} {text : List Nat}
    (h : LogHolds host s records tail) (hlast : WholeTail host tail last)
    (hrow : IsRecord host row text)
    (hsize : s.log.length + (separator s.log ++ (text ++ [10])).length ≤ maxFileBytes)
    (hroom : records.length + (if tail = [] then 0 else 1) < maxRetainedRows) :
    ∃ records' tail', LogHolds host
      { s with
        log := s.log ++ (separator s.log ++ (text ++ [10]))
        written := s.written ++ [row]
        completed := true } records' tail' := by
  obtain ⟨htexts, hlength, -⟩ := h.ended hlast
  refine ⟨(records ++ last.map fun row => (row, tail)) ++ [(row, text)], [],
    h.grow hlast (List.prefix_append _ _) ?_ (fun p hp => ?_) (by simp) ?_ ?_ ?_ rfl
      fun _ => ⟨[], .inl ⟨rfl, rfl⟩⟩⟩
  · show s.log ++ (separator s.log ++ (text ++ [10])) = _
    rw [h.log, separator_recordLog h.plain, recordLog_ended hlast]
    simp [recordLog, joinLines]
  · rcases List.mem_append.mp hp with hp | hp
    · exact htexts p hp
    · rw [List.mem_singleton.mp hp]
      exact hrow
  · show (s.log ++ (separator s.log ++ (text ++ [10]))).length ≤ maxFileBytes
    rw [List.length_append]
    exact hsize
  · rw [List.length_append, hlength]
    simp only [List.length_singleton, if_true]
    omega
  · show (s.written ++ [row]).Sublist _
    rw [List.map_append]
    refine List.Sublist.append ?_ (List.Sublist.refl _)
    rw [List.map_append]
    exact h.written.trans (List.sublist_append_left _ _)

/-- A call that meets its condition keeps what is known of the log. -/
theorem LogHolds.step (h : LogHolds host s records tail) (hmeets : CallMeets s call) :
    ∃ records' tail', LogHolds host (s.step call) records' tail' := by
  obtain ⟨tail', hplan⟩ := h.plan hmeets
  have hbase := h.base hplan
  have hroom : records.length + (if tail' = [] then 0 else 1) < maxRetainedRows := by
    have hrows := hmeets.1
    rw [h.log, length_physicalLines h.texts h.plain] at hrows
    rcases hplan.kept with rfl | ⟨rfl, -⟩
    · exact hrows
    · rw [if_pos rfl]
      omega
  unfold LogState.step
  simp only
  split
  · exact ⟨records, tail', hbase⟩
  · exact ⟨records, tail', hbase⟩
  · rename_i hbytes _
    refine ⟨records, tail', ⟨hbase.log, hbase.texts, hbase.plain, hbase.size, hbase.rows,
      hbase.written, fun row hrow => ?_, fun _ => hplan.whole _ hbytes⟩⟩
    rcases List.mem_append.mp hrow with hrow | hrow
    · exact hbase.present row hrow
    · rw [List.mem_singleton.mp hrow]
      exact hplan.present hbytes
  · rename_i bytes cut hbytes _
    obtain ⟨last, hlast⟩ := hplan.whole _ hbytes
    obtain ⟨text, hrow, rfl, hsize⟩ := hplan.written bytes hbytes
    exact hbase.write hlast hrow hsize hroom cut
  · rename_i bytes hbytes _
    obtain ⟨last, hlast⟩ := hplan.whole _ hbytes
    obtain ⟨text, hrow, rfl, hsize⟩ := hplan.written bytes hbytes
    exact hbase.append hlast hrow hsize hroom

/-- A run whose calls meet their conditions keeps what is known of the log. -/
theorem LogHolds.run {calls : List (LogCall host)} (h : LogHolds host s records tail)
    (hmeets : LogRunMeets s calls) :
    ∃ records' tail', LogHolds host (s.run calls) records' tail' := by
  induction calls generalizing s records tail with
  | nil => exact ⟨records, tail, h⟩
  | cons call calls ih =>
    obtain ⟨records', tail', hstep⟩ := h.step hmeets.1
    exact ih hstep hmeets.2

/-- A log with a whole tail is read as it was promised. -/
theorem LogHolds.reads (h : LogHolds host s records tail) (hcompleted : s.completed = true) :
    ∃ rows, LogReads host s rows := by
  obtain ⟨last, hlast⟩ := h.whole hcompleted
  have hsize := h.size
  rw [h.log] at hsize
  have hrows := length_physicalLines h.texts h.plain
  have hlog := readLog_eq h.texts hlast hsize (hrows ▸ h.rows)
  refine ⟨records.map (·.1) ++ last, ?_, ?_, ?_, fun row hrow => ?_, fun expected hagrees => ?_⟩
  · rw [h.log]
    exact hlog false
  · rw [h.log]
    exact hlog true
  · exact h.written.trans (List.sublist_append_left _ _)
  · obtain ⟨p, hp, hplace, hsame⟩ := h.present row hrow
    rcases hplace with hmem | htail
    · exact ⟨p.1, List.mem_append_left _ (List.mem_map_of_mem hmem), hsame⟩
    · rcases hlast with ⟨rfl, -⟩ | ⟨read, hread, rfl⟩
      · obtain ⟨rest, hcons⟩ := hp.eq_cons
        simp [htail] at hcons
      · obtain ⟨row', text⟩ := p
        simp only at htail hp hsame
        subst htail
        exact ⟨row', by simp [hread.eq hp], hsame⟩
  · rw [h.log]
    exact exists_findCommittedIdentity h.texts hlast hsize hagrees

end Step

/-- A torn append loses at most its own record: in every run whose calls find room and no torn tail
that they would not cut off, after a completed append both readers return every record whose append
completed, in order, and the log is scanned without error. -/
theorem torn_append_loses_own_record {calls : List (LogCall host)}
    (hmeets : LogRunMeets LogState.init calls)
    (hcompleted : (LogState.init.run calls).completed = true) :
    ∃ rows, LogReads host (LogState.init.run calls) rows := by
  obtain ⟨records, tail, h⟩ := logHolds_init.run hmeets
  exact h.reads hcompleted

/-- A host on which nothing is printed and no wide encoding is met. -/
def asciiLogHost : LogHost where
  toRuntime := asciiEnv.toRuntime
  depth := 10
  patchBytes := 100
  decodeWide _ _ := none

/-- A row with one key, which names its record. -/
theorem readable_record (id : Str) (hid : ∀ c ∈ id, c < 128) :
    (Json.dict (Obj.of [("record_id", .str id)])).Readable asciiLogHost.depth := by
  refine .dict 9 _ (by simp) ?_ ?_
  · simp only [Obj.of_cons, Obj.of_nil, List.mem_singleton, forall_eq]
    exact Str.readable_of_small (by decide)
  · simp only [Obj.of_cons, Obj.of_nil, List.mem_singleton, forall_eq]
    exact .str 9 id (Str.readable_of_small hid)

/-- A call with a row of one key. -/
def recordCall (writer : LogWriter) (id : String) (cut : Option Nat)
    (hid : ∀ c ∈ lit id, c < 128) : LogCall asciiLogHost where
  writer
  row := Obj.of [("record_id", .str (lit id))]
  readable := readable_record (lit id) hid
  cut

/-- An append that is cut off in its record, between two that complete. -/
def tornCalls (writer : LogWriter) : List (LogCall asciiLogHost) :=
  [recordCall .jsonl "a" none (by decide), recordCall .jsonl "b" (some 14) (by decide),
    recordCall writer "c" none (by decide)]

/-- What a call raises. -/
def raisedBy {ε α : Type} : Except ε α → Option ε
  | .ok _ => none
  | .error e => some e

theorem eq_error_of_raisedBy {ε α : Type} {x : Except ε α} {e : ε} (h : raisedBy x = some e) :
    x = .error e := by
  cases x with
  | ok a => cases h
  | error e' => cases h; rfl

/-- After a torn append, `append_jsonl` ends the line of the torn record and completes: neither reader
gets past that line, and a scan raises over it. -/
theorem torn_line_stops_readers :
    (LogState.init.run (tornCalls .jsonl)).completed = true ∧
      raisedBy (readJsonlRemote asciiLogHost (LogState.init.run (tornCalls .jsonl)).log) =
        some .inputFormat ∧
      raisedBy (readJsonlEval asciiLogHost (LogState.init.run (tornCalls .jsonl)).log) =
        some .inputFormat ∧
      raisedBy (findCommittedIdentity asciiLogHost (LogState.init.run (tornCalls .jsonl)).log
        (Obj.of [("record_id", "d")])) = some .malformed := by
  decide +kernel

/-- `_append_jsonl_durable_once` cuts the torn record off, and the other two are read. -/
theorem torn_append_loses_own_record_once :
    ∃ rows, LogReads asciiLogHost (LogState.init.run (tornCalls .durableOnce)) rows := by
  have hwhole : TailIsWhole asciiLogHost [] := ⟨[], .inl ⟨rfl, rfl⟩⟩
  refine torn_append_loses_own_record ⟨⟨by decide, .inl hwhole⟩, ⟨by decide +kernel, .inl ?_⟩,
    ⟨by decide +kernel, .inr ⟨rfl, eq_error_of_raisedBy (by decide +kernel)⟩⟩, trivial⟩
    (by decide +kernel)
  have htail : lineTail (LogState.init.step (tornCalls .durableOnce)[0]).log = [] := by
    decide +kernel
  exact htail ▸ hwhole

end OpenCollabEval
