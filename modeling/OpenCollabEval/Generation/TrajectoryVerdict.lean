import OpenCollabEval.Generation.TrajectoryIdentity
import OpenCollabEval.Python.JsonCut
import OpenCollabEval.Python.JsonUnescaped

/-!
# Which trajectories are verified

A log is written one record a line. The lines are cut a second time where `splitlines` ends a line, which
some code points that may stand inside a JSON string do as well; a record that is cut is not read any
more. Apart from that, and from policies that a set cannot look up, the verification accepts the
conforming logs and rejects the others as it should.
-/

open Python

namespace OpenCollabEval.Trajectory

section Records

variable {depth : Nat}

/-- A record as it is logged: a JSON text without control characters, on a line of at most 16 MiB. -/
structure LoggedRecord (depth : Nat) where
  record : Json
  text : Str
  reads : loads depth text = .ok record
  decoded : ∀ c ∈ text, c ≤ 0x10FFFF ∧ Str.isSurrogate c = false
  printable : ∀ c ∈ text, 32 ≤ c
  short : text.encodeSurrogatePass.length < maxRecordBytes

/-- The line of a record in the file. -/
def LoggedRecord.rawLine (logged : LoggedRecord depth) : List Nat :=
  logged.text.encodeSurrogatePass ++ [10]

/-- The file of some records. -/
def logBytes (records : List (LoggedRecord depth)) : List Nat := records.flatMap LoggedRecord.rawLine

/-- A file under the artifact root that does not change while it is read. -/
structure LogFile.Holds (file : LogFile) (bytes : List Nat) : Prop where
  content : file.content = some bytes
  size : file.before.size = bytes.length
  unchanged : file.before = file.after
  inside : ∃ resolved root, file.resolved = some resolved ∧ file.artifactRoot = some root ∧
    (resolved == root || resolved.below root) = true

/-- The payload of a record of a model call. -/
def callPayload (record : Json) : Option Json :=
  match record.asDict with
  | some entries =>
    if (entries.get "type").eqStr "llm_call" then some (entries.get "payload") else none
  | none => none

variable (expected : Expected)

/-- A call over the Responses protocol to the expected model. -/
def OwnModel (payload : Obj) : Prop :=
  payload.get "wire_protocol" = .str "responses" ∧
    payload.get "provider_model" = .str expected.model

/-- The effort of a call is the one that its policy asks for. -/
def MatchingEffort (payload : Obj) : Prop :=
  payload.get "reasoning_effort_policy" = .str "configured" ∧
      payload.get "reasoning_effort" = expected.reasoningEffort.elim .null .str ∨
    payload.get "reasoning_effort_policy" = .str "suppressed" ∧
      payload.get "reasoning_effort" = .null

/-- A record that is no model call, or one as the configuration asks for. -/
def ConformingRecord (record : Json) : Prop :=
  ∀ value, callPayload record = some value →
    ∃ payload, value = .dict payload ∧ OwnModel expected payload ∧ MatchingEffort expected payload

/-- A log with a model call, all of whose model calls are as the configuration asks for. -/
structure ConformingLog (records : List (LoggedRecord depth)) : Prop where
  some_call : ∃ logged ∈ records, (callPayload logged.record).isSome
  every_call : ∀ logged ∈ records, ConformingRecord expected logged.record

/-- A call to the expected model with a policy that a set cannot look up. -/
def UnhashablePolicy (record : Json) : Prop :=
  ∃ payload, callPayload record = some (.dict payload) ∧ OwnModel expected payload ∧
    (Obj.get payload "reasoning_effort_policy").hashable = false

/-- `splitlines` leaves the line of the record whole. -/
def LoggedRecord.Whole (logged : LoggedRecord depth) : Prop :=
  ∀ c ∈ logged.text, Str.isLineEnd c = false

/-- The verification gets past the record. -/
def Passed (logged : LoggedRecord depth) : Prop :=
  logged.Whole ∧ ConformingRecord expected logged.record

end Records

section Lines

/-- A whole text with its line feed is one line. -/
theorem splitlines_whole {s : Str} (h : ∀ c ∈ s, Str.isLineEnd c = false) :
    Str.splitlines (s ++ [10]) = [s] := by
  rw [Str.splitlines, Str.linesFrom_append h (by decide)]
  rfl

/-- The first line of a text that is not whole. -/
theorem exists_splitlines {s : Str} (h : ¬∀ c ∈ s, Str.isLineEnd c = false) :
    ∃ before c after lines, s = before ++ c :: after ∧ Str.isLineEnd c = true ∧
      Str.splitlines (s ++ [10]) = before :: lines := by
  obtain ⟨c, hc⟩ : ∃ c, s.find? Str.isLineEnd = some c := by
    rw [← Option.isSome_iff_exists, List.find?_isSome]
    simpa using h
  obtain ⟨hend, before, after, rfl, hbefore⟩ := List.find?_eq_some_iff_append.mp hc
  have hlines := Str.linesFrom_append (fun d hd => by simpa using hbefore d hd) hend [] (after ++ [10])
  rw [← List.cons_append, ← List.append_assoc] at hlines
  exact ⟨before, c, after, _, rfl, hend, hlines⟩

end Lines

section OneRecord

variable {depth : Nat} {rt : Runtime} {expected : Expected} {models : List Str}

theorem LoggedRecord.lineFeed_not_mem (logged : LoggedRecord depth) :
    10 ∉ logged.text.encodeSurrogatePass := by
  intro hmem
  obtain ⟨c, hc, hb⟩ := List.mem_flatMap.mp hmem
  have hprintable := logged.printable c hc
  unfold Str.utf8Char at hb
  split_ifs at hb <;> simp only [List.mem_cons, List.not_mem_nil, or_false] at hb <;> omega

theorem LoggedRecord.decode_rawLine (logged : LoggedRecord depth) :
    Str.decodeUtf8 false logged.rawLine = some (logged.text ++ [10]) := by
  have hbytes : logged.rawLine = Str.encodeSurrogatePass (logged.text ++ [10]) := by
    rw [rawLine, Str.encodeSurrogatePass, Str.encodeSurrogatePass, List.flatMap_append]
    rfl
  rw [hbytes]
  refine Str.decodeUtf8_encode fun c hc => ?_
  rcases List.mem_append.mp hc with hc | hc
  · exact logged.decoded c hc
  · rw [List.mem_singleton.mp hc]
    decide

/-- A line of the file is checked line by line. -/
theorem checkRawLine_rawLine (logged : LoggedRecord depth) :
    checkRawLine rt expected depth models logged.rawLine =
      (logged.text ++ [10]).splitlines.foldlM (checkLine rt expected depth) models := by
  have hshort : ¬maxRecordBytes < logged.rawLine.length := by
    have hlength := logged.short
    rw [LoggedRecord.rawLine, List.length_append, List.length_singleton]
    omega
  rw [checkRawLine, if_neg hshort, logged.decode_rawLine]

/-- A record whose line is whole is checked as it is. -/
theorem checkRawLine_whole {logged : LoggedRecord depth} (h : logged.Whole) :
    checkRawLine rt expected depth models logged.rawLine =
      checkRecord rt expected models logged.record := by
  rw [checkRawLine_rawLine, splitlines_whole h]
  simp only [List.foldlM_cons, List.foldlM_nil, checkLine, logged.reads]
  cases checkRecord rt expected models logged.record <;> rfl

/-- A record whose line is cut is not read. -/
theorem checkRawLine_cut {logged : LoggedRecord depth} (h : ¬logged.Whole) :
    checkRawLine rt expected depth models logged.rawLine =
      .error (.runtimeError "Responses trajectory contains invalid JSON") := by
  obtain ⟨before, c, after, lines, htext, hend, hlines⟩ := exists_splitlines h
  have hprintable := logged.printable c (by rw [htext]; simp)
  have houtside : 128 ≤ c := by
    simp only [Str.isLineEnd, Bool.or_eq_true, Bool.and_eq_true, decide_eq_true_iff,
      beq_iff_eq] at hend
    omega
  have hbroken : loads depth before = .error .jsonDecodeError :=
    loads_cut houtside (htext ▸ logged.reads)
  rw [checkRawLine_rawLine, hlines, List.foldlM_cons, checkLine, hbroken]
  rfl

/-- What the check of a record that is no model call gives. -/
theorem checkRecord_of_none {record : Json} (h : callPayload record = none) :
    checkRecord rt expected models record = .ok models := by
  rw [callPayload] at h
  rw [checkRecord]
  split at h
  · split_ifs at h
    next hentries hcall => simp only [hentries, hcall]; rfl
  · next hentries => rw [hentries]; rfl

/-- A model call is checked by its payload. -/
theorem checkRecord_of_some {record value : Json} (h : callPayload record = some value) :
    checkRecord rt expected models record =
      match value.asDict with
      | none => .error (.runtimeError "Responses llm_call is missing its payload")
      | some payload => (checkPayload rt expected payload).map models.insert := by
  rw [callPayload] at h
  rw [checkRecord]
  split at h
  · split_ifs at h
    next entries hentries hcall =>
      obtain rfl := Option.some.inj h
      simp only [hentries, hcall, Bool.not_true, Bool.false_eq_true, if_false]
      cases (entries.get "payload").asDict with
      | none => rfl
      | some payload => cases checkPayload rt expected payload <;> rfl
  · cases h

theorem effortIs_iff (observed : Json) (effort : Option Str) :
    effortIs observed effort = true ↔ observed = effort.elim .null .str := by
  cases effort with
  | none => cases observed <;> simp [effortIs]
  | some text => exact Json.eqStr_iff observed text

/-- The check of a call that is not to the expected model. -/
theorem checkPayload_of_not_own {payload : Obj} (h : ¬OwnModel expected payload) :
    ∃ message, checkPayload rt expected payload = .error (.runtimeError message) := by
  by_cases hwire : (payload.get "wire_protocol").eqStr "responses" = true
  · have hmodel : (payload.get "provider_model").eqStr expected.model = false := by
      rw [← Bool.not_eq_true, Json.eqStr_iff]
      exact fun hmodel => h ⟨(Json.eqStr_iff ..).mp hwire, hmodel⟩
    simp [checkPayload, hwire, hmodel]
  · simp [checkPayload, hwire]

/-- The check of a call to the expected model is the check of its effort. -/
theorem checkPayload_of_own {payload : Obj} (h : OwnModel expected payload) :
    checkPayload rt expected payload = checkEffort rt expected payload := by
  simp [checkPayload, (Json.eqStr_iff ..).mpr h.1, (Json.eqStr_iff ..).mpr h.2]

theorem checkPayload_ok {payload : Obj} (hmodel : OwnModel expected payload)
    (heffort : MatchingEffort expected payload) :
    checkPayload rt expected payload = .ok expected.model := by
  rw [checkPayload_of_own hmodel, checkEffort]
  rcases heffort with ⟨hpolicy, heffort⟩ | ⟨hpolicy, heffort⟩
  · have hset : (Json.str "configured").inStrSet (lits ["configured", "suppressed"]) = .ok true := by
      decide
    have hother : (Json.str "configured").eqStr "suppressed" = false := by decide
    rw [hpolicy, hset]
    simp [hother, (effortIs_iff ..).mpr heffort]
  · have hset : (Json.str "suppressed").inStrSet (lits ["configured", "suppressed"]) = .ok true := by
      decide
    have hsame : (Json.str "suppressed").eqStr "suppressed" = true := by decide
    rw [hpolicy, hset]
    simp [hsame, heffort, effortIs]

/-- A policy that a set cannot look up is not reported as a `RuntimeError`. -/
theorem checkPayload_unhashable {payload : Obj} (hmodel : OwnModel expected payload)
    (hpolicy : (Obj.get payload "reasoning_effort_policy").hashable = false) :
    checkPayload rt expected payload = .error (.raised .typeError) := by
  rw [checkPayload_of_own hmodel, checkEffort, Json.inStrSet, hpolicy]
  rfl

/-- Any other effort that does not match is. -/
theorem checkPayload_error {payload : Obj} (hmodel : OwnModel expected payload)
    (heffort : ¬MatchingEffort expected payload)
    (hpolicy : (Obj.get payload "reasoning_effort_policy").hashable = true) :
    ∃ message, checkPayload rt expected payload = .error (.runtimeError message) := by
  rw [checkPayload_of_own hmodel, checkEffort, Json.inStrSet, if_pos hpolicy]
  generalize hvalue : Obj.get payload "reasoning_effort_policy" = policy at *
  cases hknown : (lits ["configured", "suppressed"]).any fun s => policy.eqStr s with
  | false => exact ⟨_, rfl⟩
  | true =>
    dsimp only
    by_cases hsuppressed : policy.eqStr "suppressed" = true
    · rw [if_pos hsuppressed, if_neg]
      · exact ⟨_, rfl⟩
      · intro heq
        refine heffort (.inr ⟨?_, (effortIs_iff ..).mp heq⟩)
        rw [hvalue, (Json.eqStr_iff ..).mp hsuppressed]
    · have hconfigured : policy = .str "configured" := by
        simpa [lits, hsuppressed, Json.eqStr_iff] using hknown
      rw [if_neg hsuppressed, if_neg]
      · exact ⟨_, rfl⟩
      · intro heq
        exact heffort (.inl ⟨by rw [hvalue, hconfigured], (effortIs_iff ..).mp heq⟩)

/-- A conforming record adds the expected model when it is a model call. -/
theorem checkRecord_conforming {record : Json} (h : ConformingRecord expected record) :
    checkRecord rt expected models record =
      .ok (if (callPayload record).isSome then models.insert expected.model else models) := by
  cases hcall : callPayload record with
  | none => rw [checkRecord_of_none hcall]; rfl
  | some value =>
    obtain ⟨payload, rfl, hmodel, heffort⟩ := h value hcall
    rw [checkRecord_of_some hcall, Json.asDict_dict]
    dsimp only
    rw [checkPayload_ok hmodel heffort]
    rfl

theorem UnhashablePolicy.not_conforming {record : Json} (h : UnhashablePolicy expected record) :
    ¬ConformingRecord expected record := by
  intro hconforming
  obtain ⟨payload, hcall, -, hpolicy⟩ := h
  obtain ⟨payload', hpayload, -, heffort⟩ := hconforming _ hcall
  cases hpayload
  rcases heffort with ⟨heq, -⟩ | ⟨heq, -⟩
  all_goals
    rw [heq] at hpolicy
    cases hpolicy

theorem checkRecord_unhashable {record : Json} (h : UnhashablePolicy expected record) :
    checkRecord rt expected models record = .error (.raised .typeError) := by
  obtain ⟨payload, hcall, hmodel, hpolicy⟩ := h
  rw [checkRecord_of_some hcall, Json.asDict_dict]
  dsimp only
  rw [checkPayload_unhashable hmodel hpolicy]
  rfl

/-- Any other record that does not conform is reported. -/
theorem checkRecord_error {record : Json} (h : ¬ConformingRecord expected record)
    (hpolicy : ¬UnhashablePolicy expected record) :
    ∃ message, ∀ models,
      checkRecord rt expected models record = .error (.runtimeError message) := by
  obtain ⟨value, hcall, hvalue⟩ : ∃ value, callPayload record = some value ∧
      ¬∃ payload, value = .dict payload ∧ OwnModel expected payload ∧
        MatchingEffort expected payload := by
    simpa [ConformingRecord] using h
  cases hdict : value.asDict with
  | none => exact ⟨_, fun models => by rw [checkRecord_of_some hcall, hdict]⟩
  | some payload =>
    obtain rfl : value = .dict payload := by
      cases value <;> simp_all [Json.asDict]
    have hpayload : ∃ message, checkPayload rt expected payload = .error (.runtimeError message) := by
      by_cases hmodel : OwnModel expected payload
      · refine checkPayload_error hmodel (fun heffort => hvalue ⟨payload, rfl, hmodel, heffort⟩) ?_
        rw [← Bool.not_eq_false]
        exact fun hhash => hpolicy ⟨payload, hcall, hmodel, hhash⟩
      · exact checkPayload_of_not_own hmodel
    obtain ⟨message, hmessage⟩ := hpayload
    refine ⟨message, fun models => ?_⟩
    rw [checkRecord_of_some hcall, hdict]
    dsimp only
    rw [hmessage]
    rfl

end OneRecord

section Run

variable {depth : Nat} {rt : Runtime} {expected : Expected} {models : List Str}
  {records : List (LoggedRecord depth)}

/-- The verification gets past the records. -/
theorem check_passed (h : ∀ logged ∈ records, Passed expected logged) :
    (records.map LoggedRecord.rawLine).foldlM (checkRawLine rt expected depth) models =
      .ok (if records.any fun logged => (callPayload logged.record).isSome
        then models.insert expected.model else models) := by
  induction records generalizing models with
  | nil => rfl
  | cons logged rest ih =>
    rw [List.forall_mem_cons] at h
    rw [List.map_cons, List.foldlM_cons, checkRawLine_whole h.1.1, checkRecord_conforming h.1.2,
      ok_bind, ih h.2, List.any_cons]
    cases (callPayload logged.record).isSome
    · rfl
    · simp

/-- What the file is read as. -/
theorem rawLines_logBytes {fuel : Nat} (hfuel : (logBytes records).length ≤ fuel) :
    rawLines fuel (logBytes records).length (logBytes records) =
      records.map LoggedRecord.rawLine := by
  induction records generalizing fuel with
  | nil => cases fuel <;> rfl
  | cons logged rest ih =>
    have hbytes : logBytes (logged :: rest) = logged.rawLine ++ logBytes rest := rfl
    have hpositive : 0 < logged.rawLine.length := by simp [LoggedRecord.rawLine]
    have hshort : logged.rawLine.length < maxRecordBytes + 1 := by
      have hlength := logged.short
      rw [LoggedRecord.rawLine, List.length_append, List.length_singleton]
      omega
    rw [hbytes, List.length_append] at hfuel ⊢
    cases fuel with
    | zero => omega
    | succ fuel =>
      have hread : readLine (min (maxRecordBytes + 1) (logged.rawLine.length + (logBytes rest).length))
          (logged.rawLine ++ logBytes rest) = logged.rawLine := by
        rw [readLine]
        have hphysical := physicalLines_append_lineFeed logged.lineFeed_not_mem (logBytes rest)
        have hjoin : logged.text.encodeSurrogatePass ++ 10 :: logBytes rest =
            logged.rawLine ++ logBytes rest := by
          rw [LoggedRecord.rawLine, List.append_assoc]
          rfl
        rw [← hjoin, hphysical, List.head?_cons, Option.getD_some]
        exact List.take_of_length_le (by rw [← LoggedRecord.rawLine]; omega)
      rw [rawLines, if_neg (by omega)]
      dsimp only
      rw [hread, if_neg (by rw [List.isEmpty_iff, ← List.length_eq_zero_iff]; omega),
        Nat.add_sub_cancel_left, List.drop_left, ih (by omega), List.map_cons]

theorem verifiedProviderModels_eq {file : LogFile} (hfile : file.Holds (logBytes records))
    {path : Str} (hpath : path ≠ []) :
    verifiedProviderModels rt depth (some path) file expected "responses" =
      concludeLog rt file (records.map LoggedRecord.rawLine)
        ((records.map LoggedRecord.rawLine).foldlM (checkRawLine rt expected depth) []) := by
  obtain ⟨resolved, root, hresolved, hroot, hinside⟩ := hfile.inside
  rw [verifiedProviderModels, if_neg (by simp), if_neg (by simpa using hpath), hresolved, hroot,
    hfile.content]
  dsimp only
  rw [hinside, hfile.size, rawLines_logBytes le_rfl]
  rfl

/-- The first record that the verification does not get past. -/
theorem exists_first_not_passed (h : ¬∀ logged ∈ records, Passed expected logged) :
    ∃ before logged after, records = before ++ logged :: after ∧
      (∀ other ∈ before, Passed expected other) ∧ ¬Passed expected logged := by
  induction records with
  | nil => exact absurd (by simp) h
  | cons first rest ih =>
    by_cases hfirst : Passed expected first
    · obtain ⟨before, logged, after, rfl, hbefore, hlogged⟩ :=
        ih fun hrest => h (List.forall_mem_cons.mpr ⟨hfirst, hrest⟩)
      exact ⟨first :: before, logged, after, rfl, List.forall_mem_cons.mpr ⟨hfirst, hbefore⟩, hlogged⟩
    · exact ⟨[], first, rest, rfl, by simp, hfirst⟩

/-- There is only one such record. -/
theorem first_not_passed_unique {before before' after after' : List (LoggedRecord depth)}
    {logged logged' : LoggedRecord depth}
    (h : before ++ logged :: after = before' ++ logged' :: after')
    (hbefore : ∀ other ∈ before, Passed expected other)
    (hbefore' : ∀ other ∈ before', Passed expected other) (hlogged : ¬Passed expected logged)
    (hlogged' : ¬Passed expected logged') : logged = logged' := by
  induction before generalizing before' with
  | nil =>
    cases before' with
    | nil => exact (List.cons.inj h).1
    | cons first before' =>
      obtain rfl := (List.cons.inj h).1
      exact absurd (hbefore' logged (List.mem_cons_self ..)) hlogged
  | cons first before ih =>
    cases before' with
    | nil =>
      obtain rfl := (List.cons.inj h).1
      exact absurd (hbefore first (List.mem_cons_self ..)) hlogged'
    | cons first' before' =>
      rw [List.forall_mem_cons] at hbefore hbefore'
      exact ih (List.cons.inj h).2 hbefore.2 hbefore'.2

/-- What the record that stops the verification raises. -/
theorem check_stopped {before after : List (LoggedRecord depth)} {logged : LoggedRecord depth}
    {error : VerifyErr} (hbefore : ∀ other ∈ before, Passed expected other)
    (h : ∀ models, checkRawLine rt expected depth models logged.rawLine = .error error) :
    ((before ++ logged :: after).map LoggedRecord.rawLine).foldlM (checkRawLine rt expected depth)
      models = .error error := by
  rw [List.map_append, List.foldlM_append, check_passed hbefore, ok_bind, List.map_cons,
    List.foldlM_cons, h]
  rfl

/-- A `RuntimeError` of a record is the one of the verification. -/
theorem concludeLog_runtimeError {file : LogFile} (hfile : file.before = file.after)
    (lines : List (List Nat)) (message : Str) :
    concludeLog rt file lines (.error (.runtimeError message)) = .error (.runtimeError message) := by
  rw [concludeLog, if_neg (by simp [VerifyErr.isRuntimeError]), if_neg (not_not_intro hfile),
    if_neg nofun]
  rfl

/-- Accepted with the expected model and the digest when the log conforms, and rejected with a
`RuntimeError` when it does not. -/
structure Judged (rt : Runtime) (expected : Expected) (records : List (LoggedRecord depth))
    (result : Except VerifyErr (List Str × Option Str)) : Prop where
  accepted : ConformingLog expected records →
    result = .ok ([expected.model], some (rt.sha256 (logBytes records)))
  rejected : ¬ConformingLog expected records → ∃ error, result = .error error ∧ error.isRuntimeError

/-- The lines of a conforming log are whole, and the first record that stops the verification is no
whole call to the expected model with a policy that a set cannot look up. -/
structure ReadAsWritten (expected : Expected) (records : List (LoggedRecord depth)) : Prop where
  whole : ConformingLog expected records → ∀ logged ∈ records, logged.Whole
  hashable : ∀ before logged after, records = before ++ logged :: after →
    (∀ other ∈ before, Passed expected other) → logged.Whole →
      ¬UnhashablePolicy expected logged.record

end Run

section Samples

/-- A configuration. -/
def sampleExpected : Expected := ⟨"m", none⟩

/-- A model call with an effort policy and a text. -/
def sampleCall (policy : Json) (text : Str) : Json :=
  .dict (Obj.of [("type", "llm_call"), ("payload", .dict (Obj.of [("wire_protocol", "responses"),
    ("provider_model", "m"), ("reasoning_effort_policy", policy), ("text", text)]))])

set_option maxRecDepth 40000 in
/-- A conforming call whose text has a line separator. -/
def separatedRecord : LoggedRecord 2 where
  record := sampleCall "suppressed" [97, 0x2028, 98]
  text := DumpFormat.plain.dumpsUnescaped (sampleCall "suppressed" [97, 0x2028, 98])
  reads := by rfl
  decoded := by decide +kernel
  printable := by decide +kernel
  short := by decide +kernel

/-- A file that does not change while it is read. -/
def settledFile (bytes : List Nat) : LogFile where
  resolved := some (PosixPath.ofStr "/artifacts/trajectory.jsonl")
  artifactRoot := some (PosixPath.ofStr "/artifacts")
  content := some bytes
  before := ⟨bytes.length, 0, 0⟩
  after := ⟨bytes.length, 0, 0⟩

theorem settledFile_holds (bytes : List Nat) : (settledFile bytes).Holds bytes :=
  ⟨rfl, rfl, rfl, _, _, rfl, rfl, by decide⟩

theorem separatedRecord_conforming : ConformingLog sampleExpected [separatedRecord] := by
  refine ⟨⟨separatedRecord, List.mem_singleton_self _, rfl⟩, fun logged hlogged value hvalue => ?_⟩
  rw [List.mem_singleton.mp hlogged] at hvalue
  obtain rfl := Option.some.inj hvalue
  exact ⟨_, rfl, ⟨rfl, rfl⟩, .inr ⟨rfl, rfl⟩⟩

end Samples

end OpenCollabEval.Trajectory
