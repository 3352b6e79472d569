import OpenCollabEval.ChatStream.Failures
import OpenCollabEval.ChatStream.Readback
import OpenCollabEval.Env

/-!
# When only `ChatStreamError` is raised

An aggregation returns a complete JSON object or raises `ChatStreamError` exactly when its payloads can be
read and what it keeps of them can be encoded.
-/

open Python

namespace OpenCollabEval

namespace ChatStream

section Complete

/-- A tool call with an id and a name. -/
def CompleteCall (call : Json) : Prop := ∃ (fields function : Obj) (id name : Str),
  call = .dict fields ∧ fields.get "id" = .str id ∧ id ≠ [] ∧
    fields.get "function" = .dict function ∧ function.get "name" = .str name ∧ name ≠ []

/-- A choice with a finish reason whose tool calls are complete. -/
def CompleteChoice (choice : Json) : Prop := ∃ (fields message : Obj) (reason : Str),
  choice = .dict fields ∧ fields.get "finish_reason" = .str reason ∧
    fields.get "message" = .dict message ∧
    (message.has "tool_calls" = true → ∃ calls, message.get "tool_calls" = .list calls ∧
      ∀ call ∈ calls, CompleteCall call)

/-- The bytes are the JSON text of an object with complete choices. Reading them gives the object back,
unless an index has more digits than a reader accepts. -/
def ReturnsObject (bytes : List Nat) : Prop := ∃ (completion : Obj) (choices : List Json),
  bytes = (DumpFormat.compact.dumpsUnescaped (.dict completion)).encodeSurrogatePass ∧
  completion.get "choices" = .list choices ∧ choices ≠ [] ∧
  (∀ choice ∈ choices, CompleteChoice choice) ∧
  ((∀ choice ∈ choices, ShortIndex choice) → ∃ depth text,
    Str.decodeUtf8 false bytes = some text ∧ loads depth text = .ok (.dict completion))

/-- The aggregation returns such an object, or raises `ChatStreamError`. -/
def FailsCleanly (outcome : Except Failure (List Nat)) : Prop :=
  (∃ bytes, outcome = .ok bytes ∧ ReturnsObject bytes) ∨
    ∃ message, outcome = .error (.chatStreamError message)

theorem completeCall_of_finish {t : ToolCall} {call : Json} (h : t.finish = .ok call) :
    CompleteCall call := by
  rw [ToolCall.finish] at h
  by_cases hmissing : (t.callId.isEmpty || t.name.isEmpty) = true
  · rw [if_pos hmissing] at h
    cases h
  rw [if_neg hmissing] at h
  obtain rfl := Except.ok.inj h
  simp only [Bool.or_eq_true, List.isEmpty_iff, not_or] at hmissing
  have hfunction : ¬lit "function" = lit "id" := by decide
  have htype : ¬lit "function" = lit "type" := by decide
  exact ⟨_, [("name", .str t.name), ("arguments", .str t.arguments.flatten)], t.callId, t.name, rfl,
    by simp, hmissing.1, by simp [hfunction, htype], by simp, hmissing.2⟩

theorem completeChoice_of_finish {rt : Runtime} {label : Json} {c : Choice} {choice : Json}
    (h : c.finish rt label = .ok choice) : CompleteChoice choice := by
  rw [Choice.finish] at h
  rcases hreason : c.finishReason with _ | reason
  · simp [hreason, fail] at h
  rw [hreason] at h
  obtain ⟨toolCalls, hcalls, h⟩ := bind_eq_ok_iff.mp h
  obtain rfl := Except.ok.inj h
  have htools : ∀ call ∈ toolCalls, CompleteCall call :=
    forall_results hcalls fun _ _ _ => completeCall_of_finish
  have hindex : ¬lit "finish_reason" = lit "index" := by decide
  have hmessage : ¬lit "finish_reason" = lit "message" := by decide
  have hfirst : ¬lit "message" = lit "index" := by decide
  refine ⟨_, c.message toolCalls, reason, rfl, by simp [hindex, hmessage], by simp [hfirst], ?_⟩
  intro hhas
  refine ⟨toolCalls, ?_, htools⟩
  have h₁ : ¬lit "tool_calls" = lit "role" := by decide
  have h₂ : ¬lit "tool_calls" = lit "content" := by decide
  have h₃ : ¬lit "tool_calls" = lit "reasoning_content" := by decide
  have h₄ : ¬lit "tool_calls" = lit "refusal" := by decide
  revert hhas
  rw [Choice.message]
  split_ifs <;>
    simp [Obj.has, Obj.get, List.lookup_cons, beq_false_of_ne h₁, beq_false_of_ne h₂,
      beq_false_of_ne h₃, beq_false_of_ne h₄]

end Complete

section Outcome

variable {rt : Runtime} {depth : Nat} {limit : Int} {expired : Nat → Bool} {model : Str}
  {stream : List Nat}

/-- The frames of a stream. -/
abbrev streamFrames (limit : Int) (expired : Nat → Bool) (stream : List Nat) : List Frame :=
  events limit expired 0 0 [] (physicalLines stream)

/-- What a stream that is completed keeps can be encoded. -/
def WritesCleanly (rt : Runtime) (depth : Nat) (model : Str) (frames : List Frame) : Prop :=
  ∀ chunks : List Obj, readChunks depth frames = .ok (chunks.map .dict, true) → StreamOk chunks →
    StreamDone rt model chunks → StreamClean chunks

/-- The run over a stream, as its chunks. -/
theorem consume_stream_iff (frames : List Frame) (a : Aggregate) (done : Bool) :
    consume depth {} frames = .ok (a, done) ↔ ∃ chunks : List Obj,
      readChunks depth frames = .ok (chunks.map .dict, done) ∧ StreamOk chunks ∧
        a = viewAggregate chunks := by
  have h : consume depth (viewAggregate []) frames = .ok (a, done) ↔ _ :=
    consume_iff streamOk_nil frames a done
  simpa only [viewAggregate_nil, List.nil_append] using h

theorem clean_compact (v : Json) : Str.Clean (DumpFormat.compact.dumpsUnescaped v) ↔ v.Clean :=
  DumpFormat.clean_dumpsUnescaped (.of_small (by decide)) (.of_small (by decide)) v

/-- The text of a sound value is decoded and read back. -/
theorem exists_loads_of_sound {v : Json} (hsound : v.Sound) (hclean : v.Clean) : ∃ depth text,
    Str.decodeUtf8 false (DumpFormat.compact.dumpsUnescaped v).encodeSurrogatePass = some text ∧
      loads depth text = .ok v := by
  obtain ⟨depth, hreadable⟩ := hsound.readable hclean
  have hplain : (DumpFormat.compact.dumpsUnescaped v).Plain :=
    DumpFormat.plain_dumps_of_separators (by simp [DumpFormat.compact, lit, Str.Plain])
      (by simp [DumpFormat.compact, lit, Str.Plain]) hreadable
  have hloads : loads depth (DumpFormat.compact.dumpsUnescaped v ++ []) = .ok v :=
    DumpFormat.loads_unsorted DumpFormat.standard_compact rfl hreadable (by simp)
  refine ⟨depth, DumpFormat.compact.dumpsUnescaped v, Str.decodeUtf8_encode ?_, by simpa using hloads⟩
  intro c hc
  have hpoint := (hplain c hc).2
  exact ⟨by omega, (clean_compact v).mpr hclean c hc⟩

/-- The bytes that are returned are those of a complete object. -/
theorem returnsObject_of_ok {bytes : List Nat}
    (h : aggregateChatStream rt depth limit expired model stream = .ok bytes) :
    ReturnsObject bytes := by
  obtain ⟨⟨a, done⟩, hconsume, hrest⟩ := bind_eq_ok_iff.mp h
  obtain ⟨completion, hcomplete, hbytes⟩ := bind_eq_ok_iff.mp hrest
  obtain ⟨chunks, hread, hok, rfl⟩ := (consume_stream_iff _ _ _).mp hconsume
  simp only [encodeCompletion] at hbytes
  split at hbytes
  · cases hbytes
  · rename_i encoded hencoded
    split_ifs at hbytes
    · cases hbytes
    obtain rfl := Except.ok.inj hbytes
    obtain ⟨hclean, rfl⟩ := (Str.encode_iff _ _).mp hencoded
    have hreturns := (complete_returns_iff rt done model chunks).mp ⟨completion, hcomplete⟩
    obtain ⟨choices, hchoices, hcompletion⟩ := complete_eq_ok hcomplete
    have hget : completion.get "choices" = .list choices := by
      rw [hcompletion]
      exact get_choices chunks _ _
    have hsound := sound_of_readChunks (fun data hdata => decoded_events (by simp) hdata) hread
    refine ⟨completion, choices, rfl, hget, ?_,
      forall_results hchoices fun _ _ _ => completeChoice_of_finish, fun hshort => ?_⟩
    · -- a choice delta belongs to a choice
      rintro rfl
      have hitems : (viewAggregate chunks).choices.sortedItems = [] := by
        have hpairs := forall₂_of_mapM_eq_ok hchoices
        exact List.forall₂_nil_right_iff.mp hpairs
      obtain ⟨⟨index, pair⟩, rest, hentries⟩ := List.exists_cons_of_ne_nil hreturns.2.choices
      have hentry : choiceEntries chunks index ≠ [] := by simp [choiceEntries, hentries]
      obtain ⟨label, hmem⟩ := exists_mem_sortedChoices hentry
      simp [hitems] at hmem
    · refine exists_loads_of_sound (complete_sound hsound hcomplete ?_) ((clean_compact _).mp hclean)
      intro others hothers
      rw [hget] at hothers
      obtain rfl := Json.list.inj hothers
      exact hshort

/-- Another exception escapes exactly at a payload that cannot be read, or with a completion that cannot
be encoded. -/
theorem raised_iff : (∃ err, aggregateChatStream rt depth limit expired model stream =
      .error (.raised err)) ↔
    ¬(ReadsCleanly depth (streamFrames limit expired stream) ∧
      WritesCleanly rt depth model (streamFrames limit expired stream)) := by
  constructor
  · rintro ⟨err, h⟩ ⟨hreads, hwrites⟩
    rw [aggregateChatStream] at h
    cases hconsume : consume depth {} (streamFrames limit expired stream) with
    | error failure =>
      rw [hconsume] at h
      obtain rfl : failure = .raised err := by simpa using h
      rw [← viewAggregate_nil] at hconsume
      obtain ⟨before, payload, after, chunks, hframes, hdone, hread, hok, herr, hother⟩ :=
        exists_of_consume_raised streamOk_nil hconsume
      exact hother (hreads before payload after chunks hframes hdone hread (by simpa using hok) err
        herr)
    | ok run =>
      obtain ⟨a, done⟩ := run
      rw [hconsume, ok_bind] at h
      obtain ⟨chunks, hread, hok, rfl⟩ := (consume_stream_iff _ _ _).mp hconsume
      dsimp only at h
      cases hcomplete : (viewAggregate chunks).complete rt done model with
      | error failure =>
        rw [hcomplete] at h
        obtain rfl : failure = .raised err := by simpa using h
        exact silent_complete _ _ _ _ _ hcomplete
      | ok completion =>
        obtain ⟨rfl, hdone⟩ := (complete_returns_iff rt done model chunks).mp ⟨_, hcomplete⟩
        have hclean := (complete_clean_iff hok hcomplete).mpr (hwrites chunks hread hok hdone)
        have hencoded := (Str.encode_iff _ _).mpr ⟨(clean_compact _).mpr hclean, rfl⟩
        rw [hcomplete, ok_bind, encodeCompletion, hencoded] at h
        dsimp only at h
        split_ifs at h
        cases h
  · intro hnot
    rw [not_and_or] at hnot
    rcases hnot with hreads | hwrites
    · simp only [ReadsCleanly, not_forall] at hreads
      obtain ⟨before, payload, after, chunks, hframes, hdone, hread, hok, err, herr, hother⟩ := hreads
      have hraised : consume depth (viewAggregate [])
          (before.map .ok ++ .ok payload :: after) = .error (.raised err) :=
        consume_raised streamOk_nil hdone hread (by simpa using hok) herr hother
      refine ⟨err, ?_⟩
      rw [← hframes, viewAggregate_nil] at hraised
      rw [aggregateChatStream, hraised]
      rfl
    · simp only [WritesCleanly, not_forall] at hwrites
      obtain ⟨chunks, hread, hok, hdone, hunclean⟩ := hwrites
      have hconsume := (consume_stream_iff (streamFrames limit expired stream) _ true).mpr
        ⟨chunks, hread, hok, rfl⟩
      obtain ⟨completion, hcomplete⟩ :=
        (complete_returns_iff rt true model chunks).mpr ⟨rfl, hdone⟩
      refine ⟨.unicodeEncodeError, ?_⟩
      have hencode : Str.encode (DumpFormat.compact.dumpsUnescaped (.dict completion)) =
          .error .unicodeEncodeError := by
        rw [Str.encode, if_pos]
        by_contra hsurrogate
        refine hunclean ((complete_clean_iff hok hcomplete).mp ((clean_compact _).mp ?_))
        simpa [Str.Clean] using hsurrogate
      rw [aggregateChatStream, hconsume, ok_bind]
      dsimp only
      rw [hcomplete, ok_bind, encodeCompletion, hencode]

/-- Only `ChatStreamError` is raised exactly when every payload that is read can be read and everything
that is kept can be encoded. -/
theorem failsCleanly_iff (rt : Runtime) (depth : Nat) (limit : Int) (expired : Nat → Bool)
    (model : Str) (stream : List Nat) :
    FailsCleanly (aggregateChatStream rt depth limit expired model stream) ↔
      ReadsCleanly depth (streamFrames limit expired stream) ∧
        WritesCleanly rt depth model (streamFrames limit expired stream) := by
  have hraised : FailsCleanly (aggregateChatStream rt depth limit expired model stream) ↔
      ¬∃ err, aggregateChatStream rt depth limit expired model stream = .error (.raised err) := by
    rcases houtcome : aggregateChatStream rt depth limit expired model stream with failure | bytes
    · cases failure with
      | chatStreamError message => simp [FailsCleanly]
      | raised err => simp [FailsCleanly]
    · simp [FailsCleanly, returnsObject_of_ok houtcome]
  rw [hraised, raised_iff, not_not]

end Outcome

section Sample

/-- A stream whose only delta holds half of a surrogate pair. -/
def surrogateStream : List Nat :=
  lit "data: \x7b\"model\":\"m\",\"choices\":[\x7b\"delta\":\x7b\"content\":\"\\ud800\"\x7d," ++
    lit "\"finish_reason\":\"stop\"\x7d]\x7d\n\ndata: [DONE]\n\n"

/-- The completion of the stream cannot be encoded, and no `ChatStreamError` says so. -/
theorem surrogateStream_escapes :
    ¬FailsCleanly (aggregateChatStream asciiEnv.toRuntime 10 1000 (fun _ => false) "m"
      surrogateStream) := by
  have houtcome : aggregateChatStream asciiEnv.toRuntime 10 1000 (fun _ => false) "m"
      surrogateStream = .error (.raised .unicodeEncodeError) := by
    decide +kernel
  rw [houtcome]
  rintro (⟨bytes, h, -⟩ | ⟨message, h⟩)
  · cases h
  · cases h

end Sample

end ChatStream

end OpenCollabEval
