import OpenCollabEval.ChatStream.Completion
import OpenCollabEval.Python.JsonReadable

/-!
# How an aggregation fails

The accumulators raise nothing but `ChatStreamError`. Another exception escapes exactly where a payload
holds an integer or a nesting that `json.loads` refuses, or where the completion keeps a lone surrogate.
-/

open Python

namespace OpenCollabEval

namespace ChatStream

section Silent

variable {α β : Type}

/-- A call that raises nothing but `ChatStreamError`. -/
def Silent (x : Except Failure α) : Prop := ∀ err, x ≠ .error (.raised err)

theorem silent_ok (a : α) : Silent (.ok a) := by
  intro err h
  cases h

theorem silent_fail (message : Str) : Silent (fail message : Except Failure α) := by
  intro err h
  cases h

theorem Silent.bind {x : Except Failure α} {f : α → Except Failure β} (hx : Silent x)
    (hf : ∀ a, Silent (f a)) : Silent (x >>= f) := by
  intro err h
  cases x with
  | error failure => exact hx err (by simpa using h)
  | ok a => exact hf a err h

theorem silent_upsert {d : IntDict α} {key : Int} {update : Option α → Except Failure α}
    (h : ∀ found, Silent (update found)) : Silent (d.upsert key update) :=
  (h _).bind fun _ => silent_ok _

theorem silent_toolAdd (t : ToolCall) (call : Obj) : Silent (t.add call) := by
  rw [ToolCall.add]
  refine .bind ?_ fun t => .bind ?_ fun t => ?_
  · rw [ToolCall.addId]
    split
    · exact silent_ok _
    · split
      · exact silent_fail _
      · exact silent_ok _
  · rw [ToolCall.addType]
    split
    · exact silent_ok _
    · split
      · exact silent_fail _
      · exact silent_ok _
  · rw [ToolCall.addFunction]
    split
    · exact silent_fail _
    · exact silent_ok _

theorem silent_addCalls (c : Choice) (calls : List Json) : Silent (c.addCalls calls) := by
  induction calls generalizing c with
  | nil => exact silent_ok _
  | cons call rest ih =>
    rw [Choice.addCalls]
    refine .bind ?_ ih
    rw [Choice.addCall]
    split
    · exact silent_fail _
    · split
      · exact silent_fail _
      · exact (silent_upsert fun _ => silent_toolAdd _ _).bind fun _ => silent_ok _

theorem silent_choiceAdd (c : Choice) (entry : Obj) : Silent (c.add entry) := by
  rw [Choice.add]
  split
  · exact silent_fail _
  · split
    · exact silent_fail _
    · refine (silent_addCalls _ _).bind fun c => .bind ?_ fun _ => silent_ok _
      rw [Choice.addFinishReason.eq_def]
      split
      · exact silent_ok _
      · exact silent_ok _
      · exact silent_fail _

theorem silent_addChoices (a : Aggregate) (position : Nat) (choices : List Json) :
    Silent (a.addChoices position choices) := by
  induction choices generalizing a position with
  | nil => exact silent_ok _
  | cons choice rest ih =>
    rw [Aggregate.addChoices]
    refine .bind ?_ fun a => ih a _
    rw [Aggregate.addChoice]
    split
    · exact silent_fail _
    · dsimp only
      split
      · exact silent_fail _
      · refine (silent_upsert fun found => ?_).bind fun _ => silent_ok _
        exact (silent_choiceAdd _ _).bind fun _ => silent_ok _

theorem silent_addIdentities (a : Aggregate) (chunk : Obj) (keys : List Str) :
    Silent (a.addIdentities chunk keys) := by
  induction keys generalizing a with
  | nil => exact silent_ok _
  | cons key rest ih =>
    rw [Aggregate.addIdentities]
    refine .bind ?_ ih
    simp only [Aggregate.addIdentity]
    split
    · exact silent_ok _
    · split
      · exact silent_fail _
      · exact silent_ok _

/-- A chunk of any shape is added or refused by a `ChatStreamError`. -/
theorem silent_addChunk (a : Aggregate) (value : Json) : Silent (a.addChunk value) := by
  rw [Aggregate.addChunk]
  split
  · exact silent_fail _
  · split
    · exact silent_fail _
    · refine (silent_addIdentities _ _ _).bind fun a => .bind ?_ fun a => ?_
      · rw [Aggregate.addUsage]
        split
        · exact silent_ok _
        · exact silent_ok _
        · exact silent_fail _
      · split
        · exact silent_fail _
        · exact silent_addChoices _ _ _

theorem silent_mapM {f : α → Except Failure β} (h : ∀ a, Silent (f a)) (items : List α) :
    Silent (items.mapM f) := by
  induction items with
  | nil => exact silent_ok _
  | cons item rest ih =>
    rw [List.mapM_cons]
    exact (h item).bind fun _ => ih.bind fun _ => silent_ok _

/-- A stream that ended is completed or refused by a `ChatStreamError`. -/
theorem silent_complete (rt : Runtime) (a : Aggregate) (done : Bool) (model : Str) :
    Silent (a.complete rt done model) := by
  rw [Aggregate.complete]
  split_ifs
  · exact silent_fail _
  · exact silent_fail _
  · exact silent_fail _
  · refine (silent_mapM (fun item => ?_) _).bind fun _ => silent_ok _
    rw [Choice.finish]
    split
    · exact silent_fail _
    · refine (silent_mapM (fun item => ?_) _).bind fun _ => silent_ok _
      rw [ToolCall.finish]
      split
      · exact silent_fail _
      · exact silent_ok _

end Silent

section Reading

/-- No payload that is read holds what `json.loads` refuses for another reason than its syntax. A payload
is read when the payloads before it do not end the stream and make accepted chunks. -/
def ReadsCleanly (depth : Nat) (frames : List Frame) : Prop :=
  ∀ (before : List Str) (payload : Str) (after : List Frame) (chunks : List Obj),
    frames = before.map .ok ++ .ok payload :: after →
    (∀ data ∈ before ++ [payload], isDone data = false) →
    readChunks depth (before.map .ok) = .ok (chunks.map .dict, false) → StreamOk chunks →
    ∀ err, loads depth payload = .error err → err = .jsonDecodeError

/-- A payload that cannot be read stops the run. -/
theorem consume_raised {depth : Nat} {before : List Str} {payload : Str} {after : List Frame}
    {chunks seen : List Obj} (hseen : StreamOk seen)
    (hdone : ∀ data ∈ before ++ [payload], isDone data = false)
    (hread : readChunks depth (before.map .ok) = .ok (chunks.map .dict, false))
    (hok : StreamOk (seen ++ chunks)) {err : PyErr} (herr : loads depth payload = .error err)
    (hother : err ≠ .jsonDecodeError) :
    consume depth (viewAggregate seen) (before.map .ok ++ .ok payload :: after) =
      .error (.raised err) := by
  induction before generalizing seen chunks with
  | nil =>
    have hpayload := hdone payload (by simp)
    have hchunk : readChunk depth payload = .error (.raised err) := by
      rw [readChunk, herr]
      cases err <;> first | rfl | exact absurd rfl hother
    simp [consume, hpayload, hchunk]
  | cons data before ih =>
    have hdata := hdone data (by simp)
    simp only [List.map_cons, readChunks, hdata, Bool.false_eq_true, if_false] at hread
    obtain ⟨value, hvalue, hread⟩ := bind_eq_ok_iff.mp hread
    obtain ⟨⟨others, done⟩, hothers, hread⟩ := bind_eq_ok_iff.mp hread
    obtain ⟨hvalues, rfl⟩ := Prod.mk.inj (Except.ok.inj hread)
    obtain ⟨chunk, tail, rfl⟩ : ∃ chunk tail, chunks = chunk :: tail := by
      cases chunks with
      | nil => simp at hvalues
      | cons chunk tail => exact ⟨chunk, tail, rfl⟩
    obtain ⟨rfl, rfl⟩ := List.cons.inj hvalues
    rw [List.append_cons] at hok
    have hfirst := hok.of_append
    have hadd := (viewAggregate_addChunk_iff hseen (.dict chunk) _).mpr ⟨chunk, rfl, hfirst, rfl⟩
    simp only [List.map_cons, List.cons_append, consume, hdata, Bool.false_eq_true, if_false, hvalue,
      hadd, ok_bind]
    exact ih hfirst (fun other hmem => hdone other (List.mem_cons_of_mem _ hmem)) hothers hok

/-- A run stops with another exception only at a payload that cannot be read. -/
theorem exists_of_consume_raised {depth : Nat} {frames : List Frame} {seen : List Obj}
    (hseen : StreamOk seen) {err : PyErr}
    (h : consume depth (viewAggregate seen) frames = .error (.raised err)) :
    ∃ (before : List Str) (payload : Str) (after : List Frame) (chunks : List Obj),
      frames = before.map .ok ++ .ok payload :: after ∧
      (∀ data ∈ before ++ [payload], isDone data = false) ∧
      readChunks depth (before.map .ok) = .ok (chunks.map .dict, false) ∧
      StreamOk (seen ++ chunks) ∧ loads depth payload = .error err ∧ err ≠ .jsonDecodeError := by
  induction frames generalizing seen with
  | nil => simp [consume] at h
  | cons frame rest ih =>
    cases frame with
    | error message => simp [consume, fail] at h
    | ok data =>
      rw [consume] at h
      cases hdone : isDone data with
      | true => simp [hdone] at h
      | false =>
        simp only [hdone, Bool.false_eq_true, if_false] at h
        cases hread : readChunk depth data with
        | error failure =>
          rw [hread] at h
          obtain rfl : failure = .raised err := by simpa using h
          refine ⟨[], data, rest, [], rfl, by simpa using hdone, rfl, by simpa using hseen, ?_⟩
          rw [readChunk] at hread
          split at hread
          · cases hread
          · cases hread
          · rename_i found hother hfound
            obtain rfl : found = err := by simpa using hread
            exact ⟨hfound, hother⟩
        | ok value =>
          rw [hread, ok_bind] at h
          cases hadd : (viewAggregate seen).addChunk value with
          | error failure =>
            rw [hadd] at h
            obtain rfl : failure = .raised err := by simpa using h
            exact absurd hadd (silent_addChunk _ _ _)
          | ok a =>
            rw [hadd, ok_bind] at h
            obtain ⟨chunk, rfl, hok, rfl⟩ := (viewAggregate_addChunk_iff hseen value a).mp hadd
            obtain ⟨before, payload, after, chunks, rfl, hall, hchunks, hmore, herr, hother⟩ := ih hok h
            refine ⟨data :: before, payload, after, chunk :: chunks, rfl, ?_, ?_, ?_, herr, hother⟩
            · rw [List.cons_append, List.forall_mem_cons]
              exact ⟨hdone, hall⟩
            · simp [readChunks, hdone, hread, hchunks]
            · simpa using hmore

end Reading

end ChatStream

end OpenCollabEval
