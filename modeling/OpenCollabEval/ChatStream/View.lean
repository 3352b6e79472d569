import OpenCollabEval.ChatStream.Accumulate
import OpenCollabEval.Python.JsonDocument

/-!
# The accumulators as views of the stream

Each accumulator is a function of the deltas that it has read: the last string of a field, the strings of
a field in order, or the groups of the tool call deltas by their index. `add` extends the view by one
delta, and succeeds exactly when the longer list of deltas is well formed.
-/

open Python

namespace OpenCollabEval

namespace ChatStream

section Fields

/-- The strings under a key, in order. -/
def texts (key : Str) (values : List Obj) : List Str :=
  values.flatMap fun value => piece (value.get key)

/-- The value in a list of its own, unless it is null. -/
def present (value : Json) : List Json := if isNone value then [] else [value]

/-- The values under a key that are not null, in order. -/
def given (key : Str) (values : List Obj) : List Json :=
  values.flatMap fun value => present (value.get key)

/-- Each string repeats the one before it, unless that one is empty. -/
def Steady (ids : List Str) : Prop := ids.IsChain fun before after => before = [] ∨ after = before

@[simp]
theorem texts_append (key : Str) (values others : List Obj) :
    texts key (values ++ others) = texts key values ++ texts key others := by
  simp [texts]

@[simp]
theorem texts_singleton (key : Str) (value : Obj) : texts key [value] = piece (value.get key) := by
  simp [texts]

@[simp]
theorem given_append (key : Str) (values others : List Obj) :
    given key (values ++ others) = given key values ++ given key others := by
  simp [given]

@[simp]
theorem given_singleton (key : Str) (value : Obj) : given key [value] = present (value.get key) := by
  simp [given]

/-- A chain grows at its end by an item that follows the last one. -/
theorem isChain_concat_iff {α : Type} {r : α → α → Prop} (items : List α) (a : α) :
    (items ++ [a]).IsChain r ↔ items.IsChain r ∧ ∀ last ∈ items.getLast?, r last a := by
  rw [List.isChain_append]
  simp

theorem steady_concat (ids : List Str) (id : Str) :
    Steady (ids ++ [id]) ↔ Steady ids ∧ (ids.getLastD [] = [] ∨ id = ids.getLastD []) := by
  rw [Steady, isChain_concat_iff, ← Steady, List.getLastD_eq_getLast?]
  cases ids.getLast? <;> simp

/-- A string field that may not change: one more delta. -/
theorem steady_piece (ids : List Str) (hsteady : Steady ids) (value : Json) :
    Steady (ids ++ piece value) ↔
      ∀ id, value.asStr = some id → ids.getLastD [] = [] ∨ id = ids.getLastD [] := by
  cases hvalue : value.asStr with
  | none => simp [piece, hvalue, hsteady]
  | some id => simp [piece, hvalue, steady_concat, hsteady]

/-- The last string after one more delta. -/
theorem getLastD_piece (ids : List Str) (value : Json) (default : Str) :
    (ids ++ piece value).getLastD default = value.asStr.getD (ids.getLastD default) := by
  cases hvalue : value.asStr <;> simp [piece, hvalue]

end Fields

section Tool

/-- The functions of some tool call deltas. -/
def functions (calls : List Obj) : List Obj :=
  calls.map fun call => (dictOrEmpty (call.get "function")).getD []

/-- The tool call that some deltas make. -/
def viewTool (calls : List Obj) : ToolCall where
  callId := (texts "id" calls).getLastD []
  callType := (texts "type" calls).getLastD []
  name := (texts "name" (functions calls)).flatten
  arguments := texts "arguments" (functions calls)

/-- Deltas that make a tool call: their functions are objects, and neither the id nor the type changes. -/
structure ToolOk (calls : List Obj) : Prop where
  functions : ∀ call ∈ calls, (dictOrEmpty (call.get "function")).isSome = true
  ids : Steady (texts "id" calls)
  types : Steady (texts "type" calls)

theorem toolOk_nil : ToolOk [] := ⟨by simp, .nil, .nil⟩

/-- The first deltas of a tool call make one. -/
theorem ToolOk.of_append {calls others : List Obj} (h : ToolOk (calls ++ others)) : ToolOk calls := by
  have hids := h.ids
  have htypes := h.types
  rw [texts_append] at hids htypes
  exact ⟨fun call hcall => h.functions call (by simp [hcall]), hids.left_of_append,
    htypes.left_of_append⟩

/-- The test whether a string field changes. -/
theorem keeps_iff (current id : Str) :
    (!current.isEmpty && id != current) = false ↔ current = [] ∨ id = current := by
  rw [Bool.and_eq_false_iff, Bool.not_eq_false', List.isEmpty_iff, bne_eq_false_iff_eq]

/-- An id is added when it does not change. -/
theorem addId_iff (t t' : ToolCall) (value : Json) : t.addId value = .ok t' ↔
    (∀ id, value.asStr = some id → t.callId = [] ∨ id = t.callId) ∧
      t' = { t with callId := value.asStr.getD t.callId } := by
  rw [ToolCall.addId]
  cases value.asStr with
  | none => simp [eq_comm (a := t)]
  | some id =>
    cases hchange : !t.callId.isEmpty && id != t.callId with
    | false => simp [hchange, (keeps_iff _ _).mp hchange, eq_comm (b := t')]
    | true =>
      have hkept : ¬(t.callId = [] ∨ id = t.callId) := by
        rw [← keeps_iff, hchange]
        simp
      simp [hchange, hkept, fail]

/-- A type is added when it does not change. -/
theorem addType_iff (t t' : ToolCall) (value : Json) : t.addType value = .ok t' ↔
    (∀ callType, value.asStr = some callType → t.callType = [] ∨ callType = t.callType) ∧
      t' = { t with callType := value.asStr.getD t.callType } := by
  rw [ToolCall.addType]
  cases value.asStr with
  | none => simp [eq_comm (a := t)]
  | some callType =>
    cases hchange : !t.callType.isEmpty && callType != t.callType with
    | false => simp [hchange, (keeps_iff _ _).mp hchange, eq_comm (b := t')]
    | true =>
      have hkept : ¬(t.callType = [] ∨ callType = t.callType) := by
        rw [← keeps_iff, hchange]
        simp
      simp [hchange, hkept, fail]

/-- The pieces of a function are added when it is an object. -/
theorem addFunction_iff (t t' : ToolCall) (value : Json) : t.addFunction value = .ok t' ↔
    ∃ function, dictOrEmpty value = some function ∧ t' = { t with
      name := t.name ++ (piece (function.get "name")).flatten
      arguments := t.arguments ++ piece (function.get "arguments") } := by
  rw [ToolCall.addFunction]
  cases dictOrEmpty value with
  | none => simp [fail]
  | some function => simp [eq_comm (b := t')]

/-- One more delta extends the tool call. -/
theorem viewTool_add_iff {calls : List Obj} (h : ToolOk calls) (call : Obj) (t : ToolCall) :
    (viewTool calls).add call = .ok t ↔
      ToolOk (calls ++ [call]) ∧ t = viewTool (calls ++ [call]) := by
  simp only [ToolCall.add, bind_eq_ok_iff, addId_iff, addType_iff, addFunction_iff]
  have hids := steady_piece _ h.ids (call.get "id")
  have htypes := steady_piece _ h.types (call.get "type")
  have hview (function : Obj) (hfunction : dictOrEmpty (call.get "function") = some function) :
      viewTool (calls ++ [call]) =
        { callId := (call.get "id").asStr.getD (viewTool calls).callId
          callType := (call.get "type").asStr.getD (viewTool calls).callType
          name := (viewTool calls).name ++ (piece (function.get "name")).flatten
          arguments := (viewTool calls).arguments ++ piece (function.get "arguments") } := by
    simp only [viewTool, functions, List.map_append, List.map_cons, List.map_nil, hfunction,
      Option.getD_some, texts_append, texts_singleton, getLastD_piece, List.flatten_append]
  constructor
  · rintro ⟨_, ⟨hid, rfl⟩, _, ⟨htype, rfl⟩, function, hfunction, rfl⟩
    refine ⟨⟨?_, ?_, ?_⟩, (hview function hfunction).symm⟩
    · intro other hother
      rcases List.mem_append.mp hother with hold | hnew
      · exact h.functions other hold
      · obtain rfl : other = call := by simpa using hnew
        simp [hfunction]
    · rw [texts_append, texts_singleton]
      exact hids.mpr hid
    · rw [texts_append, texts_singleton]
      exact htypes.mpr htype
  · rintro ⟨hok, rfl⟩
    obtain ⟨function, hfunction⟩ := Option.isSome_iff_exists.mp (hok.functions call (by simp))
    have hid := hok.ids
    have htype := hok.types
    rw [texts_append, texts_singleton] at hid htype
    exact ⟨_, ⟨hids.mp hid, rfl⟩, _, ⟨htypes.mp htype, rfl⟩, function, hfunction,
      hview function hfunction⟩

end Tool

section Delta

/-- A tool call delta with its index. -/
def readCall (value : Json) : Option (Int × Obj) := do
  let call ← value.asDict
  let index ← readIndex (call.get "index")
  return (index, call)

/-- The deltas of some choice deltas. -/
def deltas (entries : List Obj) : List Obj :=
  entries.map fun entry => (dictOrEmpty (entry.get "delta")).getD []

/-- The tool call deltas of a delta. -/
def deltaCalls (delta : Obj) : List Json := (listOrEmpty (delta.get "tool_calls")).getD []

/-- The tool call deltas of some choice deltas, with their indices. -/
def callsOf (entries : List Obj) : List (Int × Obj) :=
  (deltas entries).flatMap fun delta => (deltaCalls delta).filterMap readCall

/-- The choice that some deltas make. -/
def viewChoice (entries : List Obj) : Choice where
  role := (texts "role" (deltas entries)).getLastD "assistant"
  content := texts "content" (deltas entries)
  reasoning := texts "reasoning_content" (deltas entries)
  refusal := texts "refusal" (deltas entries)
  toolCalls := .ofGroups viewTool (callsOf entries)
  finishReason := (texts "finish_reason" entries).getLast?
  logprobs := (given "logprobs" entries).getLastD .null

/-- A choice delta of the right shape. -/
structure EntryOk (entry : Obj) : Prop where
  delta : (dictOrEmpty (entry.get "delta")).isSome = true
  calls : (listOrEmpty (((dictOrEmpty (entry.get "delta")).getD []).get "tool_calls")).isSome = true
  indices : ∀ call ∈ deltaCalls ((dictOrEmpty (entry.get "delta")).getD []),
    (readCall call).isSome = true
  finishReason : entry.get "finish_reason" = .null ∨
    ∃ reason, entry.get "finish_reason" = .str reason

/-- Deltas that make a choice. -/
structure ChoiceOk (entries : List Obj) : Prop where
  shape : ∀ entry ∈ entries, EntryOk entry
  tools : ∀ index, ToolOk (IntDict.group index (callsOf entries))

theorem choiceOk_nil : ChoiceOk [] := ⟨by simp, fun _ => toolOk_nil⟩

theorem viewTool_nil : viewTool [] = {} := by
  rfl

/-- One tool call delta extends the tool calls. -/
theorem addCall_iff {c : Choice} {items : List (Int × Obj)}
    (hview : c.toolCalls = .ofGroups viewTool items)
    (hok : ∀ index, ToolOk (IntDict.group index items)) (value : Json) (c' : Choice) :
    c.addCall value = .ok c' ↔ ∃ call, readCall value = some call ∧
      (∀ index, ToolOk (IntDict.group index (items ++ [call]))) ∧
      c' = { c with toolCalls := .ofGroups viewTool (items ++ [call]) } := by
  rw [Choice.addCall, readCall]
  cases hdict : value.asDict with
  | none => simp [fail]
  | some call =>
    cases hindex : readIndex (Obj.get call (lit "index")) with
    | none => simp [hindex, fail]
    | some index =>
      have hupdate (t : ToolCall) :
          (fun found : Option ToolCall => (found.getD {}).add call)
              ((IntDict.ofGroups viewTool items).find index) = .ok t ↔
            ToolOk (IntDict.group index items ++ [call]) ∧
              t = viewTool (IntDict.group index items ++ [call]) := by
        rw [← viewTool_add_iff (hok index)]
        simp only [IntDict.ofGroups]
        by_cases hnew : IntDict.group index items = []
        · simp [hnew, viewTool_nil]
        · simp [hnew]
      have hupsert := @IntDict.upsert_ofGroups_iff _ _ _ ToolOk viewTool items hok index call
        (fun found => (found.getD {}).add call) hupdate
      simp only [hview, bind_eq_ok_iff, hupsert, Option.bind_eq_bind, Option.bind_some,
        Option.pure_def, hindex, Option.some.injEq, exists_eq_left', pure_eq_ok, Except.ok.injEq]
      constructor
      · rintro ⟨toolCalls, ⟨htools, rfl⟩, rfl⟩
        exact ⟨htools, rfl⟩
      · rintro ⟨htools, rfl⟩
        exact ⟨_, ⟨htools, rfl⟩, rfl⟩

/-- The tool call deltas of a delta extend the tool calls. -/
theorem addCalls_iff {c : Choice} {items : List (Int × Obj)}
    (hview : c.toolCalls = .ofGroups viewTool items)
    (hok : ∀ index, ToolOk (IntDict.group index items)) (values : List Json) (c' : Choice) :
    c.addCalls values = .ok c' ↔ (∀ value ∈ values, (readCall value).isSome = true) ∧
      (∀ index, ToolOk (IntDict.group index (items ++ values.filterMap readCall))) ∧
      c' = { c with toolCalls := .ofGroups viewTool (items ++ values.filterMap readCall) } := by
  induction values generalizing c c' items with
  | nil =>
    simp only [Choice.addCalls, List.filterMap_nil, List.append_nil, ← hview, Except.ok.injEq,
      List.not_mem_nil, false_imp_iff, implies_true, true_and, hok]
    exact eq_comm
  | cons value rest ih =>
    simp only [Choice.addCalls, bind_eq_ok_iff, addCall_iff hview hok]
    constructor
    · rintro ⟨next, ⟨call, hcall, htools, rfl⟩, hrest⟩
      obtain ⟨hshape, htools, rfl⟩ := (ih rfl htools c').mp hrest
      simp only [List.filterMap_cons_some hcall]
      refine ⟨?_, by simpa using htools, by simp⟩
      simpa [hcall] using hshape
    · rintro ⟨hshape, htools, rfl⟩
      obtain ⟨call, hcall⟩ := Option.isSome_iff_exists.mp (hshape value (by simp))
      simp only [List.filterMap_cons_some hcall] at htools ⊢
      rw [List.append_cons] at htools ⊢
      have hfirst : ∀ index, ToolOk (IntDict.group index (items ++ [call])) := by
        intro index
        have hall := htools index
        rw [IntDict.group_append] at hall
        exact hall.of_append
      refine ⟨_, ⟨call, hcall, hfirst, rfl⟩, ?_⟩
      refine (ih rfl hfirst _).mpr ?_
      exact ⟨fun other hother => hshape other (by simp [hother]), htools, rfl⟩

/-- A finish reason is added when it is a string or missing. -/
theorem addFinishReason_iff (c c' : Choice) (value : Json) : c.addFinishReason value = .ok c' ↔
    (value = .null ∨ ∃ reason, value = .str reason) ∧
      c' = { c with finishReason := value.asStr.or c.finishReason } := by
  cases value <;> simp [Choice.addFinishReason, Json.asStr, fail, eq_comm (a := c'), Choice.ext_iff]

/-- The log probabilities after one more delta. -/
theorem addLogprobs_eq (c : Choice) (value : Json) :
    c.addLogprobs value = { c with logprobs := (present value).getLastD c.logprobs } := by
  cases value <;> simp [Choice.addLogprobs, present, isNone]

theorem viewChoice_nil : viewChoice [] = {} := by
  simp [viewChoice, deltas, texts, given, callsOf, IntDict.ofGroups_nil]

/-- One more delta extends the choice. -/
theorem viewChoice_add_iff {entries : List Obj} (h : ChoiceOk entries) (entry : Obj) (c : Choice) :
    (viewChoice entries).add entry = .ok c ↔
      ChoiceOk (entries ++ [entry]) ∧ c = viewChoice (entries ++ [entry]) := by
  have hcallsOf (delta : Obj) (hdelta : dictOrEmpty (entry.get "delta") = some delta) :
      callsOf (entries ++ [entry]) = callsOf entries ++ (deltaCalls delta).filterMap readCall := by
    simp [callsOf, deltas, hdelta]
  have hview (delta : Obj) (hdelta : dictOrEmpty (entry.get "delta") = some delta) :
      viewChoice (entries ++ [entry]) =
        ({ (viewChoice entries).addTexts delta with
          toolCalls := .ofGroups viewTool (callsOf entries ++ (deltaCalls delta).filterMap readCall)
          finishReason := (entry.get "finish_reason").asStr.or (viewChoice entries).finishReason
          logprobs := (present (entry.get "logprobs")).getLastD (viewChoice entries).logprobs } :
          Choice) := by
    rw [viewChoice, hcallsOf delta hdelta]
    simp only [viewChoice, Choice.addTexts, deltas, List.map_append, List.map_cons, List.map_nil,
      hdelta, Option.getD_some, texts_append, texts_singleton, given_append, given_singleton,
      getLastD_piece, Choice.mk.injEq, true_and]
    constructor
    · cases hreason : (entry.get (lit "finish_reason")).asStr <;> simp [piece, hreason]
    · cases hvalue : present (entry.get (lit "logprobs")) with
      | nil => simp
      | cons value rest => simp [List.getLastD_eq_getLast?, List.getLast?_append]
  rw [Choice.add]
  cases hdelta : dictOrEmpty (entry.get (lit "delta")) with
  | none =>
    simp only [fail, reduceCtorEq, false_iff, not_and]
    intro hok
    have := (hok.shape entry (by simp)).delta
    simp [hdelta] at this
  | some delta =>
    cases hcalls : listOrEmpty (delta.get (lit "tool_calls")) with
    | none =>
      simp only [hcalls, fail, reduceCtorEq, false_iff, not_and]
      intro hok
      have := (hok.shape entry (by simp)).calls
      simp [hdelta, hcalls] at this
    | some calls =>
      have hdeltaCalls : deltaCalls delta = calls := by simp [deltaCalls, hcalls]
      have hstart : ((viewChoice entries).addTexts delta).toolCalls =
          .ofGroups viewTool (callsOf entries) := rfl
      simp only [hcalls, bind_eq_ok_iff, addCalls_iff hstart h.tools, addFinishReason_iff,
        addLogprobs_eq, pure_eq_ok, Except.ok.injEq, hview delta hdelta, hdeltaCalls]
      constructor
      · rintro ⟨_, ⟨hshape, htools, rfl⟩, _, ⟨hreason, rfl⟩, rfl⟩
        refine ⟨⟨?_, ?_⟩, rfl⟩
        · intro other hother
          rcases List.mem_append.mp hother with hold | hnew
          · exact h.shape other hold
          · obtain rfl : other = entry := by simpa using hnew
            exact ⟨by simp [hdelta], by simp [hdelta, hcalls],
              by simpa [hdelta, hdeltaCalls] using hshape, hreason⟩
        · rw [hcallsOf delta hdelta, hdeltaCalls]
          exact htools
      · rintro ⟨hok, rfl⟩
        obtain ⟨-, -, hshape, hreason⟩ := hok.shape entry (by simp)
        have htools := hok.tools
        rw [hcallsOf delta hdelta, hdeltaCalls] at htools
        simp only [hdelta, Option.getD_some, hdeltaCalls] at hshape
        exact ⟨_, ⟨hshape, htools, rfl⟩, _, ⟨hreason, rfl⟩, rfl⟩

end Delta

end ChatStream

end OpenCollabEval
