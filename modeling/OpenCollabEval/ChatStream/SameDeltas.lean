import OpenCollabEval.ChatStream.Completion

/-!
# Deltas that make the same choice

What a choice becomes depends on its deltas only through the concatenation of its strings, on
whether there are any, and on the order of the deltas for one field or one tool call. Lists of
deltas that agree in this make the same choice.
-/

open Python

namespace Python

/-- Calls that agree on all items agree on the list. -/
theorem mapM_congr {α β ε : Type} {f g : α → Except ε β} {items : List α}
    (h : ∀ item ∈ items, f item = g item) : items.mapM f = items.mapM g := by
  induction items with
  | nil => rfl
  | cons item rest ih =>
    obtain ⟨hitem, hrest⟩ := List.forall_mem_cons.mp h
    rw [List.mapM_cons, List.mapM_cons, hitem, ih hrest]

/-- A dictionary of groups is empty when all groups are. -/
theorem IntDict.keys_ofGroups_eq_nil_iff {α β : Type} (view : List β → α) (items : List (Int × β)) :
    (ofGroups view items).keys = [] ↔ ∀ key, group key items = [] := by
  simp only [ofGroups, List.eq_nil_iff_forall_not_mem (l := (items.map (·.1)).eraseDups),
    List.mem_eraseDups, group_eq_nil_iff]

end Python

namespace OpenCollabEval

namespace ChatStream

section Texts

/-- The same text in other pieces. A text without pieces is no text. -/
structure SameText (parts parts' : List Str) : Prop where
  flatten : parts.flatten = parts'.flatten
  empty : parts = [] ↔ parts' = []

theorem SameText.refl (parts : List Str) : SameText parts parts := ⟨rfl, .rfl⟩

theorem SameText.trans {parts parts' parts'' : List Str} (h : SameText parts parts')
    (h' : SameText parts' parts'') : SameText parts parts'' :=
  ⟨h.flatten.trans h'.flatten, h.empty.trans h'.empty⟩

theorem SameText.append {parts parts' others others' : List Str} (h : SameText parts parts')
    (hothers : SameText others others') : SameText (parts ++ others) (parts' ++ others') := by
  refine ⟨?_, ?_⟩
  · rw [List.flatten_append, List.flatten_append, h.flatten, hothers.flatten]
  · rw [List.append_eq_nil_iff, List.append_eq_nil_iff, h.empty, hothers.empty]

end Texts

section Calls

/-- The functions of some tool call deltas are objects. -/
def FunctionsOk (calls : List Obj) : Prop :=
  ∀ call ∈ calls, (dictOrEmpty (call.get "function")).isSome = true

/-- Deltas that make the same tool call. -/
structure SameCalls (calls calls' : List Obj) : Prop where
  shape : FunctionsOk calls → FunctionsOk calls'
  ids : texts "id" calls = texts "id" calls'
  types : texts "type" calls = texts "type" calls'
  names : texts "name" (functions calls) = texts "name" (functions calls')
  arguments : (texts "arguments" (functions calls)).flatten =
    (texts "arguments" (functions calls')).flatten
  empty : calls = [] ↔ calls' = []

variable {calls calls' : List Obj}

theorem SameCalls.refl (calls : List Obj) : SameCalls calls calls := ⟨id, rfl, rfl, rfl, rfl, .rfl⟩

theorem SameCalls.trans {calls'' : List Obj} (h : SameCalls calls calls')
    (h' : SameCalls calls' calls'') : SameCalls calls calls'' :=
  ⟨h'.shape ∘ h.shape, h.ids.trans h'.ids, h.types.trans h'.types, h.names.trans h'.names,
    h.arguments.trans h'.arguments, h.empty.trans h'.empty⟩

theorem SameCalls.append {others others' : List Obj} (h : SameCalls calls calls')
    (hothers : SameCalls others others') : SameCalls (calls ++ others) (calls' ++ others') := by
  refine ⟨?_, ?_, ?_, ?_, ?_, ?_⟩
  · intro hok
    rw [FunctionsOk, List.forall_mem_append] at hok ⊢
    exact ⟨h.shape hok.1, hothers.shape hok.2⟩
  · rw [texts_append, texts_append, h.ids, hothers.ids]
  · rw [texts_append, texts_append, h.types, hothers.types]
  · simp only [functions, List.map_append, texts_append]
    exact congrArg₂ _ h.names hothers.names
  · simp only [functions, List.map_append, texts_append, List.flatten_append]
    exact congrArg₂ _ h.arguments hothers.arguments
  · rw [List.append_eq_nil_iff, List.append_eq_nil_iff, h.empty, hothers.empty]

/-- The other deltas are accepted too. -/
theorem SameCalls.toolOk (h : SameCalls calls calls') (hok : ToolOk calls) : ToolOk calls' where
  functions := h.shape hok.functions
  ids := h.ids ▸ hok.ids
  types := h.types ▸ hok.types

theorem SameCalls.finish_eq (h : SameCalls calls calls') :
    (viewTool calls).finish = (viewTool calls').finish := by
  have hid : (viewTool calls).callId = (viewTool calls').callId := by
    simp only [viewTool, h.ids]
  have htype : (viewTool calls).callType = (viewTool calls').callType := by
    simp only [viewTool, h.types]
  have hname : (viewTool calls).name = (viewTool calls').name := by
    simp only [viewTool, h.names]
  have harguments : (viewTool calls).arguments.flatten = (viewTool calls').arguments.flatten :=
    h.arguments
  rw [ToolCall.finish, ToolCall.finish, hid, htype, hname, harguments]

end Calls

section Entries

/-- Choice deltas of the right shape. -/
def EntriesOk (entries : List Obj) : Prop := ∀ entry ∈ entries, EntryOk entry

/-- Deltas that make the same choice. -/
structure SameEntries (entries entries' : List Obj) : Prop where
  shape : EntriesOk entries → EntriesOk entries'
  empty : entries = [] ↔ entries' = []
  role : texts "role" (deltas entries) = texts "role" (deltas entries')
  content : SameText (texts "content" (deltas entries)) (texts "content" (deltas entries'))
  reasoning : SameText (texts "reasoning_content" (deltas entries))
    (texts "reasoning_content" (deltas entries'))
  refusal : SameText (texts "refusal" (deltas entries)) (texts "refusal" (deltas entries'))
  finishReason : texts "finish_reason" entries = texts "finish_reason" entries'
  logprobs : given "logprobs" entries = given "logprobs" entries'
  tools : ∀ index, SameCalls (IntDict.group index (callsOf entries))
    (IntDict.group index (callsOf entries'))

variable {entries entries' : List Obj}

theorem SameEntries.refl (entries : List Obj) : SameEntries entries entries :=
  ⟨id, .rfl, rfl, .refl _, .refl _, .refl _, rfl, rfl, fun _ => .refl _⟩

theorem SameEntries.trans {entries'' : List Obj} (h : SameEntries entries entries')
    (h' : SameEntries entries' entries'') : SameEntries entries entries'' where
  shape := h'.shape ∘ h.shape
  empty := h.empty.trans h'.empty
  role := h.role.trans h'.role
  content := h.content.trans h'.content
  reasoning := h.reasoning.trans h'.reasoning
  refusal := h.refusal.trans h'.refusal
  finishReason := h.finishReason.trans h'.finishReason
  logprobs := h.logprobs.trans h'.logprobs
  tools index := (h.tools index).trans (h'.tools index)

@[simp]
theorem deltas_append (entries others : List Obj) :
    deltas (entries ++ others) = deltas entries ++ deltas others := by
  simp [deltas]

@[simp]
theorem callsOf_append (entries others : List Obj) :
    callsOf (entries ++ others) = callsOf entries ++ callsOf others := by
  simp [callsOf]

theorem SameEntries.append {others others' : List Obj} (h : SameEntries entries entries')
    (hothers : SameEntries others others') :
    SameEntries (entries ++ others) (entries' ++ others') := by
  refine ⟨?_, ?_, ?_, ?_, ?_, ?_, ?_, ?_, fun index => ?_⟩
  · intro hok
    rw [EntriesOk, List.forall_mem_append] at hok ⊢
    exact ⟨h.shape hok.1, hothers.shape hok.2⟩
  · rw [List.append_eq_nil_iff, List.append_eq_nil_iff, h.empty, hothers.empty]
  · simp only [deltas_append, texts_append, h.role, hothers.role]
  · simp only [deltas_append, texts_append]
    exact h.content.append hothers.content
  · simp only [deltas_append, texts_append]
    exact h.reasoning.append hothers.reasoning
  · simp only [deltas_append, texts_append]
    exact h.refusal.append hothers.refusal
  · simp only [texts_append, h.finishReason, hothers.finishReason]
  · simp only [given_append, h.logprobs, hothers.logprobs]
  · simp only [callsOf_append, IntDict.group_append]
    exact (h.tools index).append (hothers.tools index)

/-- The other deltas are accepted too. -/
theorem SameEntries.choiceOk (h : SameEntries entries entries') (hok : ChoiceOk entries) :
    ChoiceOk entries' where
  shape := h.shape hok.shape
  tools index := (h.tools index).toolOk (hok.tools index)

/-- The finished tool calls are the same. -/
theorem SameEntries.toolCalls_eq (h : SameEntries entries entries') :
    ((viewChoice entries).toolCalls.sortedItems.mapM fun item => item.2.finish) =
      (viewChoice entries').toolCalls.sortedItems.mapM fun item => item.2.finish := by
  have hkeys := IntDict.sortedKeys_congr fun index => (h.tools index).empty
  simp only [viewChoice, IntDict.sortedItems_ofGroups, List.mapM_map, hkeys]
  exact mapM_congr fun index _ => (h.tools index).finish_eq

/-- There are tool calls on both sides or on none. -/
theorem SameEntries.keys_isEmpty_eq (h : SameEntries entries entries') :
    (viewChoice entries).toolCalls.keys.isEmpty = (viewChoice entries').toolCalls.keys.isEmpty := by
  rw [Bool.eq_iff_iff, List.isEmpty_iff, List.isEmpty_iff, viewChoice, viewChoice,
    IntDict.keys_ofGroups_eq_nil_iff, IntDict.keys_ofGroups_eq_nil_iff]
  exact forall_congr' fun index => (h.tools index).empty

theorem SameText.isEmpty_eq {parts parts' : List Str} (h : SameText parts parts') :
    parts.isEmpty = parts'.isEmpty := by
  rw [Bool.eq_iff_iff, List.isEmpty_iff, List.isEmpty_iff]
  exact h.empty

/-- The finished choices are the same. -/
theorem SameEntries.finish_eq (h : SameEntries entries entries') (rt : Runtime) (label : Json) :
    (viewChoice entries).finish rt label = (viewChoice entries').finish rt label := by
  have hmessage (toolCalls : List Json) :
      (viewChoice entries).message toolCalls = (viewChoice entries').message toolCalls := by
    have hrole : (viewChoice entries).role = (viewChoice entries').role := by
      simp only [viewChoice, h.role]
    have hcontent : (viewChoice entries).content.isEmpty = (viewChoice entries').content.isEmpty :=
      h.content.isEmpty_eq
    have hreasoning :
        (viewChoice entries).reasoning.isEmpty = (viewChoice entries').reasoning.isEmpty :=
      h.reasoning.isEmpty_eq
    have hrefusal : (viewChoice entries).refusal.isEmpty = (viewChoice entries').refusal.isEmpty :=
      h.refusal.isEmpty_eq
    have hcontent' : (viewChoice entries).content.flatten = (viewChoice entries').content.flatten :=
      h.content.flatten
    have hreasoning' :
        (viewChoice entries).reasoning.flatten = (viewChoice entries').reasoning.flatten :=
      h.reasoning.flatten
    have hrefusal' : (viewChoice entries).refusal.flatten = (viewChoice entries').refusal.flatten :=
      h.refusal.flatten
    rw [Choice.message, Choice.message, h.keys_isEmpty_eq, hrole, hcontent, hreasoning, hrefusal,
      hcontent', hreasoning', hrefusal']
  have hreason : (viewChoice entries).finishReason = (viewChoice entries').finishReason := by
    simp only [viewChoice, h.finishReason]
  have hlogprobs : (viewChoice entries).logprobs = (viewChoice entries').logprobs := by
    simp only [viewChoice, h.logprobs]
  simp only [Choice.finish, hreason, h.toolCalls_eq, hmessage, hlogprobs]

end Entries

end ChatStream

end OpenCollabEval
