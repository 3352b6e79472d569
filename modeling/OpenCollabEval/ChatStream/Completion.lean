import OpenCollabEval.ChatStream.StreamView
import OpenCollabEval.Python.JsonClean

/-!
# The completion of a stream

When the chunks of a stream make a completion, and when the completion can be written: both are read off
the deltas of each choice and of each tool call.
-/

open Python

namespace OpenCollabEval

namespace ChatStream

/-- What holds of all results of a sequence of calls holds of all calls. -/
theorem forall_results_iff {α β ε : Type} {f : α → Except ε β} {items : List α} {results : List β}
    (h : items.mapM f = .ok results) {P : β → Prop} {Q : α → Prop}
    (hiff : ∀ a ∈ items, ∀ b, f a = .ok b → (P b ↔ Q a)) :
    (∀ b ∈ results, P b) ↔ ∀ a ∈ items, Q a := by
  have hpairs := forall₂_of_mapM_eq_ok h
  clear h
  induction hpairs with
  | nil => simp
  | cons hab _ ih =>
    have hrest := ih fun a ha => hiff a (List.mem_cons_of_mem _ ha)
    rw [List.forall_mem_cons, List.forall_mem_cons]
    exact and_congr (hiff _ List.mem_cons_self _ hab) hrest

section Tool

/-- Deltas that make a complete tool call. -/
structure ToolDone (calls : List Obj) : Prop where
  id : (texts "id" calls).getLastD [] ≠ []
  name : (texts "name" (functions calls)).flatten ≠ []

/-- What a tool call keeps of its deltas can be encoded. -/
structure ToolClean (calls : List Obj) : Prop where
  id : Str.Clean ((texts "id" calls).getLastD [])
  type : Str.Clean ((texts "type" calls).getLastD [])
  names : ∀ name ∈ texts "name" (functions calls), Str.Clean name
  arguments : ∀ part ∈ texts "arguments" (functions calls), Str.Clean part

theorem toolFinish_returns_iff (calls : List Obj) :
    Returns (viewTool calls).finish ↔ ToolDone calls := by
  rw [ToolCall.finish]
  by_cases hmissing : ((viewTool calls).callId.isEmpty || (viewTool calls).name.isEmpty) = true
  · rw [if_pos hmissing]
    simp only [fail, not_returns_error, false_iff]
    rintro ⟨hid, hname⟩
    simp only [viewTool, Bool.or_eq_true, List.isEmpty_iff] at hmissing
    exact hmissing.elim hid hname
  · rw [if_neg hmissing]
    simp only [returns_ok, true_iff]
    simp only [viewTool, Bool.or_eq_true, List.isEmpty_iff, not_or] at hmissing
    exact ⟨hmissing.1, hmissing.2⟩

/-- The keys that the completion adds are clean. -/
theorem clean_lit_of {s : String} (h : ∀ c ∈ lit s, c < 128) : Str.Clean (lit s) := .of_small h

theorem toolFinish_clean_iff {calls : List Obj} {v : Json} (h : (viewTool calls).finish = .ok v) :
    v.Clean ↔ ToolClean calls := by
  rw [ToolCall.finish] at h
  by_cases hmissing : ((viewTool calls).callId.isEmpty || (viewTool calls).name.isEmpty) = true
  · rw [if_pos hmissing] at h
    cases h
  rw [if_neg hmissing] at h
  obtain rfl := Except.ok.inj h
  have hid : Str.Clean (lit "id") := clean_lit_of (by decide)
  have htype : Str.Clean (lit "type") := clean_lit_of (by decide)
  have hfunction : Str.Clean (lit "function") := clean_lit_of (by decide)
  have hname : Str.Clean (lit "name") := clean_lit_of (by decide)
  have harguments : Str.Clean (lit "arguments") := clean_lit_of (by decide)
  have hdefault (type : Str) :
      Str.Clean (if type.isEmpty then lit "function" else type) ↔ type.Clean := by
    by_cases hempty : type = []
    · simp [hempty, hfunction, Str.Clean.nil]
    · simp [hempty]
  simp only [Json.clean_dict_iff, List.forall_mem_cons, List.not_mem_nil, false_imp_iff,
    implies_true, and_true, Json.clean_str_iff, hid, htype, hfunction, hname, harguments, true_and,
    viewTool, Str.Clean.flatten_iff]
  constructor
  · rintro ⟨hid, htype, hnames, hparts⟩
    exact ⟨hid, (hdefault _).mp htype, hnames, hparts⟩
  · rintro ⟨hid, htype, hnames, hparts⟩
    exact ⟨hid, (hdefault _).mpr htype, hnames, hparts⟩

end Tool

section Choice

/-- Deltas that make a complete choice. -/
structure ChoiceDone (entries : List Obj) : Prop where
  finishReason : texts "finish_reason" entries ≠ []
  tools : ∀ index, IntDict.group index (callsOf entries) ≠ [] →
    ToolDone (IntDict.group index (callsOf entries))

/-- What a choice keeps of its deltas can be encoded. -/
structure ChoiceClean (entries : List Obj) : Prop where
  role : Str.Clean ((texts "role" (deltas entries)).getLastD "assistant")
  content : ∀ part ∈ texts "content" (deltas entries), Str.Clean part
  reasoning : ∀ part ∈ texts "reasoning_content" (deltas entries), Str.Clean part
  refusal : ∀ part ∈ texts "refusal" (deltas entries), Str.Clean part
  finishReason : ∀ reason ∈ (texts "finish_reason" entries).getLast?, Str.Clean reason
  logprobs : ((given "logprobs" entries).getLastD .null).Clean
  tools : ∀ index, ToolClean (IntDict.group index (callsOf entries))

/-- The finished tool calls of a choice. -/
theorem sortedCalls_iff (entries : List Obj) {P : List Obj → Prop} :
    (∀ item ∈ (viewChoice entries).toolCalls.sortedItems, ∃ calls, item.2 = viewTool calls ∧
      IntDict.group item.1 (callsOf entries) = calls ∧ calls ≠ [] ∧ P calls) ↔
    ∀ index, IntDict.group index (callsOf entries) ≠ [] →
      P (IntDict.group index (callsOf entries)) := by
  constructor
  · intro h index hindex
    have hmem : (index, viewTool (IntDict.group index (callsOf entries))) ∈
        (viewChoice entries).toolCalls.sortedItems :=
      IntDict.mem_sortedItems_ofGroups.mpr ⟨hindex, rfl⟩
    obtain ⟨calls, -, rfl, -, hP⟩ := h _ hmem
    exact hP
  · rintro h ⟨index, t⟩ hitem
    obtain ⟨hindex, rfl⟩ := IntDict.mem_sortedItems_ofGroups.mp hitem
    exact ⟨_, rfl, rfl, hindex, h index hindex⟩

theorem choiceFinish_returns_iff (rt : Runtime) (label : Json) (entries : List Obj) :
    Returns ((viewChoice entries).finish rt label) ↔ ChoiceDone entries := by
  have htools : Returns ((viewChoice entries).toolCalls.sortedItems.mapM
      fun item => item.2.finish) ↔ ∀ index, IntDict.group index (callsOf entries) ≠ [] →
        ToolDone (IntDict.group index (callsOf entries)) := by
    rw [returns_mapM_iff, ← sortedCalls_iff]
    refine forall₂_congr fun item hitem => ?_
    obtain ⟨index, t⟩ := item
    obtain ⟨hindex, rfl⟩ := IntDict.mem_sortedItems_ofGroups.mp hitem
    rw [toolFinish_returns_iff]
    constructor
    · exact fun h => ⟨_, rfl, rfl, hindex, h⟩
    · rintro ⟨_, _, hcalls, _, h⟩
      exact hcalls ▸ h
  rw [Choice.finish]
  rcases hreason : (viewChoice entries).finishReason with _ | reason
  · simp only [fail, not_returns_error, false_iff]
    rintro ⟨hfinish, -⟩
    simp only [viewChoice, List.getLast?_eq_none_iff] at hreason
    exact hfinish hreason
  · simp only [returns_bind_iff, pure_eq_ok, returns_ok, and_true]
    change Returns _ ↔ _
    rw [htools]
    refine ⟨fun h => ⟨?_, h⟩, fun h => h.tools⟩
    intro hempty
    simp [viewChoice, hempty] at hreason

theorem choiceFinish_clean_iff {rt : Runtime} {label : Json} (hlabel : label.Clean)
    {entries : List Obj} {v : Json} (h : (viewChoice entries).finish rt label = .ok v) :
    v.Clean ↔ ChoiceClean entries := by
  rw [Choice.finish] at h
  rcases hreason : (viewChoice entries).finishReason with _ | reason
  · simp [hreason, fail] at h
  rw [hreason] at h
  obtain ⟨toolCalls, hcalls, h⟩ := bind_eq_ok_iff.mp h
  obtain rfl := Except.ok.inj h
  have htools : (∀ call ∈ toolCalls, call.Clean) ↔
      ∀ index, ToolClean (IntDict.group index (callsOf entries)) := by
    rw [forall_results_iff hcalls (Q := fun item => ToolClean (IntDict.group item.1
      (callsOf entries)))]
    · constructor
      · intro hall index
        by_cases hindex : IntDict.group index (callsOf entries) = []
        · rw [hindex]
          exact ⟨by simp [texts, Str.Clean], by simp [texts, Str.Clean], by simp [texts, functions],
            by simp [texts, functions]⟩
        · exact hall (index, viewTool (IntDict.group index (callsOf entries)))
            (IntDict.mem_sortedItems_ofGroups.mpr ⟨hindex, rfl⟩)
      · exact fun hall item _ => hall item.1
    · rintro ⟨index, t⟩ hitem v hv
      obtain ⟨-, rfl⟩ := IntDict.mem_sortedItems_ofGroups.mp hitem
      exact toolFinish_clean_iff hv
  have hnone : (viewChoice entries).toolCalls.keys = [] → toolCalls = [] := by
    intro hkeys
    have hsorted : (viewChoice entries).toolCalls.sortedItems = [] := by
      simp [IntDict.sortedItems, hkeys]
    rw [hsorted] at hcalls
    exact (Except.ok.inj hcalls).symm
  have hrole : Str.Clean (lit "role") := clean_lit_of (by decide)
  have hcontent : Str.Clean (lit "content") := clean_lit_of (by decide)
  have hreasoning : Str.Clean (lit "reasoning_content") := clean_lit_of (by decide)
  have hrefusal : Str.Clean (lit "refusal") := clean_lit_of (by decide)
  have hcallsKey : Str.Clean (lit "tool_calls") := clean_lit_of (by decide)
  have hindexKey : Str.Clean (lit "index") := clean_lit_of (by decide)
  have hmessage : Str.Clean (lit "message") := clean_lit_of (by decide)
  have hfinish : Str.Clean (lit "finish_reason") := clean_lit_of (by decide)
  have hlogprobs : Str.Clean (lit "logprobs") := clean_lit_of (by decide)
  have hoptional (key : String) (hkey : Str.Clean (lit key)) (parts : List Str) :
      (∀ entry ∈ Obj.of (if parts.isEmpty then [] else [(key, Json.str parts.flatten)]),
        Str.Clean entry.1 ∧ entry.2.Clean) ↔ ∀ part ∈ parts, Str.Clean part := by
    cases parts with
    | nil => simp
    | cons part rest => simp [hkey]
  have htext (parts : List Str) :
      (if parts.isEmpty then Json.null else .str parts.flatten).Clean ↔
        ∀ part ∈ parts, Str.Clean part := by
    cases parts with
    | nil => simp
    | cons part rest => simp
  have hcallsEntry : (∀ entry ∈ Obj.of (if (viewChoice entries).toolCalls.keys.isEmpty then []
      else [("tool_calls", Json.list toolCalls)]), Str.Clean entry.1 ∧ entry.2.Clean) ↔
      ∀ call ∈ toolCalls, call.Clean := by
    by_cases hkeys : (viewChoice entries).toolCalls.keys = []
    · simp [hkeys, hnone hkeys]
    · simp [hkeys, hcallsKey]
  have hlast : Str.Clean reason ↔
      ∀ reason ∈ (texts (lit "finish_reason") entries).getLast?, Str.Clean reason := by
    have hview : (texts (lit "finish_reason") entries).getLast? = some reason := hreason
    simp [hview]
  simp only [Json.clean_dict_iff, List.forall_mem_cons, List.not_mem_nil, false_imp_iff,
    implies_true, and_true, hindexKey, hmessage, hfinish, hlogprobs, true_and, hlabel,
    Json.clean_str_iff, hlast]
  rw [Choice.message]
  simp only [List.forall_mem_append, hoptional _ hreasoning, hoptional _ hrefusal, hcallsEntry,
    htools]
  simp only [Obj.of_cons, Obj.of_nil, List.forall_mem_cons, List.not_mem_nil, false_imp_iff,
    implies_true, and_true, hrole, hcontent, true_and, Json.clean_str_iff, htext]
  constructor
  · rintro ⟨⟨⟨⟨⟨hrole, hcontent⟩, hreasoning⟩, hrefusal⟩, htools⟩, hlast, hprobs⟩
    exact ⟨hrole, hcontent, hreasoning, hrefusal, hlast, hprobs, htools⟩
  · rintro ⟨hrole, hcontent, hreasoning, hrefusal, hlast, hprobs, htools⟩
    exact ⟨⟨⟨⟨⟨hrole, hcontent⟩, hreasoning⟩, hrefusal⟩, htools⟩, hlast, hprobs⟩

end Choice

section Stream

/-- The identity fields of some chunks, in order. -/
abbrev identityUpdates (chunks : List Obj) : Obj := chunks.flatMap (identityFields identityKeys)

/-- The deltas of a choice. -/
def choiceEntries (chunks : List Obj) (index : Int) : List Obj :=
  (IntDict.group index (entriesOf chunks)).map (·.2)

/-- Chunks that make a completion of a model. -/
structure StreamDone (rt : Runtime) (model : Str) (chunks : List Obj) : Prop where
  choices : entriesOf chunks ≠ []
  model : modelMatches rt model ((valuesOf "model" (identityUpdates chunks)).getLastD .null) = true
  finished : ∀ index, choiceEntries chunks index ≠ [] → ChoiceDone (choiceEntries chunks index)

/-- What a completion keeps of its chunks can be encoded. -/
structure StreamClean (chunks : List Obj) : Prop where
  identity : ∀ key, ∀ value ∈ (valuesOf key (identityUpdates chunks)).getLast?, value.Clean
  usage : ∀ usage ∈ (given "usage" chunks).getLast?, usage.Clean
  choices : ∀ index, ChoiceClean (choiceEntries chunks index)

/-- The label of a choice is an index. -/
theorem readIndex_of_mem {chunks : List Obj} {index : Int} {label : Json} {entry : Obj}
    (h : (index, (label, entry)) ∈ entriesOf chunks) : readIndex label = some index := by
  obtain ⟨chunk, -, h⟩ := List.mem_flatMap.mp h
  obtain ⟨⟨value, position⟩, -, h⟩ := List.mem_filterMap.mp h
  simp only [readEntry, Option.bind_eq_bind, Option.bind_eq_some_iff, Option.pure_def,
    Option.some.injEq, Prod.mk.injEq] at h
  obtain ⟨other, -, found, hfound, rfl, rfl, rfl⟩ := h
  exact hfound

/-- An index is clean. -/
theorem clean_of_readIndex {label : Json} {index : Int} (h : readIndex label = some index) :
    label.Clean := by
  cases label with
  | int n => exact .int n
  | bool b => exact .bool b
  | _ => simp [readIndex] at h

/-- The finished choices of a stream, each with its label. -/
theorem mem_sortedChoices {chunks : List Obj} {index : Int} {label : Json} {choice : Choice}
    (h : (index, (label, choice)) ∈ (viewAggregate chunks).choices.sortedItems) :
    choiceEntries chunks index ≠ [] ∧ choice = viewChoice (choiceEntries chunks index) ∧
      readIndex label = some index := by
  obtain ⟨hgroup, hview⟩ := IntDict.mem_sortedItems_ofGroups.mp h
  obtain ⟨rfl, rfl⟩ := Prod.mk.inj hview
  refine ⟨by simpa [choiceEntries] using hgroup, rfl, ?_⟩
  obtain ⟨⟨first, entry⟩, rest, hfirst⟩ := List.exists_cons_of_ne_nil hgroup
  have hmem : (first, entry) ∈ IntDict.group index (entriesOf chunks) := by simp [hfirst]
  simp only [IntDict.group, List.mem_map, List.mem_filter, beq_iff_eq] at hmem
  obtain ⟨⟨other, pair⟩, ⟨hmem, rfl⟩, rfl⟩ := hmem
  rw [hfirst]
  exact readIndex_of_mem hmem

/-- A choice with deltas is finished. -/
theorem exists_mem_sortedChoices {chunks : List Obj} {index : Int}
    (h : choiceEntries chunks index ≠ []) : ∃ label,
      (index, (label, viewChoice (choiceEntries chunks index))) ∈
        (viewAggregate chunks).choices.sortedItems := by
  have hgroup : IntDict.group index (entriesOf chunks) ≠ [] := by
    simpa [choiceEntries] using h
  exact ⟨_, IntDict.mem_sortedItems_ofGroups.mpr ⟨hgroup, rfl⟩⟩

theorem get_identity (chunks : List Obj) (key : Str) :
    (viewAggregate chunks).identity.get key =
      (valuesOf key (identityUpdates chunks)).getLastD .null := by
  rw [Obj.get, viewAggregate, lookup_ofPairs, List.getLastD_eq_getLast?]

/-- A stream without choice deltas has no choice. -/
theorem keys_eq_nil_iff (chunks : List Obj) :
    (viewAggregate chunks).choices.keys = [] ↔ entriesOf chunks = [] := by
  simp only [viewAggregate, IntDict.ofGroups]
  cases entriesOf chunks with
  | nil => simp
  | cons entry rest => simp [List.eraseDups_cons]

theorem complete_returns_iff (rt : Runtime) (done : Bool) (model : Str) (chunks : List Obj) :
    Returns ((viewAggregate chunks).complete rt done model) ↔
      done = true ∧ StreamDone rt model chunks := by
  have hchoices : Returns ((viewAggregate chunks).choices.sortedItems.mapM
      fun item => item.2.2.finish rt item.2.1) ↔
      ∀ index, choiceEntries chunks index ≠ [] → ChoiceDone (choiceEntries chunks index) := by
    rw [returns_mapM_iff]
    constructor
    · intro h index hindex
      obtain ⟨label, hmem⟩ := exists_mem_sortedChoices hindex
      exact (choiceFinish_returns_iff rt label _).mp (h _ hmem)
    · rintro h ⟨index, label, choice⟩ hmem
      obtain ⟨hindex, rfl, -⟩ := mem_sortedChoices hmem
      exact (choiceFinish_returns_iff rt label _).mpr (h index hindex)
  rw [Aggregate.complete, get_identity]
  split_ifs with hdone hempty hmodel
  · simp only [fail, not_returns_error, false_iff, not_and]
    intro htrue
    simp [htrue] at hdone
  · simp only [fail, not_returns_error, false_iff, not_and]
    rw [List.isEmpty_iff, keys_eq_nil_iff] at hempty
    exact fun _ h => h.choices hempty
  · simp only [fail, not_returns_error, false_iff, not_and]
    intro _ h
    rw [h.model] at hmodel
    simp at hmodel
  · rw [List.isEmpty_iff, keys_eq_nil_iff] at hempty
    simp only [Bool.not_eq_true', Bool.not_eq_false] at hdone hmodel
    simp only [returns_bind_iff, pure_eq_ok, returns_ok, and_true]
    change Returns _ ↔ _
    rw [hchoices]
    exact ⟨fun h => ⟨hdone, hempty, hmodel, h⟩, fun h => h.2.finished⟩

/-- The parts of a completion. -/
theorem complete_eq_ok {rt : Runtime} {done : Bool} {model : Str} {a : Aggregate} {completion : Obj}
    (h : a.complete rt done model = .ok completion) : ∃ choices,
      (a.choices.sortedItems.mapM fun item => item.2.2.finish rt item.2.1) = .ok choices ∧
      completion = a.identity ++
        Obj.of [("object", .str "chat.completion"), ("choices", .list choices)] ++
        (a.usage.map fun usage => (lit "usage", Json.dict usage)).toList := by
  rw [Aggregate.complete] at h
  split_ifs at h
  · cases h
  · cases h
  · cases h
  obtain ⟨choices, hchoices, h⟩ := bind_eq_ok_iff.mp h
  exact ⟨choices, hchoices, (Except.ok.inj h).symm⟩

/-- The keys of the identity are identity keys. -/
theorem key_of_mem_identity {chunks : List Obj} {entry : Str × Json}
    (h : entry ∈ (viewAggregate chunks).identity) : entry.1 ∈ identityKeys := by
  have hmem := (Obj.ofPairs_spec _).2 entry h
  obtain ⟨chunk, -, hmem⟩ := List.mem_flatMap.mp hmem
  obtain ⟨key, hkey, hmem⟩ := List.mem_flatMap.mp hmem
  obtain ⟨value, -, rfl⟩ := List.mem_map.mp hmem
  exact hkey

/-- The entries of the identity are the last values of its keys. -/
theorem mem_identity_iff {chunks : List Obj} {key : Str} {value : Json} :
    (key, value) ∈ (viewAggregate chunks).identity ↔
      (valuesOf key (identityUpdates chunks)).getLast? = some value := by
  rw [← lookup_ofPairs]
  exact (Obj.lookup_eq_some_iff_mem (Obj.ofPairs_spec _).1).symm

theorem clean_of_mem_identityKeys {key : Str} (h : key ∈ identityKeys) : Str.Clean key := by
  have hkeys : ∀ key ∈ identityKeys, ∀ c ∈ key, c < 128 := by decide
  exact .of_small (hkeys key h)

theorem complete_clean_iff {rt : Runtime} {done : Bool} {model : Str} {chunks : List Obj}
    (hok : StreamOk chunks) {completion : Obj}
    (h : (viewAggregate chunks).complete rt done model = .ok completion) :
    (Json.dict completion).Clean ↔ StreamClean chunks := by
  obtain ⟨choices, hchoices, rfl⟩ := complete_eq_ok h
  have hlist : (∀ choice ∈ choices, choice.Clean) ↔
      ∀ index, ChoiceClean (choiceEntries chunks index) := by
    rw [forall_results_iff hchoices (Q := fun item => ChoiceClean (choiceEntries chunks item.1))]
    · constructor
      · intro hall index
        by_cases hindex : choiceEntries chunks index = []
        · rw [hindex]
          have hassistant : Str.Clean (lit "assistant") := clean_lit_of (by decide)
          have htool : ToolClean [] := ⟨by simp [texts, Str.Clean], by simp [texts, Str.Clean],
            by simp [texts, functions], by simp [texts, functions]⟩
          exact ⟨by simpa [texts, deltas] using hassistant, by simp [texts, deltas],
            by simp [texts, deltas], by simp [texts, deltas], by simp [texts], by simp [given],
            fun _ => by simpa [callsOf, deltas] using htool⟩
        · obtain ⟨label, hmem⟩ := exists_mem_sortedChoices hindex
          exact hall _ hmem
      · exact fun hall item _ => hall item.1
    · rintro ⟨index, label, choice⟩ hmem v hv
      obtain ⟨-, rfl, hlabel⟩ := mem_sortedChoices hmem
      exact choiceFinish_clean_iff (clean_of_readIndex hlabel) hv
  have hidentity : (∀ entry ∈ (viewAggregate chunks).identity, Str.Clean entry.1 ∧ entry.2.Clean) ↔
      ∀ key, ∀ value ∈ (valuesOf key (identityUpdates chunks)).getLast?, value.Clean := by
    constructor
    · intro hall key value hvalue
      exact (hall (key, value) (mem_identity_iff.mpr hvalue)).2
    · rintro hall ⟨key, value⟩ hmem
      exact ⟨clean_of_mem_identityKeys (key_of_mem_identity hmem),
        hall key value (mem_identity_iff.mp hmem)⟩
  have husageKey : Str.Clean (lit "usage") := clean_lit_of (by decide)
  have husage : (∀ entry ∈ ((viewAggregate chunks).usage.map fun usage =>
      (lit "usage", Json.dict usage)).toList, Str.Clean entry.1 ∧ entry.2.Clean) ↔
      ∀ usage ∈ (given "usage" chunks).getLast?, usage.Clean := by
    simp only [viewAggregate]
    rcases hlast : (given (lit "usage") chunks).getLast? with _ | usage
    · simp
    · -- the usage that was read last is an object
      have hmem : usage ∈ given (lit "usage") chunks := List.mem_of_getLast? hlast
      obtain ⟨chunk, hchunk, hpresent⟩ := List.mem_flatMap.mp hmem
      have hvalue : usage = chunk.get (lit "usage") := by
        rw [present] at hpresent
        split_ifs at hpresent
        · simp at hpresent
        · simpa using hpresent
      have hdict : ∃ entries, usage = .dict entries := by
        rcases (hok.shape chunk hchunk).usage with hnull | ⟨entries, hentries⟩
        · simp [hnull, present, isNone] at hpresent
        · exact ⟨entries, hvalue.trans hentries⟩
      obtain ⟨entries, rfl⟩ := hdict
      simp [Json.asDict, husageKey]
  have hobject : Str.Clean (lit "object") := clean_lit_of (by decide)
  have hkind : Str.Clean (lit "chat.completion") := clean_lit_of (by decide)
  have hkey : Str.Clean (lit "choices") := clean_lit_of (by decide)
  simp only [Json.clean_dict_iff, List.forall_mem_append, hidentity, husage, Obj.of_cons, Obj.of_nil,
    List.forall_mem_cons, List.not_mem_nil, false_imp_iff, implies_true, and_true, hobject, hkey,
    Json.clean_str_iff, hkind, Json.clean_list_iff, hlist, true_and]
  constructor
  · rintro ⟨⟨hidentity, hchoices⟩, husage⟩
    exact ⟨hidentity, husage, hchoices⟩
  · rintro ⟨hidentity, husage, hchoices⟩
    exact ⟨⟨hidentity, hchoices⟩, husage⟩

end Stream

end ChatStream

end OpenCollabEval
