import OpenCollabEval.ChatStream.Readback
import OpenCollabEval.ChatStream.Rechunking
import OpenCollabEval.Env
import OpenCollabEval.Python.JsonEquality

/-!
# The completion does not depend on the chunks

A stream that is chunked otherwise makes the same completion, whose strings are the concatenations
of the deltas in order. Only the spelling of an index is taken from the first delta of its choice:
`true` is the index 1, and it is written as it was read.
-/

open Python

namespace OpenCollabEval

namespace ChatStream

section Concatenation

/-- The concatenation of some pieces, if there are any. -/
def concatenation (parts : List Str) : Json := if parts.isEmpty then .null else .str parts.flatten

/-- The strings of a tool call are the concatenations of those of its deltas. -/
def CallConcatenates (calls : List Obj) (call : Json) : Prop :=
  ∃ fields function : Obj, call = .dict fields ∧ fields.get "function" = .dict function ∧
    function.get "name" = .str (texts "name" (functions calls)).flatten ∧
    function.get "arguments" = .str (texts "arguments" (functions calls)).flatten

/-- The strings of a choice are the concatenations of those of its deltas, and its tool calls are
those of its deltas by their indices. -/
def ChoiceConcatenates (entries : List Obj) (choice : Json) : Prop :=
  ∃ (fields message : Obj) (calls : List Json), choice = .dict fields ∧
    fields.get "message" = .dict message ∧
    message.get "content" = concatenation (texts "content" (deltas entries)) ∧
    message.get "reasoning_content" = concatenation (texts "reasoning_content" (deltas entries)) ∧
    message.get "refusal" = concatenation (texts "refusal" (deltas entries)) ∧
    listOrEmpty (message.get "tool_calls") = some calls ∧
    List.Forall₂ (fun index call => CallConcatenates (IntDict.group index (callsOf entries)) call)
      (IntDict.sortedKeys (callsOf entries)) calls

/-- The choices of a completion are those of the chunks by their indices, and their strings are the
concatenations of those of the deltas. -/
def Concatenates (chunks : List Obj) (completion : Obj) : Prop :=
  ∃ choices : List Json, completion.get "choices" = .list choices ∧
    List.Forall₂ (fun index choice => ChoiceConcatenates (choiceEntries chunks index) choice)
      (IntDict.sortedKeys (entriesOf chunks)) choices

theorem toolFinish_concatenates {calls : List Obj} {call : Json}
    (h : (viewTool calls).finish = .ok call) : CallConcatenates calls call := by
  rw [ToolCall.finish] at h
  by_cases hmissing : ((viewTool calls).callId.isEmpty || (viewTool calls).name.isEmpty) = true
  · rw [if_pos hmissing] at h
    cases h
  · rw [if_neg hmissing] at h
    obtain rfl := Except.ok.inj h
    refine ⟨_, [(lit "name", .str (viewTool calls).name),
      (lit "arguments", .str (viewTool calls).arguments.flatten)], rfl, ?_, ?_, ?_⟩
    · simp [lit_inj]
    · simp [viewTool]
    · simp [lit_inj, viewTool]

/-- The fields of a message. A string without pieces and an empty array of tool calls are null. -/
theorem get_message (c : Choice) (toolCalls : List Json) :
    Obj.get (c.message toolCalls) "content" = concatenation c.content ∧
      Obj.get (c.message toolCalls) "reasoning_content" = concatenation c.reasoning ∧
      Obj.get (c.message toolCalls) "refusal" = concatenation c.refusal ∧
      Obj.get (c.message toolCalls) "tool_calls" =
        if c.toolCalls.keys.isEmpty then .null else .list toolCalls := by
  simp only [Choice.message, concatenation]
  generalize c.reasoning.isEmpty = noReasoning
  generalize c.refusal.isEmpty = noRefusal
  generalize c.toolCalls.keys.isEmpty = noCalls
  cases noReasoning <;> cases noRefusal <;> cases noCalls <;>
    simp [lit_inj]

/-- A finished choice without its index. -/
theorem choiceFinish_shape {rt : Runtime} {label : Json} {entries : List Obj} {choice : Json}
    (h : (viewChoice entries).finish rt label = .ok choice) : ∃ rest : Obj,
      (∀ other, (viewChoice entries).finish rt other = .ok (.dict ((lit "index", other) :: rest))) ∧
      ∀ other, ChoiceConcatenates entries (.dict ((lit "index", other) :: rest)) := by
  simp only [Choice.finish] at h ⊢
  rcases hreason : (viewChoice entries).finishReason with _ | reason
  · simp [hreason, fail] at h
  rw [hreason] at h
  obtain ⟨toolCalls, hcalls, -⟩ := bind_eq_ok_iff.mp h
  refine ⟨_, fun other => by rw [hcalls]; rfl, fun other => ?_⟩
  have hpairs : List.Forall₂
      (fun index call => CallConcatenates (IntDict.group index (callsOf entries)) call)
      (IntDict.sortedKeys (callsOf entries)) toolCalls := by
    have hfinished := forall₂_of_mapM_eq_ok hcalls
    simp only [viewChoice, IntDict.sortedItems_ofGroups, List.forall₂_map_left_iff] at hfinished
    exact hfinished.imp fun _ _ => toolFinish_concatenates
  have hkeys : (viewChoice entries).toolCalls.keys = [] → toolCalls = [] := by
    intro hkeys
    have hsorted : (viewChoice entries).toolCalls.sortedItems = [] := by
      simp [IntDict.sortedItems, hkeys]
    rw [hsorted] at hcalls
    exact (Except.ok.inj hcalls).symm
  have hlist : listOrEmpty (if (viewChoice entries).toolCalls.keys.isEmpty then Json.null
      else .list toolCalls) = some toolCalls := by
    split_ifs with hempty
    · rw [hkeys (List.isEmpty_iff.mp hempty)]
      rfl
    · cases toolCalls <;> rfl
  obtain ⟨hcontent, hreasoning, hrefusal, htools⟩ := get_message (viewChoice entries) toolCalls
  refine ⟨_, (viewChoice entries).message toolCalls, toolCalls, rfl, ?_, hcontent, hreasoning,
    hrefusal, htools ▸ hlist, hpairs⟩
  simp [lit_inj]

end Concatenation

section Completion

/-- The index of a choice as the first delta of it spells it. -/
def spelling (chunks : List Obj) (index : Int) : Option Json :=
  (IntDict.group index (entriesOf chunks)).head?.map (·.1)

/-- The completion of some choices. -/
def completionOf (chunks : List Obj) (choices : List Json) : Obj :=
  (viewAggregate chunks).identity ++
    Obj.of [("object", .str "chat.completion"), ("choices", .list choices)] ++
    ((viewAggregate chunks).usage.map fun usage => (lit "usage", Json.dict usage)).toList

/-- The choices of a completion: each is what its deltas make under the index as it was spelled. -/
theorem complete_shape {rt : Runtime} {model : Str} {chunks : List Obj} {completion : Obj}
    (h : (viewAggregate chunks).complete rt true model = .ok completion) : ∃ rest : Int → Obj,
      (∀ index ∈ IntDict.sortedKeys (entriesOf chunks),
        (∀ label, (viewChoice (choiceEntries chunks index)).finish rt label =
          .ok (.dict ((lit "index", label) :: rest index))) ∧
        ∀ label, ChoiceConcatenates (choiceEntries chunks index)
          (.dict ((lit "index", label) :: rest index))) ∧
      completion = completionOf chunks ((IntDict.sortedKeys (entriesOf chunks)).map fun index =>
        .dict ((lit "index", (spelling chunks index).getD .null) :: rest index)) := by
  obtain ⟨choices, hchoices, rfl⟩ := complete_eq_ok h
  have hsorted : (viewAggregate chunks).choices.sortedItems =
      (IntDict.sortedKeys (entriesOf chunks)).map fun index => (index,
        ((spelling chunks index).getD .null, viewChoice (choiceEntries chunks index))) := by
    simp only [viewAggregate, IntDict.sortedItems_ofGroups]
    rfl
  rw [hsorted, List.mapM_map] at hchoices
  have hshape : ∀ index, ∃ rest : Obj, index ∈ IntDict.sortedKeys (entriesOf chunks) →
      (∀ label, (viewChoice (choiceEntries chunks index)).finish rt label =
        .ok (.dict ((lit "index", label) :: rest))) ∧
      ∀ label, ChoiceConcatenates (choiceEntries chunks index)
        (.dict ((lit "index", label) :: rest)) := by
    intro index
    by_cases hindex : index ∈ IntDict.sortedKeys (entriesOf chunks)
    · obtain ⟨choice, hchoice⟩ := (returns_mapM_iff.mp ⟨choices, hchoices⟩) index hindex
      obtain ⟨rest, hrest⟩ := choiceFinish_shape hchoice
      exact ⟨rest, fun _ => hrest⟩
    · exact ⟨[], fun hmem => absurd hmem hindex⟩
  choose rest hrest using hshape
  refine ⟨rest, hrest, ?_⟩
  have hall := mapM_eq_ok_map fun index hindex =>
    (hrest index hindex).1 ((spelling chunks index).getD .null)
  rw [completionOf, Except.ok.inj (hchoices.symm.trans hall)]

/-- Chunks that make the same completion do so together. -/
theorem SameStream.done {rt : Runtime} {model : Str} {chunks chunks' : List Obj}
    (h : SameStream chunks chunks') (hdone : StreamDone rt model chunks) :
    StreamDone rt model chunks' where
  choices := by
    intro hnone
    have hempty (index : Int) : choiceEntries chunks index = [] := by
      rw [(h.choices index).empty]
      simp [choiceEntries, hnone]
    obtain ⟨⟨index, entry⟩, rest, hfirst⟩ := List.exists_cons_of_ne_nil hdone.choices
    have hindex := hempty index
    simp [choiceEntries, hfirst] at hindex
  model := by
    have hidentity : (viewAggregate chunks).identity = (viewAggregate chunks').identity :=
      h.identity
    rw [← get_identity, ← hidentity, get_identity]
    exact hdone.model
  finished index hindex := by
    have hentries : choiceEntries chunks index ≠ [] := fun hnil =>
      hindex ((h.choices index).empty.mp hnil)
    have hfinish := (choiceFinish_returns_iff rt .null _).mpr (hdone.finished index hentries)
    rw [(h.choices index).finish_eq] at hfinish
    exact (choiceFinish_returns_iff rt .null _).mp hfinish

theorem sortedKeys_eq_of_same {chunks chunks' : List Obj} (h : SameStream chunks chunks') :
    IntDict.sortedKeys (entriesOf chunks) = IntDict.sortedKeys (entriesOf chunks') := by
  apply IntDict.sortedKeys_congr
  intro index
  have hempty := (h.choices index).empty
  rwa [choiceEntries, choiceEntries, List.map_eq_nil_iff, List.map_eq_nil_iff] at hempty

/-- Chunks that make the same completion make the same one for any choices. -/
theorem completionOf_eq_of_same {chunks chunks' : List Obj} (h : SameStream chunks chunks')
    (choices : List Json) : completionOf chunks choices = completionOf chunks' choices := by
  have hidentity : (viewAggregate chunks).identity = (viewAggregate chunks').identity := h.identity
  have husage : (viewAggregate chunks).usage = (viewAggregate chunks').usage := by
    simp only [viewAggregate, h.usage]
  rw [completionOf, completionOf, hidentity, husage]

/-- The first delta of a choice spells its index. -/
theorem exists_spelling {chunks : List Obj} {index : Int}
    (h : index ∈ IntDict.sortedKeys (entriesOf chunks)) :
    ∃ label, spelling chunks index = some label ∧ readIndex label = some index := by
  obtain ⟨⟨label, entry⟩, rest, hfirst⟩ :=
    List.exists_cons_of_ne_nil (IntDict.mem_sortedKeys.mp h)
  refine ⟨label, by rw [spelling, hfirst]; rfl, ?_⟩
  have hmem : (label, entry) ∈ IntDict.group index (entriesOf chunks) := by simp [hfirst]
  simp only [IntDict.group, List.mem_map, List.mem_filter, beq_iff_eq] at hmem
  obtain ⟨⟨other, pair⟩, ⟨hmem, rfl⟩, rfl⟩ := hmem
  exact readIndex_of_mem hmem

/-- Alike spellings are the same. -/
theorem eq_of_alike {label label' : Json} {index : Int} (hread : readIndex label = some index)
    (h : label.Alike label') : label = label' := by
  cases h with
  | refl => rfl
  | list => cases hread
  | dict => cases hread

/-- Two chunkings of the same deltas make completions that are equal up to the order of the keys
exactly when they spell all indices alike; then the completions are equal. -/
theorem complete_of_same {rt : Runtime} {model : Str} {chunks chunks' : List Obj} {completion : Obj}
    (hsame : SameStream chunks chunks')
    (h : (viewAggregate chunks).complete rt true model = .ok completion) : ∃ completion',
      (viewAggregate chunks').complete rt true model = .ok completion' ∧
      Concatenates chunks' completion' ∧
      ((Json.dict completion).Alike (.dict completion') →
        ∀ index, spelling chunks index = spelling chunks' index) ∧
      ((∀ index, spelling chunks index = spelling chunks' index) → completion = completion') := by
  have hdone := ((complete_returns_iff rt true model chunks).mp ⟨_, h⟩).2
  obtain ⟨completion', h'⟩ :=
    (complete_returns_iff rt true model chunks').mpr ⟨rfl, hsame.done hdone⟩
  obtain ⟨rest, hrest, rfl⟩ := complete_shape h
  obtain ⟨rest', hrest', rfl⟩ := complete_shape h'
  have hkeys := sortedKeys_eq_of_same hsame
  have hequal : ∀ index ∈ IntDict.sortedKeys (entriesOf chunks), rest' index = rest index := by
    intro index hindex
    have hold := (hrest index hindex).1 .null
    have hnew := (hrest' index (hkeys ▸ hindex)).1 .null
    rw [(hsame.choices index).finish_eq, hnew] at hold
    injection hold with hold
    injection hold with hold
    exact (List.cons.inj hold).2
  refine ⟨_, h', ⟨_, get_choices _ _ _, ?_⟩, fun halike index => ?_, fun hspelling => ?_⟩
  · rw [List.forall₂_map_right_iff, List.forall₂_same]
    exact fun index hindex => (hrest' index hindex).2 _
  · by_cases hindex : index ∈ IntDict.sortedKeys (entriesOf chunks)
    · obtain ⟨label, hlabel, hread⟩ := exists_spelling hindex
      obtain ⟨label', hlabel', -⟩ := exists_spelling (hkeys ▸ hindex)
      obtain ⟨i, hi⟩ := List.getElem?_of_mem hindex
      have hlists := halike.get_of_dict "choices"
      rw [completionOf, completionOf, get_choices, get_choices, ← hkeys] at hlists
      have hitems := hlists.getElem_of_list i (by rw [List.getElem?_map, hi]; rfl)
        (by rw [List.getElem?_map, hi]; rfl)
      have hfound := hitems.get_of_dict "index"
      simp only [Obj.get_cons, if_true, hlabel, hlabel', Option.getD_some] at hfound
      rw [hlabel, hlabel', eq_of_alike hread hfound]
    · have hempty : IntDict.group index (entriesOf chunks) = [] :=
        not_not.mp fun hne => hindex (IntDict.mem_sortedKeys.mpr hne)
      have hempty' : IntDict.group index (entriesOf chunks') = [] :=
        not_not.mp fun hne => hindex (hkeys ▸ IntDict.mem_sortedKeys.mpr hne)
      rw [spelling, spelling, hempty, hempty']
  · rw [completionOf_eq_of_same hsame, ← hkeys]
    congr 1
    apply List.map_congr_left
    intro index hindex
    rw [hequal index hindex, hspelling]

end Completion

section Stream

variable (rt : Runtime) (depth : Nat) (limit : Int) (expired : Nat → Bool) (expectedModel : Str)

/-- The object that `aggregate_chat_stream` writes. -/
def aggregateObject (stream : List Nat) : Except Failure Obj := do
  let (a, done) ← consume depth {} (events limit expired 0 0 [] (physicalLines stream))
  a.complete rt done expectedModel

/-- A stream is aggregated to an object, which is written in some bytes. -/
def Writes (stream : List Nat) (completion : Obj) (bytes : List Nat) : Prop :=
  aggregateObject rt depth limit expired expectedModel stream = .ok completion ∧
    encodeCompletion limit completion = .ok bytes

/-- The chunks of a stream. -/
def chunksOf (stream : List Nat) : List Obj :=
  match readChunks depth (payloads stream) with
  | .ok (chunks, _) => chunks.filterMap Json.asDict
  | .error _ => []

/-- The first delta of every choice spells the index of the choice alike in both streams. -/
def SameSpelling (stream stream' : List Nat) : Prop :=
  ∀ index, spelling (chunksOf depth stream) index = spelling (chunksOf depth stream') index

variable {rt depth limit expired expectedModel}

theorem aggregateChatStream_eq_ok_iff {stream bytes : List Nat} :
    aggregateChatStream rt depth limit expired expectedModel stream = .ok bytes ↔
      ∃ completion, Writes rt depth limit expired expectedModel stream completion bytes := by
  simp only [aggregateChatStream, Writes, aggregateObject, bind_eq_ok_iff]
  constructor
  · rintro ⟨⟨a, done⟩, ha, completion, hcompletion, hbytes⟩
    exact ⟨completion, ⟨_, ha, hcompletion⟩, hbytes⟩
  · rintro ⟨completion, ⟨⟨a, done⟩, ha, hcompletion⟩, hbytes⟩
    exact ⟨_, ha, completion, hcompletion, hbytes⟩

theorem chunksOf_of_readChunks {stream : List Nat} {chunks : List Obj} {done : Bool}
    (h : readChunks depth (payloads stream) = .ok (chunks.map .dict, done)) :
    chunksOf depth stream = chunks := by
  rw [chunksOf, h]
  dsimp only
  rw [List.filterMap_map]
  exact List.filterMap_some

/-- Below its limits a stream is aggregated as its chunks are. -/
theorem aggregateObject_eq_ok_iff (hexpired : ∀ n, expired n = false) {stream : List Nat}
    (hlimit : stream.length ≤ limit) {completion : Obj} :
    aggregateObject rt depth limit expired expectedModel stream = .ok completion ↔
      ∃ chunks, readChunks depth (payloads stream) = .ok (chunks.map .dict, true) ∧
        StreamOk chunks ∧
        (viewAggregate chunks).complete rt true expectedModel = .ok completion := by
  rw [aggregateObject, events_eq_payloads hexpired hlimit, bind_eq_ok_iff, ← viewAggregate_nil]
  constructor
  · rintro ⟨⟨a, done⟩, hconsume, hcomplete⟩
    obtain ⟨chunks, hread, hok, rfl⟩ := (consume_iff streamOk_nil _ _ _).mp hconsume
    obtain ⟨rfl, -⟩ := (complete_returns_iff rt done expectedModel _).mp ⟨_, hcomplete⟩
    exact ⟨chunks, hread, hok, hcomplete⟩
  · rintro ⟨chunks, hread, hok, hcomplete⟩
    exact ⟨_, (consume_iff streamOk_nil _ _ _).mpr ⟨chunks, hread, hok, rfl⟩, hcomplete⟩

/-- Streams that are aggregated to alike objects spell the indices alike. -/
theorem sameSpelling_of_alike {limit' : Int} {expired' : Nat → Bool} {stream stream' : List Nat}
    (hexpired : ∀ n, expired n = false) (hexpired' : ∀ n, expired' n = false)
    (hlimit : stream.length ≤ limit) (hlimit' : stream'.length ≤ limit')
    (hrechunked : Relation.ReflTransGen (Rechunks depth) stream stream')
    {completion completion' : Obj}
    (h : aggregateObject rt depth limit expired expectedModel stream = .ok completion)
    (h' : aggregateObject rt depth limit' expired' expectedModel stream' = .ok completion')
    (halike : (Json.dict completion).Alike (.dict completion')) :
    SameSpelling depth stream stream' := by
  obtain ⟨chunks, hread, hok, hcomplete⟩ := (aggregateObject_eq_ok_iff hexpired hlimit).mp h
  obtain ⟨found, hfound, -, hcomplete'⟩ := (aggregateObject_eq_ok_iff hexpired' hlimit').mp h'
  obtain ⟨chunks', hread', -, hsame⟩ := read_of_rechunks hrechunked hread hok
  have hchunks : found = chunks' :=
    (chunksOf_of_readChunks hfound).symm.trans (chunksOf_of_readChunks hread')
  obtain ⟨other, hother, -, hspelling, -⟩ := complete_of_same hsame hcomplete
  rw [← hchunks, hcomplete'] at hother
  obtain rfl := Except.ok.inj hother
  rw [SameSpelling, chunksOf_of_readChunks hread, chunksOf_of_readChunks hread']
  exact hspelling halike

/-- A stream that is accepted and a stream that is chunked otherwise, both below the limits, are
aggregated to objects that are equal up to the order of the keys, and whose strings are the
concatenations of the deltas, exactly when they spell the indices of the choices alike. -/
theorem rechunked_iff {limit' : Int} {expired' : Nat → Bool} {stream stream' bytes : List Nat}
    (haccepted : aggregateChatStream rt depth limit expired expectedModel stream = .ok bytes)
    (hexpired : ∀ n, expired n = false) (hexpired' : ∀ n, expired' n = false)
    (hlimit : stream.length ≤ limit) (hlimit' : stream'.length ≤ limit')
    (hbytes : bytes.length ≤ limit')
    (hrechunked : Relation.ReflTransGen (Rechunks depth) stream stream') :
    (∃ completion completion' bytes',
      Writes rt depth limit expired expectedModel stream completion bytes ∧
      Writes rt depth limit' expired' expectedModel stream' completion' bytes' ∧
      (Json.dict completion).Alike (.dict completion') ∧
      Concatenates (chunksOf depth stream') completion') ↔ SameSpelling depth stream stream' := by
  obtain ⟨completion, hobject, hencode⟩ := aggregateChatStream_eq_ok_iff.mp haccepted
  obtain ⟨chunks, hread, hok, hcomplete⟩ := (aggregateObject_eq_ok_iff hexpired hlimit).mp hobject
  obtain ⟨chunks', hread', hok', hsame⟩ := read_of_rechunks hrechunked hread hok
  obtain ⟨completion', hcomplete', hconcatenates, -, hequal⟩ := complete_of_same hsame hcomplete
  have hobject' := (aggregateObject_eq_ok_iff hexpired' hlimit').mpr
    ⟨chunks', hread', hok', hcomplete'⟩
  constructor
  · rintro ⟨found, found', bytes', ⟨hfound, -⟩, ⟨hfound', -⟩, halike, -⟩
    exact sameSpelling_of_alike hexpired hexpired' hlimit hlimit' hrechunked hfound hfound' halike
  · intro hspelling
    rw [SameSpelling, chunksOf_of_readChunks hread, chunksOf_of_readChunks hread'] at hspelling
    obtain rfl := hequal hspelling
    rw [← chunksOf_of_readChunks hread'] at hconcatenates
    refine ⟨completion, completion, bytes, ⟨hobject, hencode⟩, ⟨hobject', ?_⟩, .refl _,
      hconcatenates⟩
    -- the bytes fit into the other limit too
    rw [encodeCompletion] at hencode ⊢
    cases hwritten : Str.encode (DumpFormat.compact.dumpsUnescaped (.dict completion)) with
    | error err =>
      rw [hwritten] at hencode
      cases hencode
    | ok encoded =>
      rw [hwritten] at hencode
      dsimp only at hencode ⊢
      split_ifs at hencode
      · cases hencode
      · cases hencode
        rw [if_neg (by omega)]

end Stream

section Sample

/-- The payload of a chunk. -/
def payloadOf (chunk : Obj) : Str := DumpFormat.compact.dumpsUnescaped (.dict chunk)

/-- The event of a payload. -/
def eventOf (data : Str) : List Nat := lit "data: " ++ data ++ lit "\n\n"

/-- The stream of some chunks. -/
def streamOf (chunks : List Obj) : List Nat :=
  (chunks.flatMap fun chunk => eventOf (payloadOf chunk)) ++ eventOf (lit "[DONE]")

/-- A chunk of one delta. -/
def chunkOf (fields entry : Obj) : Obj := fields ++ [(lit "choices", .list [.dict entry])]

/-- A choice delta with a piece of the content. -/
def contentEntry (content : Str) (fields : Obj) : Obj :=
  (lit "delta", .dict [(lit "content", .str content)]) :: fields

/-- A delta with the whole content. -/
def wholeEntry : Obj := contentEntry "ab" [(lit "finish_reason", .str "stop")]

/-- A delta with the last piece of the content. -/
def lastEntry : Obj := contentEntry "b" [(lit "finish_reason", .str "stop")]

/-- A chunk with the whole content. -/
def wholeChunk : Obj := chunkOf [(lit "model", .str "m")] wholeEntry

/-- A chunk with the first piece of the content. -/
def firstChunk : Obj := chunkOf [(lit "model", .str "m")] (contentEntry "a" [])

/-- A chunk with the last piece of the content. -/
def lastChunk : Obj := chunkOf [] lastEntry

theorem splitsEntry_sample : SplitsEntry wholeEntry (contentEntry "a" []) lastEntry where
  shape := by
    have hentry (content : Str) (fields : Obj)
        (hdelta : (contentEntry content fields).get "delta" = .dict [(lit "content", .str content)])
        (hcalls : deltaCalls [(lit "content", .str content)] = [])
        (hlist : (listOrEmpty (Obj.get [(lit "content", .str content)] "tool_calls")).isSome = true)
        (hreason : (contentEntry content fields).get "finish_reason" = .null ∨
          ∃ reason, (contentEntry content fields).get "finish_reason" = .str reason) :
        EntryOk (contentEntry content fields) := by
      have hdict : dictOrEmpty ((contentEntry content fields).get "delta") =
          some [(lit "content", .str content)] := by
        rw [hdelta]
        rfl
      refine ⟨by rw [hdict]; rfl, ?_, ?_, hreason⟩
      · rw [hdict]
        exact hlist
      · rw [hdict, Option.getD_some, hcalls]
        simp
    have hfirst := hentry "a" [] (by decide) (by decide) (by decide) (.inl (by decide))
    have hlast := hentry "b" [(lit "finish_reason", .str "stop")] (by decide) (by decide)
      (by decide) (.inr ⟨lit "stop", by decide⟩)
    intro entry hentry
    rcases List.mem_cons.mp hentry with rfl | hentry
    · exact hfirst
    · obtain rfl := List.mem_singleton.mp hentry
      exact hlast
  role := by decide
  finishReason := by decide
  logprobs := by decide
  parts := by
    have hnone : callsOf [wholeEntry] = [] ∧ callsOf [contentEntry "a" [], lastEntry] = [] := by
      decide
    refine .inl ⟨⟨"content", by decide, ⟨"a", "b", by decide, by decide⟩, by decide⟩,
      fun index => ?_⟩
    rw [hnone.1, hnone.2]

/-- The content of the sample is split in two. -/
theorem splits_sample : Splits wholeChunk firstChunk lastChunk where
  shape := by
    have hchunk (fields entry : Obj) (herror : (chunkOf fields entry).get "error" = .null)
        (husage : (chunkOf fields entry).get "usage" = .null)
        (hchoices : chunkChoices (chunkOf fields entry) = [.dict entry])
        (hlist : (listOrEmpty ((chunkOf fields entry).get "choices")).isSome = true)
        (hread : (readEntry 0 (.dict entry)).isSome = true) : ChunkOk (chunkOf fields entry) :=
      ⟨herror, .inl husage, hlist, by rw [hchoices]; simpa using hread⟩
    exact ⟨hchunk _ _ (by decide) (by decide) (by decide) (by decide) (by decide),
      hchunk _ _ (by decide) (by decide) (by decide) (by decide) (by decide)⟩
  identity := by decide
  repeated := by
    have hnone : identityFields identityKeys lastChunk = [] := by decide
    simp [Repeats, hnone]
  usage := by decide
  choice := by
    have hwhole : entriesOf [wholeChunk] = [(0, (.int 0, wholeEntry))] := by decide
    have hparts : entriesOf [firstChunk, lastChunk] =
        [(0, (.int 0, contentEntry "a" [])), (0, (.int 0, lastEntry))] := by decide
    refine ⟨0, ⟨[], wholeEntry, contentEntry "a" [], lastEntry, [], ?_, ?_, ?_⟩, ?_⟩
    · rw [choiceEntries, hwhole]
      rfl
    · rw [choiceEntries, hparts]
      rfl
    · exact splitsEntry_sample
    · intro other hother
      rw [choiceEntries, choiceEntries, hwhole, hparts, IntDict.group_cons_of_ne hother.symm,
        IntDict.group_cons_of_ne hother.symm, IntDict.group_cons_of_ne hother.symm]

theorem rechunks_sample :
    Rechunks 10 (streamOf [wholeChunk]) (streamOf [firstChunk, lastChunk]) := by
  have hloads : loads 10 (payloadOf wholeChunk) = .ok (.dict wholeChunk) ∧
      loads 10 (payloadOf firstChunk) = .ok (.dict firstChunk) ∧
      loads 10 (payloadOf lastChunk) = .ok (.dict lastChunk) := by
    decide +kernel
  have hpayloads : payloads (streamOf [wholeChunk]) =
        [.ok (payloadOf wholeChunk), .ok (lit "[DONE]")] ∧
      payloads (streamOf [firstChunk, lastChunk]) =
        [.ok (payloadOf firstChunk), .ok (payloadOf lastChunk), .ok (lit "[DONE]")] := by
    decide +kernel
  exact .split [] [.ok (lit "[DONE]")] _ _ _ _ _ _ hpayloads.1 hpayloads.2 hloads.1 hloads.2.1
    hloads.2.2 splits_sample

/-- The index of the sample is not spelled at all. -/
theorem sameSpelling_sample :
    SameSpelling 10 (streamOf [wholeChunk]) (streamOf [firstChunk, lastChunk]) := by
  have hchunks : chunksOf 10 (streamOf [wholeChunk]) = [wholeChunk] ∧
      chunksOf 10 (streamOf [firstChunk, lastChunk]) = [firstChunk, lastChunk] := by
    decide +kernel
  have hwhole : entriesOf [wholeChunk] = [(0, (.int 0, wholeEntry))] := by decide
  have hparts : entriesOf [firstChunk, lastChunk] =
      [(0, (.int 0, contentEntry "a" [])), (0, (.int 0, lastEntry))] := by decide
  intro index
  rw [hchunks.1, hchunks.2, spelling, spelling, hwhole, hparts]
  by_cases hindex : index = 0
  · rw [hindex]
    rfl
  · simp only [IntDict.group_cons_of_ne (Ne.symm hindex), IntDict.group_nil, List.head?_nil,
      Option.map_none]

/-- The sample has one completion, however its content is split. -/
theorem split_sample_agrees :
    Relation.ReflTransGen (Rechunks 10) (streamOf [wholeChunk]) (streamOf [firstChunk, lastChunk]) ∧
      ∃ completion completion' bytes bytes',
        Writes asciiEnv.toRuntime 10 1000 (fun _ => false) "m" (streamOf [wholeChunk]) completion
          bytes ∧
        Writes asciiEnv.toRuntime 10 1000 (fun _ => false) "m" (streamOf [firstChunk, lastChunk])
          completion' bytes' ∧
        (Json.dict completion).Alike (.dict completion') ∧
        Concatenates (chunksOf 10 (streamOf [firstChunk, lastChunk])) completion' := by
  have hrechunks := Relation.ReflTransGen.single rechunks_sample
  obtain ⟨bytes, haccepted, hbytes⟩ : ∃ bytes, aggregateChatStream asciiEnv.toRuntime 10 1000
      (fun _ => false) "m" (streamOf [wholeChunk]) = .ok bytes ∧ (bytes.length : Int) ≤ 1000 := by
    have hany : ((aggregateChatStream asciiEnv.toRuntime 10 1000 (fun _ => false) "m"
        (streamOf [wholeChunk])).toOption.any fun bytes =>
          decide ((bytes.length : Int) ≤ 1000)) = true := by
      decide +kernel
    obtain ⟨bytes, haccepted, hshort⟩ := exists_of_any_toOption hany
    exact ⟨bytes, haccepted, of_decide_eq_true hshort⟩
  obtain ⟨completion, completion', bytes', h⟩ := (rechunked_iff haccepted (fun _ => rfl)
    (fun _ => rfl) (by decide +kernel) (by decide +kernel) hbytes hrechunks).mpr sameSpelling_sample
  exact ⟨hrechunks, completion, completion', bytes, bytes', h⟩

/-- A chunk of one tool call delta. -/
def callChunk (index : Json) (call : Obj) : Obj :=
  chunkOf [] [(lit "index", index), (lit "delta", .dict [(lit "tool_calls", .list [.dict call])])]

/-- A tool call delta. -/
def callDelta (index : Int) (callId name : Str) : Obj :=
  [(lit "index", .int index), (lit "id", .str callId),
    (lit "function", .dict [(lit "name", .str name)])]

/-- A chunk of the first tool call, which writes the index of its choice as `true`. -/
def firstCall : Obj := callChunk (.bool true) (callDelta 0 "a" "f")

/-- A chunk of the second tool call of the same choice. -/
def secondCall : Obj := callChunk (.int 1) (callDelta 1 "b" "g")

/-- The last chunk of the choice. -/
def endChunk : Obj := chunkOf [(lit "model", .str "m")]
  [(lit "index", .int 1), (lit "finish_reason", .str "tool_calls")]

/-- A choice without deltas is touched nowhere. -/
theorem apart_nil (entries : List Obj) : Apart [] entries :=
  ⟨fun _ _ => .inl rfl, .inl rfl, .inl rfl, fun _ => .inl rfl⟩

/-- The two chunks touch different tool calls. -/
theorem swaps_sample : Swaps firstCall secondCall where
  identity := by decide
  usage := by decide
  apart index := by
    obtain ⟨first, hfirst, hfirstCalls, hfirstTexts⟩ : ∃ entry,
        entriesOf [firstCall] = [(1, (.bool true, entry))] ∧
        callsOf [entry] = [(0, callDelta 0 "a" "f")] ∧
        (∀ key ∈ lit "role" :: textKeys, texts key (deltas [entry]) = []) ∧
        texts "finish_reason" [entry] = [] ∧ given "logprobs" [entry] = [] :=
      ⟨[(lit "index", .bool true), (lit "delta", .dict [(lit "tool_calls",
        .list [.dict (callDelta 0 "a" "f")])])], by decide, by decide, by decide, by decide,
        by decide⟩
    obtain ⟨second, hsecond, hsecondCalls⟩ : ∃ entry,
        entriesOf [secondCall] = [(1, (.int 1, entry))] ∧
        callsOf [entry] = [(1, callDelta 1 "b" "g")] :=
      ⟨[(lit "index", .int 1), (lit "delta", .dict [(lit "tool_calls",
        .list [.dict (callDelta 1 "b" "g")])])], by decide, by decide⟩
    rw [choiceEntries, choiceEntries, hfirst, hsecond]
    by_cases hindex : index = 1
    · rw [hindex, IntDict.group_cons_self, IntDict.group_cons_self]
      refine ⟨fun key hkey => .inl (hfirstTexts.1 key hkey), .inl hfirstTexts.2.1,
        .inl hfirstTexts.2.2, fun call => ?_⟩
      by_cases hcall : call = 0
      · right
        show IntDict.group call (callsOf [second]) = []
        rw [hsecondCalls, hcall, IntDict.group_cons_of_ne (by decide), IntDict.group_nil]
      · left
        show IntDict.group call (callsOf [first]) = []
        rw [hfirstCalls, IntDict.group_cons_of_ne (Ne.symm hcall), IntDict.group_nil]
    · rw [IntDict.group_cons_of_ne (Ne.symm hindex), IntDict.group_cons_of_ne (Ne.symm hindex)]
      exact apart_nil _

theorem rechunks_swapped : Rechunks 10 (streamOf [firstCall, secondCall, endChunk])
    (streamOf [secondCall, firstCall, endChunk]) := by
  have hloads : loads 10 (payloadOf firstCall) = .ok (.dict firstCall) ∧
      loads 10 (payloadOf secondCall) = .ok (.dict secondCall) := by
    decide +kernel
  have hpayloads : payloads (streamOf [firstCall, secondCall, endChunk]) =
        [.ok (payloadOf firstCall), .ok (payloadOf secondCall), .ok (payloadOf endChunk),
          .ok (lit "[DONE]")] ∧
      payloads (streamOf [secondCall, firstCall, endChunk]) =
        [.ok (payloadOf secondCall), .ok (payloadOf firstCall), .ok (payloadOf endChunk),
          .ok (lit "[DONE]")] := by
    decide +kernel
  exact .swap [] [.ok (payloadOf endChunk), .ok (lit "[DONE]")] _ _ _ _ hpayloads.1 hpayloads.2
    hloads.1 hloads.2 swaps_sample

/-- Two deltas of one choice for different tool calls are swapped, and the index of the choice is
written `1` instead of `true`. -/
theorem swapped_call_respells : Rechunks 10 (streamOf [firstCall, secondCall, endChunk])
      (streamOf [secondCall, firstCall, endChunk]) ∧
    (∃ bytes, aggregateChatStream asciiEnv.toRuntime 10 1000 (fun _ => false) "m"
      (streamOf [firstCall, secondCall, endChunk]) = .ok bytes) ∧
    ¬∃ completion completion' bytes bytes',
      Writes asciiEnv.toRuntime 10 1000 (fun _ => false) "m"
        (streamOf [firstCall, secondCall, endChunk]) completion bytes ∧
      Writes asciiEnv.toRuntime 10 1000 (fun _ => false) "m"
        (streamOf [secondCall, firstCall, endChunk]) completion' bytes' ∧
      (Json.dict completion).Alike (.dict completion') := by
  refine ⟨rechunks_swapped, ?_, ?_⟩
  · have hany : ((aggregateChatStream asciiEnv.toRuntime 10 1000 (fun _ => false) "m"
        (streamOf [firstCall, secondCall, endChunk])).toOption.any fun _ => true) = true := by
      decide +kernel
    obtain ⟨bytes, haccepted, -⟩ := exists_of_any_toOption hany
    exact ⟨bytes, haccepted⟩
  · rintro ⟨completion, completion', bytes, bytes', ⟨h, -⟩, ⟨h', -⟩, halike⟩
    have hspelling := sameSpelling_of_alike (fun _ => rfl) (fun _ => rfl) (by decide +kernel)
      (by decide +kernel) (.single rechunks_swapped) h h' halike 1
    have hdiffers : spelling (chunksOf 10 (streamOf [firstCall, secondCall, endChunk])) 1 ≠
        spelling (chunksOf 10 (streamOf [secondCall, firstCall, endChunk])) 1 := by
      decide +kernel
    exact hdiffers hspelling

end Sample

end ChatStream

end OpenCollabEval
