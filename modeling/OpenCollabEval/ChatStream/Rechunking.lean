import OpenCollabEval.ChatStream.Framing
import OpenCollabEval.ChatStream.SameDeltas

/-!
# Other chunks for the same deltas

How a provider may chunk a stream otherwise: a string is split into two deltas, comment lines and
empty chunks are inserted, a payload is cut into several data lines, and chunks that touch different
parts of the choices are swapped. Each of them keeps what the stream makes.
-/

open Python

namespace OpenCollabEval

namespace ChatStream

section Deltas

/-- The keys of the strings of a delta that are concatenated. -/
def textKeys : List Str := ["content", "reasoning_content", "refusal"]

/-- One string is split in two. -/
def SplitsText (parts parts' : List Str) : Prop :=
  ∃ front back, parts = [front ++ back] ∧ parts' = [front, back]

/-- A tool call delta whose arguments are split in two. Its other fields stand in one of the two. -/
structure SplitsCall (call first second : Obj) : Prop where
  shape : FunctionsOk [first, second]
  ids : texts "id" [call] = texts "id" [first, second]
  types : texts "type" [call] = texts "type" [first, second]
  names : texts "name" (functions [call]) = texts "name" (functions [first, second])
  arguments : SplitsText (texts "arguments" (functions [call]))
    (texts "arguments" (functions [first, second]))

/-- One item of a group is replaced by two. -/
def SplitsGroup {β : Type} (splits : β → β → β → Prop) (group group' : List β) : Prop :=
  ∃ before item first second after, group = before ++ item :: after ∧
    group' = before ++ first :: second :: after ∧ splits item first second

/-- A choice delta one of whose strings is split in two. Its other fields stand in one of the
two. -/
structure SplitsEntry (entry first second : Obj) : Prop where
  shape : EntriesOk [first, second]
  role : texts "role" (deltas [entry]) = texts "role" (deltas [first, second])
  finishReason : texts "finish_reason" [entry] = texts "finish_reason" [first, second]
  logprobs : given "logprobs" [entry] = given "logprobs" [first, second]
  parts :
    ((∃ key ∈ textKeys,
        SplitsText (texts key (deltas [entry])) (texts key (deltas [first, second])) ∧
        ∀ other ∈ textKeys, other ≠ key →
          texts other (deltas [entry]) = texts other (deltas [first, second])) ∧
      ∀ index, IntDict.group index (callsOf [entry]) =
        IntDict.group index (callsOf [first, second])) ∨
    ((∀ key ∈ textKeys, texts key (deltas [entry]) = texts key (deltas [first, second])) ∧
      ∃ index, SplitsGroup SplitsCall (IntDict.group index (callsOf [entry]))
          (IntDict.group index (callsOf [first, second])) ∧
        ∀ other, other ≠ index → IntDict.group other (callsOf [entry]) =
          IntDict.group other (callsOf [first, second]))

/-- Deltas of one choice that touch different fields and different tool calls. -/
structure Apart (entries others : List Obj) : Prop where
  texts : ∀ key ∈ lit "role" :: textKeys,
    texts key (deltas entries) = [] ∨ texts key (deltas others) = []
  finishReason : ChatStream.texts "finish_reason" entries = [] ∨
    ChatStream.texts "finish_reason" others = []
  logprobs : given "logprobs" entries = [] ∨ given "logprobs" others = []
  tools : ∀ index, IntDict.group index (callsOf entries) = [] ∨
    IntDict.group index (callsOf others) = []

/-- A split text is the same text. -/
theorem SplitsText.sameText {parts parts' : List Str} (h : SplitsText parts parts') :
    SameText parts parts' := by
  obtain ⟨front, back, rfl, rfl⟩ := h
  exact ⟨by simp, by simp⟩

theorem sameText_of_eq {parts parts' : List Str} (h : parts = parts') : SameText parts parts' :=
  h ▸ .refl _

theorem SplitsCall.sameCalls {call first second : Obj} (h : SplitsCall call first second) :
    SameCalls [call] [first, second] :=
  ⟨fun _ => h.shape, h.ids, h.types, h.names, h.arguments.sameText.flatten, by simp⟩

/-- Deltas around the split ones are the same. -/
theorem SplitsGroup.sameCalls {calls calls' : List Obj} (h : SplitsGroup SplitsCall calls calls') :
    SameCalls calls calls' := by
  obtain ⟨before, call, first, second, after, rfl, rfl, hsplit⟩ := h
  have hafter := (hsplit.sameCalls.append (.refl after))
  exact (SameCalls.refl before).append hafter

theorem SplitsEntry.sameEntries {entry first second : Obj} (h : SplitsEntry entry first second) :
    SameEntries [entry] [first, second] := by
  obtain ⟨htexts, htools⟩ : (∀ key ∈ textKeys, SameText (texts key (deltas [entry]))
      (texts key (deltas [first, second]))) ∧ ∀ index, SameCalls
        (IntDict.group index (callsOf [entry]))
        (IntDict.group index (callsOf [first, second])) := by
    rcases h.parts with ⟨⟨key, -, hsplit, hothers⟩, htools⟩ | ⟨htexts, index, hsplit, hothers⟩
    · refine ⟨fun other hother => ?_, fun index => htools index ▸ .refl _⟩
      by_cases hkey : other = key
      · rw [hkey]
        exact hsplit.sameText
      · exact sameText_of_eq (hothers other hother hkey)
    · refine ⟨fun key hkey => sameText_of_eq (htexts key hkey), fun other => ?_⟩
      by_cases hindex : other = index
      · rw [hindex]
        exact hsplit.sameCalls
      · exact hothers other hindex ▸ .refl _
  exact ⟨fun _ => h.shape, by simp, h.role, htexts _ (by simp [textKeys]),
    htexts _ (by simp [textKeys]), htexts _ (by simp [textKeys]), h.finishReason, h.logprobs,
    htools⟩

/-- Two lists one of which is empty may be appended in any order. -/
theorem append_comm_of_nil {α : Type} {xs ys : List α} (h : xs = [] ∨ ys = []) :
    xs ++ ys = ys ++ xs := by
  rcases h with rfl | rfl <;> simp

/-- Deltas that touch different fields may come in any order. -/
theorem Apart.sameEntries {entries others : List Obj} (h : Apart entries others) :
    SameEntries (entries ++ others) (others ++ entries) := by
  have htexts (key : Str) (hkey : key ∈ lit "role" :: textKeys) :
      ChatStream.texts key (deltas (entries ++ others)) =
        ChatStream.texts key (deltas (others ++ entries)) := by
    rw [deltas_append, deltas_append, texts_append, texts_append]
    exact append_comm_of_nil (h.texts key hkey)
  have hcalls (index : Int) : IntDict.group index (callsOf (entries ++ others)) =
      IntDict.group index (callsOf (others ++ entries)) := by
    rw [callsOf_append, callsOf_append, IntDict.group_append, IntDict.group_append]
    exact append_comm_of_nil (h.tools index)
  refine ⟨fun hok entry hentry => hok entry ?_, ?_, htexts _ (by simp), ?_, ?_, ?_, ?_, ?_, ?_⟩
  · exact (List.perm_append_comm.mem_iff).mp hentry
  · rw [List.append_eq_nil_iff, List.append_eq_nil_iff, and_comm]
  · exact sameText_of_eq (htexts _ (by simp [textKeys]))
  · exact sameText_of_eq (htexts _ (by simp [textKeys]))
  · exact sameText_of_eq (htexts _ (by simp [textKeys]))
  · rw [texts_append, texts_append]
    exact append_comm_of_nil h.finishReason
  · rw [given_append, given_append]
    exact append_comm_of_nil h.logprobs
  · exact fun index => hcalls index ▸ .refl _

end Deltas

section Identity

/-- A key keeps its value when it is given the value that it has. -/
theorem set_eq_self {o : Obj} (hdistinct : (o.map (·.1)).Nodup) {key : Str} {value : Json}
    (h : o.lookup key = some value) : o.set key value = o := by
  have hhas : o.has key = true := by rw [Obj.has, h]; rfl
  have hsame : ∀ entry ∈ o, (if entry.1 = key then (key, value) else entry) = entry := by
    rintro ⟨other, found⟩ hentry
    by_cases hkey : other = key
    · subst hkey
      have hfound := (Obj.lookup_eq_some_iff_mem hdistinct).mpr hentry
      rw [if_pos rfl, ← Option.some.inj (h.symm.trans hfound)]
    · exact if_neg hkey
  rw [Obj.set, if_pos hhas, List.map_congr_left hsame, List.map_id']

/-- The value of an identity field is the value of the chunk. -/
theorem valuesOf_identityFields (keys : List Str) (hkeys : keys.Nodup) (chunk : Obj) (key : Str) :
    valuesOf key (identityFields keys chunk) =
      if key ∈ keys then present (chunk.get key) else [] := by
  induction keys with
  | nil => rfl
  | cons first rest ih =>
    obtain ⟨hfirst, hrest⟩ := List.nodup_cons.mp hkeys
    have hsplit : identityFields (first :: rest) chunk =
        (present (chunk.get first)).map (first, ·) ++ identityFields rest chunk := rfl
    rw [hsplit, valuesOf_append, ih hrest]
    by_cases hkey : key = first
    · subst hkey
      simp [valuesOf, hfirst, List.filter_map, Function.comp_def]
    · have hother : ¬first = key := fun h => hkey h.symm
      simp [valuesOf, hkey, hother]

/-- Identity fields that repeat fields of the chunk before, each equal to itself. -/
def Repeats (fields others : Obj) : Prop :=
  ∀ field ∈ others, field ∈ fields ∧ field.2.pyEq field.2 = true

theorem valuesOf_repeated {first second : Obj}
    (h : Repeats (identityFields identityKeys first) (identityFields identityKeys second))
    (key : Str) :
    valuesOf key (identityFields identityKeys second) = [] ∨
      ∃ value, valuesOf key (identityFields identityKeys second) = [value] ∧
        valuesOf key (identityFields identityKeys first) = [value] ∧ value.pyEq value = true := by
  have hkeys : identityKeys.Nodup := by decide
  have hshort (chunk : Obj) : valuesOf key (identityFields identityKeys chunk) = [] ∨
      ∃ value, valuesOf key (identityFields identityKeys chunk) = [value] := by
    rw [valuesOf_identityFields identityKeys hkeys, present]
    split_ifs
    · exact .inl rfl
    · exact .inr ⟨_, rfl⟩
    · exact .inl rfl
  have hmem {fields : Obj} {value : Json} :
      value ∈ valuesOf key fields ↔ (key, value) ∈ fields := by
    simp [valuesOf]
  rcases hshort second with hsecond | ⟨value, hsecond⟩
  · exact .inl hsecond
  · obtain ⟨hfield, hself⟩ := h (key, value) (hmem.mp (by simp [hsecond]))
    refine .inr ⟨value, hsecond, ?_, hself⟩
    rcases hshort first with hfirst | ⟨other, hfirst⟩
    · have hfound := hmem.mpr hfield
      simp [hfirst] at hfound
    · have hfound := hmem.mpr hfield
      rw [hfirst, List.mem_singleton] at hfound
      rw [hfirst, hfound]

/-- A chain may repeat an item that is related to itself. -/
theorem isChain_repeat {α : Type} {r : α → α → Prop} {before after : List α} {a : α}
    (h : (before ++ a :: after).IsChain r) (ha : r a a) :
    (before ++ a :: a :: after).IsChain r := by
  rw [List.isChain_append] at h ⊢
  exact ⟨h.1, .cons_cons ha h.2.1, h.2.2⟩

/-- Repeated identity fields are accepted. -/
theorem identityOk_repeats {first second before after : Obj}
    (h : Repeats (identityFields identityKeys first) (identityFields identityKeys second))
    (hok : IdentityOk (before ++ (identityFields identityKeys first ++ after))) :
    IdentityOk (before ++ (identityFields identityKeys first ++
      identityFields identityKeys second ++ after)) := by
  intro key
  have hkey := hok key
  simp only [valuesOf_append] at hkey ⊢
  rcases valuesOf_repeated h key with hnone | ⟨value, hsecond, hfirst, hself⟩
  · rwa [hnone, List.append_nil]
  · rw [hfirst, List.singleton_append] at hkey
    rw [hfirst, hsecond]
    exact isChain_repeat hkey hself

theorem ofPairs_append (items others : Obj) : Obj.ofPairs (items ++ others) =
    others.foldl (fun o entry => o.set entry.1 entry.2) (Obj.ofPairs items) := by
  rw [Obj.ofPairs, List.foldl_append]
  rfl

/-- Repeated identity fields change no value. -/
theorem ofPairs_repeats {first second : Obj} (before after : Obj)
    (h : Repeats (identityFields identityKeys first) (identityFields identityKeys second)) :
    Obj.ofPairs (before ++ (identityFields identityKeys first ++
      identityFields identityKeys second ++ after)) =
        Obj.ofPairs (before ++ (identityFields identityKeys first ++ after)) := by
  have hlookup : ∀ field ∈ identityFields identityKeys second,
      (Obj.ofPairs (before ++ identityFields identityKeys first)).lookup field.1 = some field.2 := by
    rintro ⟨key, value⟩ hfield
    have hmem : value ∈ valuesOf key (identityFields identityKeys second) := by
      simpa [valuesOf] using hfield
    rcases valuesOf_repeated h key with hnone | ⟨found, hsecond, hfirst, -⟩
    · simp [hnone] at hmem
    · rw [hsecond, List.mem_singleton] at hmem
      rw [lookup_ofPairs, valuesOf_append, hfirst, hmem]
      simp
  have hkept : ∀ fields : Obj, (∀ field ∈ fields,
      (Obj.ofPairs (before ++ identityFields identityKeys first)).lookup field.1 =
        some field.2) →
      fields.foldl (fun o entry => o.set entry.1 entry.2)
        (Obj.ofPairs (before ++ identityFields identityKeys first)) =
          Obj.ofPairs (before ++ identityFields identityKeys first) := by
    intro fields hfields
    induction fields with
    | nil => rfl
    | cons field rest ih =>
      obtain ⟨hfield, hrest⟩ := List.forall_mem_cons.mp hfields
      rw [List.foldl_cons, set_eq_self (Obj.ofPairs_spec _).1 hfield]
      exact ih hrest
  rw [← List.append_assoc, ← List.append_assoc, ofPairs_append, ofPairs_append, hkept _ hlookup,
    ← ofPairs_append, List.append_assoc]

end Identity

section Chunks

/-- A chunk one of whose strings is split into two deltas of the same choice. Its usage and its
other deltas stand in one of the two chunks; the second may repeat the identity. -/
structure Splits (chunk first second : Obj) : Prop where
  shape : ChunkOk first ∧ ChunkOk second
  identity : identityFields identityKeys first = identityFields identityKeys chunk
  repeated : Repeats (identityFields identityKeys chunk) (identityFields identityKeys second)
  usage : given "usage" [chunk] = given "usage" [first, second]
  choice : ∃ index,
    SplitsGroup SplitsEntry (choiceEntries [chunk] index) (choiceEntries [first, second] index) ∧
    ∀ other, other ≠ index → choiceEntries [chunk] other = choiceEntries [first, second] other

/-- A chunk that says nothing. -/
structure KeepAlive (chunk : Obj) : Prop where
  error : chunk.get "error" = .null
  identity : identityFields identityKeys chunk = []
  usage : chunk.get "usage" = .null
  choices : listOrEmpty (chunk.get "choices") = some []

/-- Two chunks without identity and usage that touch different choices, or different fields and tool
calls of the same choice. -/
structure Swaps (first second : Obj) : Prop where
  identity : identityFields identityKeys first = [] ∧ identityFields identityKeys second = []
  usage : first.get "usage" = .null ∧ second.get "usage" = .null
  apart : ∀ index, Apart (choiceEntries [first] index) (choiceEntries [second] index)

/-- Chunks that make the same completion, up to the spelling of the indices. -/
structure SameStream (chunks chunks' : List Obj) : Prop where
  identity : Obj.ofPairs (identityUpdates chunks) = Obj.ofPairs (identityUpdates chunks')
  usage : given "usage" chunks = given "usage" chunks'
  choices : ∀ index, SameEntries (choiceEntries chunks index) (choiceEntries chunks' index)

theorem SameStream.refl (chunks : List Obj) : SameStream chunks chunks :=
  ⟨rfl, rfl, fun _ => .refl _⟩

theorem SameStream.trans {chunks chunks' chunks'' : List Obj} (h : SameStream chunks chunks')
    (h' : SameStream chunks' chunks'') : SameStream chunks chunks'' :=
  ⟨h.identity.trans h'.identity, h.usage.trans h'.usage,
    fun index => (h.choices index).trans (h'.choices index)⟩

@[simp]
theorem choiceEntries_append (chunks others : List Obj) (index : Int) :
    choiceEntries (chunks ++ others) index =
      choiceEntries chunks index ++ choiceEntries others index := by
  simp [choiceEntries, entriesOf]

/-- Chunks in the middle of a stream may be replaced by others. -/
theorem StreamOk.replace {before part part' after : List Obj}
    (h : StreamOk (before ++ (part ++ after))) (hshape : ∀ chunk ∈ part', ChunkOk chunk)
    (hidentity :
      IdentityOk (identityUpdates before ++ (identityUpdates part ++ identityUpdates after)) →
      IdentityOk (identityUpdates before ++ (identityUpdates part' ++ identityUpdates after)))
    (hpairs :
      Obj.ofPairs (identityUpdates before ++ (identityUpdates part ++ identityUpdates after)) =
      Obj.ofPairs (identityUpdates before ++ (identityUpdates part' ++ identityUpdates after)))
    (husage : given "usage" part = given "usage" part')
    (hchoices : ∀ index, SameEntries (choiceEntries part index) (choiceEntries part' index)) :
    StreamOk (before ++ (part' ++ after)) ∧
      SameStream (before ++ (part ++ after)) (before ++ (part' ++ after)) := by
  have hsame (index : Int) : SameEntries (choiceEntries (before ++ (part ++ after)) index)
      (choiceEntries (before ++ (part' ++ after)) index) := by
    simp only [choiceEntries_append]
    exact (SameEntries.refl _).append ((hchoices index).append (.refl _))
  refine ⟨⟨?_, ?_, fun index => (hsame index).choiceOk (h.choices index)⟩, ?_, ?_, hsame⟩
  · have hall := h.shape
    simp only [List.forall_mem_append] at hall ⊢
    exact ⟨hall.1, hshape, hall.2.2⟩
  · have hold := h.identity
    simp only [List.flatMap_append] at hold ⊢
    exact hidentity hold
  · simpa only [identityUpdates, List.flatMap_append] using hpairs
  · simp only [given_append, husage]

/-- A chunk may be split. -/
theorem StreamOk.split {before after : List Obj} {chunk first second : Obj}
    (hsplit : Splits chunk first second) (h : StreamOk (before ++ ([chunk] ++ after))) :
    StreamOk (before ++ ([first, second] ++ after)) ∧
      SameStream (before ++ ([chunk] ++ after)) (before ++ ([first, second] ++ after)) := by
  have hone : identityUpdates [chunk] = identityFields identityKeys chunk := by simp
  have htwo : identityUpdates [first, second] =
      identityFields identityKeys chunk ++ identityFields identityKeys second := by
    simp [hsplit.identity]
  apply h.replace
  · simpa using hsplit.shape
  · rw [hone, htwo]
    exact identityOk_repeats hsplit.repeated
  · rw [hone, htwo]
    exact (ofPairs_repeats _ _ hsplit.repeated).symm
  · exact hsplit.usage
  · obtain ⟨index, ⟨prior, entry, e₁, e₂, later, hold, hnew, hentry⟩, hothers⟩ := hsplit.choice
    intro other
    by_cases hindex : other = index
    · rw [hindex, hold, hnew]
      exact (SameEntries.refl prior).append (hentry.sameEntries.append (.refl later))
    · exact hothers other hindex ▸ .refl _

/-- A chunk that says nothing may be inserted. -/
theorem StreamOk.keepAlive {before after : List Obj} {chunk : Obj} (hempty : KeepAlive chunk)
    (h : StreamOk (before ++ ([] ++ after))) :
    StreamOk (before ++ ([chunk] ++ after)) ∧
      SameStream (before ++ ([] ++ after)) (before ++ ([chunk] ++ after)) := by
  have hnone : identityUpdates [chunk] = [] := by simp [hempty.identity]
  have hchoices : chunkChoices chunk = [] := by rw [chunkChoices, hempty.choices]; rfl
  have hentries (index : Int) : choiceEntries [chunk] index = [] := by
    simp [choiceEntries, entriesOf, hchoices, entriesFrom]
  apply h.replace
  · rw [List.forall_mem_singleton]
    exact ⟨hempty.error, .inl hempty.usage, by rw [hempty.choices]; rfl, by simp [hchoices]⟩
  · rw [hnone]
    exact id
  · rw [hnone]
    rfl
  · simp [given, hempty.usage, present, isNone]
  · intro index
    rw [hentries]
    exact .refl _

/-- Chunks that touch different parts may be swapped. -/
theorem StreamOk.swap {before after : List Obj} {first second : Obj} (hswap : Swaps first second)
    (h : StreamOk (before ++ ([first, second] ++ after))) :
    StreamOk (before ++ ([second, first] ++ after)) ∧
      SameStream (before ++ ([first, second] ++ after)) (before ++ ([second, first] ++ after)) := by
  have hnone : identityUpdates [first, second] = identityUpdates [second, first] := by
    simp [hswap.identity]
  apply h.replace
  · intro chunk hchunk
    exact h.shape chunk (by simp only [List.mem_append, List.mem_cons] at hchunk ⊢; tauto)
  · rw [hnone]
    exact id
  · rw [hnone]
  · simp [given, hswap.usage, present, isNone]
  · intro index
    have hpair (a b : Obj) : choiceEntries [a, b] index =
        choiceEntries [a] index ++ choiceEntries [b] index := choiceEntries_append [a] [b] index
    rw [hpair, hpair]
    exact (hswap.apart index).sameEntries

end Chunks

section Streams

/-- One way in which a stream may be chunked otherwise. -/
inductive Rechunks (depth : Nat) (stream stream' : List Nat) : Prop where
  /-- A comment line is inserted. -/
  | comment (before after : List (Option Str)) (comment : Str)
    (lines : lineTexts stream = before ++ after)
    (lines' : lineTexts stream' = before ++ some (58 :: comment) :: after)
  /-- A data line is cut into two at white space of its payload outside of the strings. -/
  | cut (before after : List (Option Str)) (x w w₁ w₂ y : Str)
    (lines : lineTexts stream = before ++ some (dataLine (x ++ (w ++ y))) :: after)
    (lines' : lineTexts stream' =
      before ++ some (dataLine (x ++ w₁)) :: some (dataLine (w₂ ++ y)) :: after)
    (start : ∃ c ∈ x ++ w, c ≠ 32) (blank : Blank w) (space₁ : ∀ c ∈ w₁, isJsonSpace c = true)
    (space₂ : ∀ c ∈ w₂, isJsonSpace c = true)
    (outside : endsQuoted false (Str.join "\n" (pendingAfter [] before ++ [lineBody x])) = false)
  /-- A chunk that says nothing is inserted. -/
  | keepAlive (before after : List Frame) (data : Str) (chunk : Obj)
    (frames : payloads stream = before ++ after)
    (frames' : payloads stream' = before ++ .ok data :: after)
    (reads : loads depth data = .ok (.dict chunk)) (empty : KeepAlive chunk)
  /-- A string of a chunk is split into two deltas. -/
  | split (before after : List Frame) (data data₁ data₂ : Str) (chunk first second : Obj)
    (frames : payloads stream = before ++ .ok data :: after)
    (frames' : payloads stream' = before ++ .ok data₁ :: .ok data₂ :: after)
    (reads : loads depth data = .ok (.dict chunk)) (reads₁ : loads depth data₁ = .ok (.dict first))
    (reads₂ : loads depth data₂ = .ok (.dict second)) (splits : Splits chunk first second)
  /-- Two chunks that touch different parts are swapped. -/
  | swap (before after : List Frame) (data₁ data₂ : Str) (first second : Obj)
    (frames : payloads stream = before ++ .ok data₁ :: .ok data₂ :: after)
    (frames' : payloads stream' = before ++ .ok data₂ :: .ok data₁ :: after)
    (reads₁ : loads depth data₁ = .ok (.dict first))
    (reads₂ : loads depth data₂ = .ok (.dict second)) (swaps : Swaps first second)

variable {depth : Nat}

/-- One payload that is read. -/
theorem readChunks_cons {data : Str} {chunk : Obj} (h : loads depth data = .ok (.dict chunk))
    {rest : List Frame} {chunks : List Obj} {done : Bool}
    (hrest : readChunks depth rest = .ok (chunks.map .dict, done)) :
    readChunks depth (.ok data :: rest) = .ok ((chunk :: chunks).map .dict, done) := by
  have hread : readChunk depth data = .ok (.dict chunk) := by rw [readChunk, h]
  rw [readChunks, isDone_of_loads h, hread, hrest]
  rfl

theorem readChunks_nil : readChunks depth [] = .ok (([] : List Obj).map .dict, false) := rfl

/-- A part of a stream is replaced by another one: the chunks are those before, the new ones and
those after, unless the stream has ended before. -/
theorem readChunks_replace {before part part' after : List Frame} {old new chunks : List Obj}
    (hold : readChunks depth part = .ok (old.map .dict, false))
    (hnew : readChunks depth part' = .ok (new.map .dict, false))
    (h : readChunks depth (before ++ (part ++ after)) = .ok (chunks.map .dict, true)) :
    readChunks depth (before ++ (part' ++ after)) = .ok (chunks.map .dict, true) ∨
      ∃ prior later, chunks = prior ++ (old ++ later) ∧
        readChunks depth (before ++ (part' ++ after)) =
          .ok ((prior ++ (new ++ later)).map .dict, true) := by
  rcases readChunks_append_iff.mp h with ⟨hbefore, -⟩ | ⟨first, second, hfirst, hsecond, hall⟩
  · exact .inl (readChunks_append_iff.mpr (.inl ⟨hbefore, rfl⟩))
  rcases readChunks_append_iff.mp hsecond with ⟨hpart, -⟩ | ⟨middle, last, hmiddle, hlast, rfl⟩
  · rw [hold] at hpart
    cases hpart
  rw [hold] at hmiddle
  obtain ⟨rfl, -⟩ := Prod.mk.inj (Except.ok.inj hmiddle)
  obtain ⟨prior, rest, rfl, rfl, hrest⟩ := List.map_eq_append_iff.mp hall
  obtain ⟨found, later, rfl, hfound, rfl⟩ := List.map_eq_append_iff.mp hrest
  obtain rfl : found = old := List.map_injective_iff.mpr (fun _ _ => Json.dict.inj) hfound
  refine .inr ⟨prior, later, rfl, ?_⟩
  rw [List.map_append, List.map_append]
  refine readChunks_append_iff.mpr (.inr ⟨_, _, hfirst, ?_, rfl⟩)
  exact readChunks_append_iff.mpr (.inr ⟨_, _, hnew, hlast, rfl⟩)

/-- The chunks of a stream that is chunked otherwise are accepted and make the same. -/
theorem Rechunks.read {stream stream' : List Nat} (h : Rechunks depth stream stream')
    {chunks : List Obj} (hread : readChunks depth (payloads stream) = .ok (chunks.map .dict, true))
    (hok : StreamOk chunks) : ∃ chunks', readChunks depth (payloads stream') =
      .ok (chunks'.map .dict, true) ∧ StreamOk chunks' ∧ SameStream chunks chunks' := by
  cases h with
  | comment before after comment lines lines' =>
    refine ⟨chunks, ?_, hok, .refl _⟩
    rw [payloads, lines', framesOf_comment, ← lines]
    exact hread
  | cut before after x w w₁ w₂ y lines lines' start blank space₁ space₂ outside =>
    refine ⟨chunks, ?_, hok, .refl _⟩
    rw [payloads, lines] at hread
    rw [payloads, lines']
    exact readChunks_respaced (sameFrames_cut start blank space₁ space₂ outside) hread
  | keepAlive before after data chunk frames frames' reads empty =>
    rw [frames] at hread
    rw [frames']
    have hnew := readChunks_cons reads readChunks_nil
    have hold : readChunks depth [] = .ok (([] : List Obj).map .dict, false) := readChunks_nil
    rcases readChunks_replace hold hnew hread with
      hended | ⟨prior, later, rfl, hreplaced⟩
    · exact ⟨chunks, hended, hok, .refl _⟩
    · exact ⟨_, hreplaced, hok.keepAlive empty⟩
  | split before after data data₁ data₂ chunk first second frames frames' reads reads₁ reads₂
      splits =>
    rw [frames] at hread
    rw [frames']
    have hold := readChunks_cons reads readChunks_nil
    have hnew := readChunks_cons reads₁ (readChunks_cons reads₂ readChunks_nil)
    rcases readChunks_replace hold hnew hread with hended | ⟨prior, later, rfl, hreplaced⟩
    · exact ⟨chunks, hended, hok, .refl _⟩
    · exact ⟨_, hreplaced, hok.split splits⟩
  | swap before after data₁ data₂ first second frames frames' reads₁ reads₂ swaps =>
    rw [frames] at hread
    rw [frames']
    have hold := readChunks_cons reads₁ (readChunks_cons reads₂ readChunks_nil)
    have hnew := readChunks_cons reads₂ (readChunks_cons reads₁ readChunks_nil)
    rcases readChunks_replace hold hnew hread with hended | ⟨prior, later, rfl, hreplaced⟩
    · exact ⟨chunks, hended, hok, .refl _⟩
    · exact ⟨_, hreplaced, hok.swap swaps⟩

/-- The chunks of a stream that is chunked otherwise in any number of ways are accepted and make the
same. -/
theorem read_of_rechunks {stream stream' : List Nat}
    (h : Relation.ReflTransGen (Rechunks depth) stream stream') {chunks : List Obj}
    (hread : readChunks depth (payloads stream) = .ok (chunks.map .dict, true))
    (hok : StreamOk chunks) : ∃ chunks', readChunks depth (payloads stream') =
      .ok (chunks'.map .dict, true) ∧ StreamOk chunks' ∧ SameStream chunks chunks' := by
  induction h with
  | refl => exact ⟨chunks, hread, hok, .refl _⟩
  | tail _ hstep ih =>
    obtain ⟨middle, hmiddle, hmiddleOk, hsame⟩ := ih
    obtain ⟨chunks', hchunks', hok', hsame'⟩ := hstep.read hmiddle hmiddleOk
    exact ⟨chunks', hchunks', hok', hsame.trans hsame'⟩

end Streams

end ChatStream

end OpenCollabEval
