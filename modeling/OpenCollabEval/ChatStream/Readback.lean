import OpenCollabEval.ChatStream.Completion
import OpenCollabEval.Python.JsonReadable

/-!
# Reading a completion back

The payloads of a stream are decoded text, so that the chunks hold code points and short integers only.
A completion is made of their parts: what is written of it is read back as the same object.
-/

open Python

namespace Python

/-- What strict UTF-8 decodes has no surrogates. -/
theorem decoded_of_decodeUtf8 {bytes : List Nat} {text : Str}
    (h : Str.decodeUtf8 false bytes = some text) : text.Decoded := by
  have hfrom (skip : Nat) (bytes : List Nat) (text : Str)
      (h : Str.decodeUtf8From false skip bytes = some text) : text.Decoded := by
    induction bytes generalizing skip text with
    | nil =>
      obtain rfl : [] = text := by simpa [Str.decodeUtf8From] using h
      simp [Str.Decoded]
    | cons b rest ih =>
      rw [Str.decodeUtf8From] at h
      split_ifs at h with hskip
      · exact ih _ _ h
      · simp only [Option.bind_eq_bind, Option.bind_eq_some_iff, Option.pure_def,
          Option.some.injEq] at h
        obtain ⟨⟨c, length⟩, hpoint, tail, htail, rfl⟩ := h
        have hscalar : Str.utf8Scalar (b :: rest) = some (c, length) := by
          unfold Str.utf8Point at hpoint
          rcases hfound : Str.utf8Scalar (b :: rest) with _ | found
          · rw [hfound] at hpoint
            rcases rest with _ | ⟨b', _ | ⟨b'', rest⟩⟩ <;> simp at hpoint
          · simpa [hfound] using hpoint
        have hfound := List.find?_some hscalar
        simp only [Bool.and_eq_true, decide_eq_true_eq, Bool.not_eq_true'] at hfound
        intro d hd
        rcases List.mem_cons.mp hd with rfl | hd
        · exact ⟨by omega, hfound.1.2⟩
        · exact ih _ _ htail d hd
  exact hfrom 0 bytes text h

end Python

namespace OpenCollabEval

namespace ChatStream

section Payloads

theorem decoded_rstrip {s : Str} (h : s.Decoded) (cut : Nat → Bool) : Str.Decoded (s.rstripOf cut) := by
  intro c hc
  exact h c ((List.rdropWhile_prefix cut s).subset hc)

/-- A data line of decoded text keeps the pending lines decoded. -/
theorem decoded_addLine {pending : List Str} (h : ∀ line ∈ pending, Str.Decoded line) {text : Str}
    (htext : text.Decoded) : ∀ line ∈ addLine pending text, Str.Decoded line := by
  rw [addLine]
  split_ifs
  · exact h
  · intro line hline
    rcases List.mem_append.mp hline with hold | hnew
    · exact h line hold
    · obtain rfl := List.mem_singleton.mp hnew
      exact (htext.drop 5).dropWhile _
  · exact h

theorem decoded_flush {pending : List Str} (h : ∀ line ∈ pending, Str.Decoded line) {data : Str}
    (hdata : (.ok data : Frame) ∈ flush pending) : data.Decoded := by
  rw [flush] at hdata
  by_cases hempty : pending.isEmpty = true
  · simp [hempty] at hdata
  · rw [if_neg hempty] at hdata
    clear hempty
    obtain rfl : data = Str.join "\n" pending := by simpa using hdata
    clear hdata
    induction pending with
    | nil => simp [Str.join, List.intercalate, Str.Decoded]
    | cons first rest ih =>
      cases rest with
      | nil =>
        rw [Str.join_singleton]
        exact h first (by simp)
      | cons second rest =>
        rw [Str.join_cons_cons]
        have hrest := ih fun line hline => h line (by simp_all)
        intro c hc
        rcases List.mem_append.mp hc with hc | hc
        · exact h first (by simp) c hc
        · rcases List.mem_append.mp hc with hc | hc
          · obtain rfl : c = 10 := by simpa [lit] using hc
            exact ⟨by decide, by decide⟩
          · exact hrest c hc

/-- The payloads of a stream are decoded text. -/
theorem decoded_events {limit : Int} {expired : Nat → Bool} {n : Nat} {total : Int}
    {pending : List Str} {lines : List (List Nat)} (h : ∀ line ∈ pending, Str.Decoded line)
    {data : Str} (hdata : (.ok data : Frame) ∈ events limit expired n total pending lines) :
    data.Decoded := by
  induction lines generalizing n total pending with
  | nil =>
    rw [events] at hdata
    split_ifs at hdata
    · simp at hdata
    · exact decoded_flush h hdata
  | cons physical rest ih =>
    rw [events] at hdata
    dsimp only at hdata
    generalize (if limit + 1 < 0 then physical else physical.take (limit + 1).toNat) = line at hdata
    split_ifs at hdata
    · simp at hdata
    · exact decoded_flush h hdata
    · simp at hdata
    · split at hdata
      · simp at hdata
      · rename_i decoded hdecoded
        have htext := decoded_rstrip (decoded_of_decodeUtf8 hdecoded) fun c => c == 13 || c == 10
        split_ifs at hdata
        · rcases List.mem_append.mp hdata with hflush | hrest
          · exact decoded_flush h hflush
          · exact ih (by simp) hrest
        · exact ih (decoded_addLine h htext) hdata

/-- The chunks of decoded payloads are sound. -/
theorem sound_of_readChunks {depth : Nat} {frames : List Frame} {chunks : List Obj} {done : Bool}
    (hframes : ∀ data, (.ok data : Frame) ∈ frames → Str.Decoded data)
    (h : readChunks depth frames = .ok (chunks.map .dict, done)) :
    ∀ chunk ∈ chunks, (Json.dict chunk).Sound := by
  induction frames generalizing chunks with
  | nil =>
    obtain ⟨hchunks, -⟩ := Prod.mk.inj (Except.ok.inj h)
    obtain rfl : chunks = [] := by simpa using hchunks.symm
    simp
  | cons frame rest ih =>
    cases frame with
    | error message => cases h
    | ok data =>
      rw [readChunks] at h
      split_ifs at h
      · obtain ⟨hchunks, -⟩ := Prod.mk.inj (Except.ok.inj h)
        obtain rfl : chunks = [] := by simpa using hchunks.symm
        simp
      · obtain ⟨value, hvalue, h⟩ := bind_eq_ok_iff.mp h
        obtain ⟨⟨others, done'⟩, hothers, h⟩ := bind_eq_ok_iff.mp h
        obtain ⟨hvalues, rfl⟩ := Prod.mk.inj (Except.ok.inj h)
        obtain ⟨chunk, tail, rfl⟩ : ∃ chunk tail, chunks = chunk :: tail := by
          cases chunks with
          | nil => simp at hvalues
          | cons chunk tail => exact ⟨chunk, tail, rfl⟩
        obtain ⟨rfl, rfl⟩ := List.cons.inj hvalues
        rw [List.forall_mem_cons]
        refine ⟨?_, ih (fun other hother => hframes other (by simp [hother])) hothers⟩
        rw [readChunk] at hvalue
        split at hvalue
        · rename_i found hfound
          obtain rfl := Except.ok.inj hvalue
          exact (readable_of_loads (hframes data (by simp)) hfound).sound
        · cases hvalue
        · cases hvalue

end Payloads

section Fields

/-- An object all of whose values are sound. -/
def FieldsSound (o : Obj) : Prop := ∀ key, (o.get key).Sound

/-- Text of code points. -/
def Points (s : Str) : Prop := ∀ c ∈ s, c < 0x110000

theorem fieldsSound_nil : FieldsSound [] := fun _ => .null

theorem fieldsSound_of_dict {o : Obj} (h : (Json.dict o).Sound) : FieldsSound o := by
  intro key
  cases h with
  | dict _ distinct _ values =>
    rw [Obj.get]
    rcases hlookup : o.lookup key with _ | value
    · exact .null
    · exact values (key, value) ((Obj.lookup_eq_some_iff_mem distinct).mp hlookup)

theorem fieldsSound_dictOrEmpty {v : Json} (h : v.Sound) : FieldsSound ((dictOrEmpty v).getD []) := by
  rw [dictOrEmpty]
  split_ifs
  · cases v with
    | dict entries => exact fieldsSound_of_dict h
    | _ => exact fieldsSound_nil
  · exact fieldsSound_nil

theorem sound_listOrEmpty {v : Json} (h : v.Sound) :
    ∀ item ∈ (listOrEmpty v).getD [], item.Sound := by
  rw [listOrEmpty]
  split_ifs
  · cases h with
    | list items values => exact values
    | _ => simp [Json.asList]
  · simp

theorem points_texts (key : Str) {values : List Obj} (h : ∀ value ∈ values, FieldsSound value) :
    ∀ text ∈ texts key values, Points text := by
  intro text htext
  obtain ⟨value, hvalue, htext⟩ := List.mem_flatMap.mp htext
  have hsound := h value hvalue key
  revert htext hsound
  cases value.get key with
  | str s =>
    intro htext hsound
    obtain rfl : text = s := by simpa [piece, Json.asStr] using htext
    cases hsound
    assumption
  | _ => simp [piece, Json.asStr]

theorem points_flatten {parts : List Str} (h : ∀ part ∈ parts, Points part) :
    Points parts.flatten := by
  intro c hc
  obtain ⟨part, hpart, hc⟩ := List.mem_flatten.mp hc
  exact h part hpart c hc

theorem points_getLastD {parts : List Str} (h : ∀ part ∈ parts, Points part) {default : Str}
    (hdefault : Points default) : Points (parts.getLastD default) := by
  rw [List.getLastD_eq_getLast?]
  rcases hlast : parts.getLast? with _ | part
  · exact hdefault
  · exact h part (List.mem_of_getLast? hlast)

theorem sound_given {key : Str} {values : List Obj} (h : ∀ value ∈ values, FieldsSound value) :
    ∀ found ∈ given key values, found.Sound := by
  intro found hfound
  obtain ⟨value, hvalue, hfound⟩ := List.mem_flatMap.mp hfound
  rw [present] at hfound
  split_ifs at hfound
  · simp at hfound
  · obtain rfl := List.mem_singleton.mp hfound
    exact h value hvalue key

theorem fieldsSound_functions {calls : List Obj} (h : ∀ call ∈ calls, FieldsSound call) :
    ∀ function ∈ functions calls, FieldsSound function := by
  intro function hfunction
  obtain ⟨call, hcall, rfl⟩ := List.mem_map.mp hfunction
  exact fieldsSound_dictOrEmpty (h call hcall _)

theorem fieldsSound_deltas {entries : List Obj} (h : ∀ entry ∈ entries, FieldsSound entry) :
    ∀ delta ∈ deltas entries, FieldsSound delta := by
  intro delta hdelta
  obtain ⟨entry, hentry, rfl⟩ := List.mem_map.mp hdelta
  exact fieldsSound_dictOrEmpty (h entry hentry _)

/-- The items of a group are items of the list. -/
theorem mem_of_mem_group {β : Type} {index : Int} {items : List (Int × β)} {b : β}
    (h : b ∈ IntDict.group index items) : (index, b) ∈ items := by
  simp only [IntDict.group, List.mem_map, List.mem_filter, beq_iff_eq] at h
  obtain ⟨⟨key, b⟩, ⟨hmem, rfl⟩, rfl⟩ := h
  exact hmem

theorem fieldsSound_calls {entries : List Obj} (h : ∀ entry ∈ entries, FieldsSound entry)
    (index : Int) : ∀ call ∈ IntDict.group index (callsOf entries), FieldsSound call := by
  intro call hcall
  obtain ⟨delta, hdelta, hmem⟩ := List.mem_flatMap.mp (mem_of_mem_group hcall)
  obtain ⟨value, hvalue, hread⟩ := List.mem_filterMap.mp hmem
  have hsound := sound_listOrEmpty (fieldsSound_deltas h delta hdelta _) value hvalue
  simp only [readCall, Option.bind_eq_bind, Option.bind_eq_some_iff, Option.pure_def,
    Option.some.injEq, Prod.mk.injEq] at hread
  obtain ⟨found, hfound, other, -, -, rfl⟩ := hread
  cases value with
  | dict fields =>
    obtain rfl : fields = found := by simpa [Json.asDict] using hfound
    exact fieldsSound_of_dict hsound
  | _ => simp [Json.asDict] at hfound

theorem fieldsSound_entries {chunks : List Obj} (h : ∀ chunk ∈ chunks, FieldsSound chunk)
    (index : Int) : ∀ entry ∈ choiceEntries chunks index, FieldsSound entry := by
  intro entry hentry
  obtain ⟨⟨label, entry⟩, hmem, rfl⟩ := List.mem_map.mp hentry
  obtain ⟨chunk, hchunk, hmem⟩ := List.mem_flatMap.mp (mem_of_mem_group hmem)
  obtain ⟨⟨value, position⟩, hvalue, hread⟩ := List.mem_filterMap.mp hmem
  have hsound := sound_listOrEmpty (h chunk hchunk _) value (List.fst_mem_of_mem_zipIdx hvalue)
  simp only [readEntry, Option.bind_eq_bind, Option.bind_eq_some_iff, Option.pure_def,
    Option.some.injEq, Prod.mk.injEq] at hread
  obtain ⟨found, hfound, other, -, -, -, rfl⟩ := hread
  cases value with
  | dict fields =>
    obtain rfl : fields = found := by simpa [Json.asDict] using hfound
    exact fieldsSound_of_dict hsound
  | _ => simp [Json.asDict] at hfound

end Fields

section Objects

/-- The keys and values of an explicit object. -/
theorem sound_dict_of {o : Obj} (hdistinct : (o.map (·.1)).Nodup)
    (h : ∀ entry ∈ o, Points entry.1 ∧ entry.2.Sound) : (Json.dict o).Sound :=
  .dict o hdistinct (fun entry hentry => (h entry hentry).1) fun entry hentry => (h entry hentry).2

theorem points_lit {s : String} (h : ∀ c ∈ lit s, c < 128) : Points (lit s) := by
  intro c hc
  have hsmall := h c hc
  omega

theorem toolFinish_sound {calls : List Obj} (hcalls : ∀ call ∈ calls, FieldsSound call) {v : Json}
    (h : (viewTool calls).finish = .ok v) : v.Sound := by
  have hnil : Points [] := by simp [Points]
  have hid := points_getLastD (points_texts "id" hcalls) hnil
  have htype := points_getLastD (points_texts "type" hcalls) hnil
  have hname := points_flatten (points_texts "name" (fieldsSound_functions hcalls))
  have harguments := points_flatten (points_texts "arguments" (fieldsSound_functions hcalls))
  rw [ToolCall.finish] at h
  by_cases hmissing : ((viewTool calls).callId.isEmpty || (viewTool calls).name.isEmpty) = true
  · rw [if_pos hmissing] at h
    cases h
  rw [if_neg hmissing] at h
  obtain rfl := Except.ok.inj h
  have htype' : Points (if (viewTool calls).callType.isEmpty then lit "function"
      else (viewTool calls).callType) := by
    split_ifs
    · exact points_lit (by decide)
    · exact htype
  refine sound_dict_of (by simp) ?_
  simp only [List.forall_mem_cons, List.not_mem_nil, false_imp_iff, implies_true, and_true]
  refine ⟨⟨points_lit (by decide), .str _ hid⟩, ⟨points_lit (by decide), .str _ htype'⟩,
    points_lit (by decide), sound_dict_of (by simp) ?_⟩
  simp only [List.forall_mem_cons, List.not_mem_nil, false_imp_iff, implies_true, and_true]
  exact ⟨⟨points_lit (by decide), .str _ hname⟩, points_lit (by decide), .str _ harguments⟩

/-- Results of sound calls are sound. -/
theorem forall_results {α β ε : Type} {f : α → Except ε β} {items : List α} {results : List β}
    (h : items.mapM f = .ok results) {P : β → Prop}
    (hP : ∀ a ∈ items, ∀ b, f a = .ok b → P b) : ∀ b ∈ results, P b :=
  (forall_results_iff (Q := fun _ => True) h fun a ha b hab =>
    iff_of_true (hP a ha b hab) trivial).mpr fun _ _ => trivial

/-- An optional entry of a message. -/
theorem sound_optional {key : String} (hkey : Points (lit key)) {absent : Bool} {v : Json}
    (hv : v.Sound) : ∀ entry ∈ Obj.of (if absent then [] else [(key, v)]),
      Points entry.1 ∧ entry.2.Sound := by
  cases absent
  · simpa using ⟨hkey, hv⟩
  · simp

theorem choiceFinish_sound {rt : Runtime} {label : Json} (hlabel : label.Sound) {entries : List Obj}
    (hentries : ∀ entry ∈ entries, FieldsSound entry) {v : Json}
    (h : (viewChoice entries).finish rt label = .ok v) : v.Sound := by
  have hdeltas := fieldsSound_deltas hentries
  have hrole := points_getLastD (points_texts "role" hdeltas)
    (points_lit (s := "assistant") (by decide))
  have hcontent := points_flatten (points_texts "content" hdeltas)
  have hreasoning := points_flatten (points_texts "reasoning_content" hdeltas)
  have hrefusal := points_flatten (points_texts "refusal" hdeltas)
  have hlogprobs : (viewChoice entries).logprobs.Sound := by
    simp only [viewChoice, List.getLastD_eq_getLast?]
    rcases hlast : (given (lit "logprobs") entries).getLast? with _ | found
    · exact .null
    · exact sound_given hentries found (List.mem_of_getLast? hlast)
  rw [Choice.finish] at h
  rcases hreason : (viewChoice entries).finishReason with _ | reason
  · simp [hreason, fail] at h
  rw [hreason] at h
  obtain ⟨toolCalls, hcalls, h⟩ := bind_eq_ok_iff.mp h
  obtain rfl := Except.ok.inj h
  have hreasonPoints : Points reason :=
    points_texts "finish_reason" hentries reason (List.mem_of_getLast? hreason)
  have htools : ∀ call ∈ toolCalls, call.Sound := by
    refine forall_results hcalls ?_
    rintro ⟨index, t⟩ hitem v hv
    obtain ⟨-, rfl⟩ := IntDict.mem_sortedItems_ofGroups.mp hitem
    exact toolFinish_sound (fieldsSound_calls hentries index) hv
  have htext : (if (viewChoice entries).content.isEmpty then Json.null
      else .str (viewChoice entries).content.flatten).Sound := by
    split_ifs
    · exact .null
    · exact .str _ hcontent
  have hmessage : (Json.dict ((viewChoice entries).message toolCalls)).Sound := by
    refine sound_dict_of ?_ ?_
    · rw [Choice.message]
      split_ifs <;> simp
    · rw [Choice.message]
      simp only [List.forall_mem_append]
      refine ⟨⟨⟨?_, sound_optional (points_lit (by decide)) (.str _ hreasoning)⟩,
        sound_optional (points_lit (by decide)) (.str _ hrefusal)⟩,
        sound_optional (points_lit (by decide)) (.list _ htools)⟩
      simp only [Obj.of_cons, Obj.of_nil, List.forall_mem_cons, List.not_mem_nil, false_imp_iff,
        implies_true, and_true]
      exact ⟨⟨points_lit (by decide), .str _ hrole⟩, points_lit (by decide), htext⟩
  refine sound_dict_of (by simp) ?_
  simp only [List.forall_mem_cons, List.not_mem_nil, false_imp_iff, implies_true, and_true]
  exact ⟨⟨points_lit (by decide), hlabel⟩, ⟨points_lit (by decide), hmessage⟩,
    ⟨points_lit (by decide), .str _ hreasonPoints⟩, points_lit (by decide), hlogprobs⟩

/-- The index of a choice is short enough to be read back. -/
def ShortIndex (choice : Json) : Prop :=
  ∀ fields : Obj, choice = .dict fields → ∀ n, fields.get "index" = .int n →
    (natStr n.natAbs).length ≤ maxIntDigits

/-- The keys of a completion are distinct. -/
theorem completion_distinct (chunks : List Obj) (choices : Json) (usage : Option Obj) :
    (((viewAggregate chunks).identity ++
      Obj.of [("object", .str "chat.completion"), ("choices", choices)] ++
      (usage.map fun usage => (lit "usage", Json.dict usage)).toList).map (·.1)).Nodup := by
  have hidentity : ((viewAggregate chunks).identity.map (·.1)).Nodup := (Obj.ofPairs_spec _).1
  have hkeys : ∀ key ∈ (viewAggregate chunks).identity.map (·.1), key ∈ identityKeys := by
    intro key hkey
    obtain ⟨entry, hentry, rfl⟩ := List.mem_map.mp hkey
    exact key_of_mem_identity hentry
  have hadded : ([lit "object", lit "choices", lit "usage"] : List Str).Nodup := by decide
  have hother : ∀ key ∈ [lit "object", lit "choices", lit "usage"], key ∉ identityKeys := by decide
  have hall : ((viewAggregate chunks).identity.map (·.1) ++
      [lit "object", lit "choices", lit "usage"]).Nodup :=
    List.nodup_append.mpr ⟨hidentity, hadded, fun key hkey other hother' heq =>
      hother other hother' (heq ▸ hkeys key hkey)⟩
  refine hall.sublist ?_
  cases usage <;> simp

/-- The choices of a completion. -/
theorem get_choices (chunks : List Obj) (choices : Json) (rest : Obj) :
    Obj.get ((viewAggregate chunks).identity ++
      Obj.of [("object", .str "chat.completion"), ("choices", choices)] ++ rest) "choices" =
        choices := by
  have hnone : (viewAggregate chunks).identity.has "choices" = false := by
    rw [Bool.eq_false_iff]
    intro hhas
    obtain ⟨entry, hentry, hkey⟩ := List.mem_map.mp (Obj.has_iff_mem.mp hhas)
    have hmem := key_of_mem_identity hentry
    rw [hkey] at hmem
    exact absurd hmem (by decide)
  have hother : ¬lit "choices" = lit "object" := by decide
  rw [List.append_assoc, Obj.get_append, hnone]
  simp [hother]

theorem complete_sound {rt : Runtime} {done : Bool} {model : Str} {chunks : List Obj}
    (hchunks : ∀ chunk ∈ chunks, (Json.dict chunk).Sound) {completion : Obj}
    (h : (viewAggregate chunks).complete rt done model = .ok completion)
    (hshort : ∀ choices, completion.get "choices" = .list choices →
      ∀ choice ∈ choices, ShortIndex choice) : (Json.dict completion).Sound := by
  obtain ⟨choices, hchoices, rfl⟩ := complete_eq_ok h
  have hfields : ∀ chunk ∈ chunks, FieldsSound chunk :=
    fun chunk hchunk => fieldsSound_of_dict (hchunks chunk hchunk)
  have hlist : ∀ choice ∈ choices, choice.Sound := by
    have hshort' := hshort choices (get_choices chunks (.list choices) _)
    have hall : ∀ choice ∈ choices, ShortIndex choice → choice.Sound := by
      refine forall_results hchoices ?_
      rintro ⟨index, label, choice⟩ hmem v hv hindex
      obtain ⟨-, rfl, hread⟩ := mem_sortedChoices hmem
      have hlabel : label.Sound := by
        cases label with
        | bool b => exact .bool b
        | int n =>
          refine .int n ?_
          simp only [Choice.finish] at hv
          split at hv
          · cases hv
          · obtain ⟨toolCalls, -, hv⟩ := bind_eq_ok_iff.mp hv
            obtain rfl := Except.ok.inj hv
            exact hindex _ rfl n (by simp)
        | _ => simp [readIndex] at hread
      exact choiceFinish_sound hlabel (fieldsSound_entries hfields index) hv
    exact fun choice hchoice => hall choice hchoice (hshort' choice hchoice)
  have hidentity : ∀ entry ∈ (viewAggregate chunks).identity, Points entry.1 ∧ entry.2.Sound := by
    rintro ⟨key, value⟩ hmem
    have hkeys : ∀ key ∈ identityKeys, ∀ c ∈ key, c < 128 := by decide
    refine ⟨fun c hc => ?_, ?_⟩
    · have hsmall := hkeys key (key_of_mem_identity hmem) c hc
      omega
    · obtain ⟨chunk, hchunk, hfound⟩ := List.mem_flatMap.mp ((Obj.ofPairs_spec _).2 _ hmem)
      obtain ⟨other, -, hfound⟩ := List.mem_flatMap.mp hfound
      obtain ⟨found, hpresent, hpair⟩ := List.mem_map.mp hfound
      obtain ⟨rfl, rfl⟩ := Prod.mk.inj hpair
      have hgiven : found ∈ given other [chunk] := by simpa using hpresent
      exact sound_given (by simpa using hfields chunk hchunk) found hgiven
  have husage : ∀ entry ∈ ((viewAggregate chunks).usage.map fun usage =>
      (lit "usage", Json.dict usage)).toList, Points entry.1 ∧ entry.2.Sound := by
    simp only [viewAggregate]
    rcases hlast : (given (lit "usage") chunks).getLast? with _ | usage
    · simp
    · have hsound := sound_given hfields usage (List.mem_of_getLast? hlast)
      cases usage with
      | dict entries => simpa [Json.asDict] using ⟨points_lit (s := "usage") (by decide), hsound⟩
      | _ => simp [Json.asDict]
  refine sound_dict_of (completion_distinct chunks _ _) ?_
  simp only [List.forall_mem_append, Obj.of_cons, Obj.of_nil, List.forall_mem_cons,
    List.not_mem_nil, false_imp_iff, implies_true, and_true]
  exact ⟨⟨hidentity, ⟨points_lit (by decide), .str _ (points_lit (by decide))⟩,
    points_lit (by decide), .list _ hlist⟩, husage⟩

end Objects

end ChatStream

end OpenCollabEval
