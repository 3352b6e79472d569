import OpenCollabEval.ChatStream.View

/-!
# A stream as a view of its chunks

The aggregate of some chunks is a function of them, and the chunks are accepted exactly when they are well
formed: the run over a stream reads its chunks and builds their view.
-/

open Python

namespace OpenCollabEval

namespace ChatStream

section Identity

/-- The values that some updates give to a key, in order. -/
def valuesOf (key : Str) (items : Obj) : List Json := (items.filter (·.1 == key)).map (·.2)

@[simp]
theorem valuesOf_append (key : Str) (items others : Obj) :
    valuesOf key (items ++ others) = valuesOf key items ++ valuesOf key others := by
  simp [valuesOf]

/-- The value of a key after one assignment. -/
theorem lookup_set (o : Obj) (key other : Str) (value : Json) :
    (o.set key value).lookup other = if other = key then some value else o.lookup other := by
  rw [Obj.set]
  split_ifs with hhas hkey hkey
  · subst hkey
    induction o with
    | nil => simp [Obj.has] at hhas
    | cons entry rest ih =>
      obtain ⟨first, v⟩ := entry
      by_cases hfirst : first = other
      · simp [hfirst]
      · rw [List.map_cons, if_neg hfirst, List.lookup_cons, beq_false_of_ne (Ne.symm hfirst)]
        apply ih
        simpa [Obj.has, List.lookup_cons, beq_false_of_ne (Ne.symm hfirst)] using hhas
  · clear hhas
    induction o with
    | nil => rfl
    | cons entry rest ih =>
      obtain ⟨first, v⟩ := entry
      by_cases hfirst : first = key
      · subst hfirst
        simp [List.lookup_cons, beq_false_of_ne hkey, ih]
      · simp only [List.map_cons, if_neg hfirst, List.lookup_cons, ih]
  · subst hkey
    have hnone : o.lookup other = none := by
      rw [← Option.not_isSome_iff_eq_none]
      exact hhas
    simp [List.lookup_append, hnone]
  · simp [List.lookup_append, List.lookup_cons, beq_false_of_ne hkey]

theorem ofPairs_concat (items : Obj) (key : Str) (value : Json) :
    Obj.ofPairs (items ++ [(key, value)]) = (Obj.ofPairs items).set key value := by
  simp [Obj.ofPairs]

/-- A key has the last value that it was given. -/
theorem lookup_ofPairs (items : Obj) (key : Str) :
    (Obj.ofPairs items).lookup key = (valuesOf key items).getLast? := by
  induction items using List.reverseRecOn with
  | nil => rfl
  | append_singleton items entry ih =>
    obtain ⟨other, value⟩ := entry
    rw [ofPairs_concat, lookup_set, valuesOf_append, ih]
    by_cases hkey : key = other
    · simp [hkey, valuesOf]
    · have hother : ¬other = key := fun h => hkey h.symm
      simp [hkey, hother, valuesOf]

/-- Each value of a key equals the one before it. -/
def IdentityOk (items : Obj) : Prop :=
  ∀ key, (valuesOf key items).IsChain fun before after => before.pyEq after = true

/-- The identity fields of a chunk that are given. -/
def identityFields (keys : List Str) (chunk : Obj) : Obj :=
  keys.flatMap fun key => (present (chunk.get key)).map (key, ·)

/-- A key that is updated keeps its value. -/
theorem identityOk_concat {items : Obj} (h : IdentityOk items) (key : Str) (value : Json) :
    IdentityOk (items ++ [(key, value)]) ↔
      ∀ last, (Obj.ofPairs items).lookup key = some last → last.pyEq value = true := by
  rw [lookup_ofPairs]
  constructor
  · intro hok
    have hkey := hok key
    rw [valuesOf_append] at hkey
    have hvalue : valuesOf key [(key, value)] = [value] := by simp [valuesOf]
    rw [hvalue, isChain_concat_iff] at hkey
    exact hkey.2
  · intro hlast other
    rw [valuesOf_append]
    by_cases hkey : key = other
    · subst hkey
      have hvalue : valuesOf key [(key, value)] = [value] := by simp [valuesOf]
      rw [hvalue, isChain_concat_iff]
      exact ⟨h key, hlast⟩
    · have hvalue : valuesOf other [(key, value)] = [] := by simp [valuesOf, hkey]
      rw [hvalue, List.append_nil]
      exact h other

theorem IdentityOk.of_append {items others : Obj} (h : IdentityOk (items ++ others)) :
    IdentityOk items := by
  intro key
  have hkey := h key
  rw [valuesOf_append] at hkey
  exact hkey.left_of_append

/-- One identity field extends the identity. -/
theorem addIdentity_iff {a : Aggregate} {items : Obj} (hview : a.identity = .ofPairs items)
    (hok : IdentityOk items) (chunk : Obj) (key : Str) (a' : Aggregate) :
    a.addIdentity chunk key = .ok a' ↔
      IdentityOk (items ++ (present (chunk.get key)).map (key, ·)) ∧
        a' = { a with identity := .ofPairs (items ++ (present (chunk.get key)).map (key, ·)) } := by
  rw [Aggregate.addIdentity, present]
  cases hnone : isNone (chunk.get key) with
  | true =>
    simp only [if_true, List.map_nil, List.append_nil, hok, true_and, ← hview, Except.ok.injEq]
    exact eq_comm
  | false =>
    simp only [Bool.false_eq_true, if_false, List.map_cons, List.map_nil, ofPairs_concat,
      identityOk_concat hok, ← hview, Obj.has, Obj.get]
    rcases Option.eq_none_or_eq_some (a.identity.lookup key) with hlookup | ⟨last, hlookup⟩
    · simp [hlookup, eq_comm (b := a')]
    · cases hsame : last.pyEq ((chunk.lookup key).getD .null) with
      | true => simp [hlookup, hsame, eq_comm (b := a')]
      | false => simp [hlookup, hsame, fail]

/-- The identity fields of a chunk extend the identity. -/
theorem addIdentities_iff {a : Aggregate} {items : Obj} (hview : a.identity = .ofPairs items)
    (hok : IdentityOk items) (chunk : Obj) (keys : List Str) (a' : Aggregate) :
    a.addIdentities chunk keys = .ok a' ↔ IdentityOk (items ++ identityFields keys chunk) ∧
      a' = { a with identity := .ofPairs (items ++ identityFields keys chunk) } := by
  induction keys generalizing a a' items with
  | nil =>
    simp only [Aggregate.addIdentities, identityFields, List.flatMap_nil, List.append_nil, hok,
      true_and, ← hview, Except.ok.injEq]
    exact eq_comm
  | cons key rest ih =>
    have hfields : items ++ identityFields (key :: rest) chunk =
        items ++ (present (chunk.get key)).map (key, ·) ++ identityFields rest chunk := by
      simp [identityFields]
    simp only [Aggregate.addIdentities, bind_eq_ok_iff, addIdentity_iff hview hok]
    rw [hfields]
    constructor
    · rintro ⟨next, ⟨hfirst, hnext⟩, hrest⟩
      obtain ⟨hall, rfl⟩ := (ih (by rw [hnext]) hfirst a').mp hrest
      exact ⟨hall, by rw [hnext]⟩
    · rintro ⟨hall, rfl⟩
      have hfirst := hall.of_append
      exact ⟨_, ⟨hfirst, rfl⟩, (ih rfl hfirst _).mpr ⟨hall, rfl⟩⟩

end Identity

section Chunk

/-- A choice delta with its label, under its index. -/
def readEntry (position : Nat) (value : Json) : Option (Int × (Json × Obj)) := do
  let entry ← value.asDict
  let label := entry.getOr "index" (.int position)
  let index ← readIndex label
  return (index, (label, entry))

/-- The choice deltas of a chunk. -/
def chunkChoices (chunk : Obj) : List Json := (listOrEmpty (chunk.get "choices")).getD []

/-- Some choice deltas with their labels and indices, from a position on. -/
def entriesFrom (position : Nat) (choices : List Json) : List (Int × (Json × Obj)) :=
  (choices.zipIdx position).filterMap fun value => readEntry value.2 value.1

/-- The choice deltas of some chunks with their labels and indices. -/
def entriesOf (chunks : List Obj) : List (Int × (Json × Obj)) :=
  chunks.flatMap fun chunk => entriesFrom 0 (chunkChoices chunk)

/-- A choice with the label of its first delta. -/
def viewLabeled (group : List (Json × Obj)) : Json × Choice :=
  ((group.head?.map (·.1)).getD .null, viewChoice (group.map (·.2)))

/-- The aggregate of some chunks. -/
def viewAggregate (chunks : List Obj) : Aggregate where
  identity := .ofPairs (chunks.flatMap (identityFields identityKeys))
  usage := (given "usage" chunks).getLast?.bind Json.asDict
  choices := .ofGroups viewLabeled (entriesOf chunks)

/-- A chunk of the right shape. -/
structure ChunkOk (chunk : Obj) : Prop where
  error : chunk.get "error" = .null
  usage : chunk.get "usage" = .null ∨ ∃ usage, chunk.get "usage" = .dict usage
  choices : (listOrEmpty (chunk.get "choices")).isSome = true
  entries : ∀ value ∈ (chunkChoices chunk).zipIdx, (readEntry value.2 value.1).isSome = true

/-- The choice deltas of one choice, without their labels. -/
abbrev LabeledOk (group : List (Json × Obj)) : Prop := ChoiceOk (group.map (·.2))

/-- Chunks that are accepted. -/
structure StreamOk (chunks : List Obj) : Prop where
  shape : ∀ chunk ∈ chunks, ChunkOk chunk
  identity : IdentityOk (chunks.flatMap (identityFields identityKeys))
  choices : ∀ index, LabeledOk (IntDict.group index (entriesOf chunks))

theorem ChoiceOk.of_append {entries others : List Obj} (h : ChoiceOk (entries ++ others)) :
    ChoiceOk entries := by
  refine ⟨fun entry hentry => h.shape entry (by simp [hentry]), fun index => ?_⟩
  have htools := h.tools index
  simp only [callsOf, deltas, List.map_append, List.flatMap_append, IntDict.group_append] at htools
  exact htools.of_append

/-- One choice delta extends the choices. -/
theorem addChoice_iff {a : Aggregate} {items : List (Int × (Json × Obj))}
    (hview : a.choices = .ofGroups viewLabeled items)
    (hok : ∀ index, LabeledOk (IntDict.group index items)) (position : Nat) (value : Json)
    (a' : Aggregate) :
    a.addChoice position value = .ok a' ↔ ∃ entry, readEntry position value = some entry ∧
      (∀ index, LabeledOk (IntDict.group index (items ++ [entry]))) ∧
      a' = { a with choices := .ofGroups viewLabeled (items ++ [entry]) } := by
  rw [Aggregate.addChoice, readEntry]
  cases hdict : value.asDict with
  | none => simp [fail]
  | some entry =>
    cases hindex : readIndex (Obj.getOr entry (lit "index") (.int position)) with
    | none => simp [hindex, fail]
    | some index =>
      let label := Obj.getOr entry (lit "index") (.int position)
      have hupdate (labeled : Json × Choice) :
          Aggregate.labelled label entry ((IntDict.ofGroups viewLabeled items).find index) =
            .ok labeled ↔
            LabeledOk (IntDict.group index items ++ [(label, entry)]) ∧
              labeled = viewLabeled (IntDict.group index items ++ [(label, entry)]) := by
        have hadd := viewChoice_add_iff (hok index) entry
        obtain ⟨labeled, choice⟩ := labeled
        simp only [Aggregate.labelled, IntDict.ofGroups, LabeledOk, List.map_append, List.map_cons, List.map_nil,
          viewLabeled, Prod.mk.injEq]
        by_cases hnew : IntDict.group index items = []
        · rw [hnew] at hadd
          simp only [List.map_nil, viewChoice_nil, List.nil_append] at hadd
          simp only [hnew, if_true, Option.getD_none, bind_eq_ok_iff, hadd, pure_eq_ok,
            Except.ok.injEq, Prod.mk.injEq, List.nil_append, List.map_nil, List.head?_cons,
            Option.map_some, Option.getD_some]
          constructor
          · rintro ⟨_, ⟨hentry, rfl⟩, rfl, rfl⟩
            exact ⟨hentry, rfl, rfl⟩
          · rintro ⟨hentry, rfl, rfl⟩
            exact ⟨_, ⟨hentry, rfl⟩, rfl, rfl⟩
        · obtain ⟨first, rest, hgroup⟩ := List.exists_cons_of_ne_nil hnew
          simp only [hnew, if_false, Option.getD_some, bind_eq_ok_iff, hadd, pure_eq_ok,
            Except.ok.injEq, Prod.mk.injEq]
          constructor
          · rintro ⟨_, ⟨hentry, rfl⟩, rfl, rfl⟩
            exact ⟨hentry, by simp [hgroup], rfl⟩
          · rintro ⟨hentry, rfl, rfl⟩
            exact ⟨_, ⟨hentry, rfl⟩, by simp [hgroup], rfl⟩
      have hupsert := @IntDict.upsert_ofGroups_iff _ _ _ LabeledOk viewLabeled items hok index
        (label, entry) (Aggregate.labelled label entry) hupdate
      simp only [Option.bind_eq_bind, Option.bind_some, Option.pure_def, hindex, Option.some.injEq,
        exists_eq_left']
      rw [hview, bind_eq_ok_iff]
      constructor
      · rintro ⟨choices, hchoices, ha'⟩
        obtain ⟨hgrown, rfl⟩ := (hupsert choices).mp hchoices
        exact ⟨hgrown, (Except.ok.inj ha').symm⟩
      · rintro ⟨hgrown, rfl⟩
        exact ⟨_, (hupsert _).mpr ⟨hgrown, rfl⟩, rfl⟩

/-- The choice deltas of a chunk extend the choices. -/
theorem addChoices_iff {a : Aggregate} {items : List (Int × (Json × Obj))}
    (hview : a.choices = .ofGroups viewLabeled items)
    (hok : ∀ index, LabeledOk (IntDict.group index items)) (position : Nat) (values : List Json)
    (a' : Aggregate) :
    a.addChoices position values = .ok a' ↔
      (∀ value ∈ values.zipIdx position, (readEntry value.2 value.1).isSome = true) ∧
      (∀ index, LabeledOk (IntDict.group index (items ++ entriesFrom position values))) ∧
      a' = { a with choices := .ofGroups viewLabeled (items ++ entriesFrom position values) } := by
  induction values generalizing a a' items position with
  | nil =>
    simp only [Aggregate.addChoices, entriesFrom, List.zipIdx_nil, List.filterMap_nil,
      List.append_nil, ← hview, Except.ok.injEq, List.not_mem_nil, false_imp_iff, implies_true,
      true_and, hok]
    exact eq_comm
  | cons value rest ih =>
    simp only [Aggregate.addChoices, bind_eq_ok_iff, addChoice_iff hview hok, List.zipIdx_cons,
      List.forall_mem_cons]
    have hentries {entry : Int × (Json × Obj)} (hentry : readEntry position value = some entry) :
        items ++ entriesFrom position (value :: rest) =
          items ++ [entry] ++ entriesFrom (position + 1) rest := by
      simp [entriesFrom, List.zipIdx_cons, List.filterMap_cons_some (f := fun value : Json × Nat =>
        readEntry value.2 value.1) (a := (value, position)) (b := entry) hentry]
    constructor
    · rintro ⟨next, ⟨entry, hentry, hfirst, hnext⟩, hrest⟩
      obtain ⟨hshape, hall, rfl⟩ := (ih (by rw [hnext]) hfirst (position + 1) a').mp hrest
      rw [hentries hentry]
      exact ⟨⟨by simp [hentry], hshape⟩, hall, by rw [hnext]⟩
    · rintro ⟨⟨hshape, hshapes⟩, hall, rfl⟩
      obtain ⟨entry, hentry⟩ := Option.isSome_iff_exists.mp hshape
      rw [hentries hentry] at hall ⊢
      have hfirst : ∀ index, LabeledOk (IntDict.group index (items ++ [entry])) := by
        intro index
        have hindex := hall index
        rw [IntDict.group_append, LabeledOk, List.map_append] at hindex
        exact hindex.of_append
      exact ⟨_, ⟨entry, hentry, hfirst, rfl⟩, (ih rfl hfirst _ _).mpr ⟨hshapes, hall, rfl⟩⟩

/-- The usage of a chunk is added when it is an object or missing. -/
theorem addUsage_iff (a a' : Aggregate) (chunk : Obj) : a.addUsage chunk = .ok a' ↔
    (chunk.get "usage" = .null ∨ ∃ usage, chunk.get "usage" = .dict usage) ∧
      a' = { a with usage := (chunk.get "usage").asDict.or a.usage } := by
  rw [Aggregate.addUsage]
  cases chunk.get (lit "usage") <;> simp [Json.asDict, fail, eq_comm (b := a')]

/-- One more chunk extends the aggregate. -/
theorem viewAggregate_addChunk_iff {chunks : List Obj} (h : StreamOk chunks) (value : Json)
    (a : Aggregate) :
    (viewAggregate chunks).addChunk value = .ok a ↔ ∃ chunk, value = .dict chunk ∧
      StreamOk (chunks ++ [chunk]) ∧ a = viewAggregate (chunks ++ [chunk]) := by
  cases value with
  | dict chunk =>
    have hview : viewAggregate (chunks ++ [chunk]) =
        { identity := .ofPairs (chunks.flatMap (identityFields identityKeys) ++
            identityFields identityKeys chunk)
          usage := (Obj.get chunk "usage").asDict.or (viewAggregate chunks).usage
          choices := .ofGroups viewLabeled
            (entriesOf chunks ++ entriesFrom 0 (chunkChoices chunk)) } ∨
        ¬(Obj.get chunk "usage" = .null ∨ ∃ usage, Obj.get chunk "usage" = .dict usage) := by
      rw [or_iff_not_imp_right, not_not]
      intro husage
      simp only [viewAggregate, List.flatMap_append, List.flatMap_cons, List.flatMap_nil,
        List.append_nil, entriesOf, given_append, given_singleton, Aggregate.mk.injEq, true_and,
        and_true]
      rcases husage with hnull | ⟨usage, husage⟩
      · rw [hnull]
        simp only [present, isNone, if_true, List.append_nil]
        rfl
      · simp [husage, present, isNone, Json.asDict]
    have hconcat : StreamOk (chunks ++ [chunk]) ↔ ChunkOk chunk ∧
        IdentityOk (chunks.flatMap (identityFields identityKeys) ++
          identityFields identityKeys chunk) ∧
        ∀ index, LabeledOk (IntDict.group index
          (entriesOf chunks ++ entriesFrom 0 (chunkChoices chunk))) := by
      constructor
      · intro hok
        refine ⟨hok.shape chunk (by simp), ?_, ?_⟩
        · simpa using hok.identity
        · simpa [entriesOf] using hok.choices
      · rintro ⟨hchunk, hidentity, hchoices⟩
        refine ⟨?_, by simpa using hidentity, by simpa [entriesOf] using hchoices⟩
        intro other hother
        rcases List.mem_append.mp hother with hold | hnew
        · exact h.shape other hold
        · obtain rfl : other = chunk := by simpa using hnew
          exact hchunk
    have hidentities := addIdentities_iff (a := viewAggregate chunks) rfl h.identity chunk
      identityKeys
    simp only [Aggregate.addChunk, Json.asDict]
    cases herror : isNone (Obj.get chunk (lit "error")) with
    | false =>
      simp only [Bool.not_false, if_true, fail, reduceCtorEq, Json.dict.injEq, exists_eq_left',
        false_iff, not_and]
      intro hok
      have hnone := (hok.shape chunk (by simp)).error
      rw [hnone] at herror
      cases herror
    | true =>
      have herror : Obj.get chunk (lit "error") = .null := by
        revert herror
        cases Obj.get chunk (lit "error") <;> simp [isNone]
      simp only [Bool.not_true, Bool.false_eq_true, if_false, bind_eq_ok_iff, hidentities,
        addUsage_iff, Json.dict.injEq, exists_eq_left']
      cases hchoices : listOrEmpty (Obj.get chunk (lit "choices")) with
      | none =>
        simp only [fail, reduceCtorEq, and_false, exists_false, false_iff, not_and]
        intro hok
        have hsome := (hok.shape chunk (by simp)).choices
        simp [hchoices] at hsome
      | some choices =>
        have hvalues : chunkChoices chunk = choices := by simp [chunkChoices, hchoices]
        constructor
        · rintro ⟨_, ⟨hidentity, rfl⟩, _, ⟨husage, rfl⟩, hadd⟩
          obtain ⟨hshape, hgroups, rfl⟩ := (addChoices_iff rfl h.choices 0 choices a).mp hadd
          rw [← hvalues] at hshape hgroups
          refine ⟨hconcat.mpr ⟨⟨herror, husage, by simp [hchoices], hshape⟩, hidentity, hgroups⟩, ?_⟩
          rw [hview.resolve_right (not_not.mpr husage), hvalues]
        · rintro ⟨hok, rfl⟩
          obtain ⟨hchunk, hidentity, hgroups⟩ := hconcat.mp hok
          refine ⟨_, ⟨hidentity, rfl⟩, _, ⟨hchunk.usage, rfl⟩, ?_⟩
          refine (addChoices_iff rfl h.choices 0 choices _).mpr ?_
          rw [hview.resolve_right (not_not.mpr hchunk.usage), ← hvalues]
          exact ⟨hchunk.entries, hgroups, rfl⟩
  | _ => simp [Aggregate.addChunk, Json.asDict, fail]

end Chunk

section Run

/-- The chunks of a stream up to its end, and whether the stream ended with `[DONE]`. -/
def readChunks (depth : Nat) : List Frame → Except Failure (List Json × Bool)
  | [] => .ok ([], false)
  | .error message :: _ => fail message
  | .ok data :: rest =>
    if isDone data then .ok ([], true)
    else do
      let chunk ← readChunk depth data
      let (chunks, done) ← readChunks depth rest
      return (chunk :: chunks, done)

/-- No chunk is accepted without any. -/
theorem streamOk_nil : StreamOk [] where
  shape := by simp
  identity := fun _ => .nil
  choices := fun _ => choiceOk_nil

theorem viewAggregate_nil : viewAggregate [] = {} := by
  rfl

/-- The first chunks of a stream that is accepted are accepted. -/
theorem StreamOk.of_append {chunks others : List Obj} (h : StreamOk (chunks ++ others)) :
    StreamOk chunks := by
  refine ⟨fun chunk hchunk => h.shape chunk (by simp [hchunk]), ?_, fun index => ?_⟩
  · have hidentity := h.identity
    rw [List.flatMap_append] at hidentity
    exact hidentity.of_append
  · have hchoices := h.choices index
    rw [entriesOf, List.flatMap_append, IntDict.group_append, LabeledOk, List.map_append] at hchoices
    exact hchoices.of_append

/-- A run over a stream reads its chunks and builds their view. -/
theorem consume_iff {depth : Nat} {seen : List Obj} (h : StreamOk seen) (frames : List Frame)
    (a : Aggregate) (done : Bool) :
    consume depth (viewAggregate seen) frames = .ok (a, done) ↔ ∃ chunks : List Obj,
      readChunks depth frames = .ok (chunks.map .dict, done) ∧ StreamOk (seen ++ chunks) ∧
        a = viewAggregate (seen ++ chunks) := by
  induction frames generalizing seen with
  | nil =>
    simp only [consume, readChunks, Except.ok.injEq, Prod.mk.injEq]
    constructor
    · rintro ⟨rfl, rfl⟩
      exact ⟨[], ⟨rfl, rfl⟩, by simpa using h, by simp⟩
    · rintro ⟨chunks, ⟨hchunks, rfl⟩, -, rfl⟩
      obtain rfl : chunks = [] := by simpa using hchunks.symm
      simp
  | cons frame rest ih =>
    cases frame with
    | error message => simp [consume, readChunks, fail]
    | ok data =>
      simp only [consume, readChunks]
      cases hdone : isDone data with
      | true =>
        simp only [if_true, Except.ok.injEq, Prod.mk.injEq]
        constructor
        · rintro ⟨rfl, rfl⟩
          exact ⟨[], ⟨rfl, rfl⟩, by simpa using h, by simp⟩
        · rintro ⟨chunks, ⟨hchunks, rfl⟩, -, rfl⟩
          obtain rfl : chunks = [] := by simpa using hchunks.symm
          simp
      | false =>
        simp only [Bool.false_eq_true, if_false, bind_eq_ok_iff, viewAggregate_addChunk_iff h]
        constructor
        · rintro ⟨_, hread, _, ⟨chunk, rfl, hok, rfl⟩, hrest⟩
          obtain ⟨chunks, hchunks, hall, rfl⟩ := (ih hok).mp hrest
          rw [List.append_assoc] at hall ⊢
          exact ⟨chunk :: chunks, ⟨_, hread, (chunks.map .dict, done), hchunks, rfl⟩, hall, rfl⟩
        · rintro ⟨chunks, ⟨value, hread, ⟨others, done'⟩, hothers, hchunks⟩, hall, rfl⟩
          obtain ⟨hvalues, rfl⟩ := Prod.mk.inj (Except.ok.inj hchunks)
          obtain ⟨chunk, chunks, rfl⟩ : ∃ chunk tail, chunks = chunk :: tail := by
            cases chunks with
            | nil => simp at hvalues
            | cons chunk tail => exact ⟨chunk, tail, rfl⟩
          obtain ⟨rfl, rfl⟩ := List.cons.inj hvalues
          rw [List.append_cons] at hall
          have hfirst := hall.of_append
          refine ⟨_, hread, _, ⟨chunk, rfl, hfirst, rfl⟩, (ih hfirst).mpr ⟨chunks, hothers, hall, ?_⟩⟩
          rw [List.append_cons]

end Run

end ChatStream

end OpenCollabEval
