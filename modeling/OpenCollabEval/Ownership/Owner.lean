import OpenCollabEval.Python.JsonDocument
import OpenCollabEval.Records.RecordLog

/-!
# Owner records of containers

Every container that a generator starts has an owner record beside the run: a small JSON file that
names the container, the process that owns it and the token of its label, and says how far the
candidate in the container has come.
-/

open Python

namespace OpenCollabEval

/-- The states of an owner record. -/
inductive OwnerState where
  | pending
  | active
  | preservationRequired
  | candidateStaged
  | kept
  deriving DecidableEq

/-- The word that a record has for its state. -/
def OwnerState.word : OwnerState → Str
  | pending => "pending"
  | active => "active"
  | preservationRequired => "preservation_required"
  | candidateStaged => "candidate_staged"
  | kept => "kept"

/-- The states that `_read_owner` accepts. -/
def OwnerState.all : List OwnerState :=
  [.pending, .active, .preservationRequired, .candidateStaged, .kept]

/-- A record of `_owner_record`. -/
structure OwnerRecord where
  state : OwnerState
  containerName : Str
  /-- Empty until the container has been started. -/
  containerId : Str
  ownerPid : Int
  ownerStartIdentity : Str
  ownerToken : Str
  deriving DecidableEq

/-- `CONTAINER_OWNER_SCHEMA_VERSION` -/
def containerOwnerSchemaVersion : Int := 1

/-- `max_bytes` of `_read_owner` -/
def maxOwnerBytes : Nat := 1024 * 1024

/-- The dict of a record. -/
def OwnerRecord.document (record : OwnerRecord) : Obj :=
  Obj.of [("schema_version", .int containerOwnerSchemaVersion), ("state", .str record.state.word),
    ("container_name", .str record.containerName), ("container_id", .str record.containerId),
    ("owner_pid", .int record.ownerPid), ("owner_start_identity", .str record.ownerStartIdentity),
    ("owner_token", .str record.ownerToken)]

/-- `_encode_owner` -/
def encodeOwner (record : OwnerRecord) : Except PyErr (List Nat) :=
  Str.encode (DumpFormat.sorted.dumpsUnescaped (.dict record.document) ++ lit "\n")

/-- What `_read_owner` makes of a document. A state that cannot be hashed raises. -/
def ownerOfDocument (value : Obj) : Except PyErr (Option OwnerRecord) :=
  if !(value.get "schema_version").pyEq (.int containerOwnerSchemaVersion) then .ok none
  else
    match value.get "state" with
    | .list _ | .dict _ => .error .typeError
    | .str word =>
      match OwnerState.all.find? (·.word == word), value.get "container_name",
          value.getOr "container_id" "", value.get "owner_pid",
          value.getOr "owner_start_identity" "", value.get "owner_token" with
      | some state, .str containerName, .str containerId, .int ownerPid,
          .str ownerStartIdentity, .str ownerToken =>
        if containerName.isEmpty || ownerPid ≤ 0 || ownerToken.isEmpty then .ok none
        else .ok (some { state, containerName, containerId, ownerPid, ownerStartIdentity,
                         ownerToken })
      | _, _, _, _, _, _ => .ok none
    | _ => .ok none

/-- `_read_owner` on the bytes of a file. -/
def readOwnerBytes (host : LogHost) (content : List Nat) : Except PyErr (Option OwnerRecord) :=
  if maxOwnerBytes < content.length then .ok none
  else
    match loadsUtf8 host content with
    | .error .jsonDecodeError | .error .recursionError => .ok none
    | .error e => .error e
    | .ok (.dict value) => ownerOfDocument value
    | .ok _ => .ok none

/-- Text without surrogates. -/
def IsText (s : Str) : Prop := ∀ c ∈ s, c ≤ 0x10FFFF ∧ Str.isSurrogate c = false

/-- A record whose texts can be encoded and that names its container, its process and its token. -/
structure OwnerRecord.Complete (record : OwnerRecord) : Prop where
  name : record.containerName ≠ []
  pid : 0 < record.ownerPid
  token : record.ownerToken ≠ []
  short : (natStr record.ownerPid.natAbs).length ≤ maxIntDigits
  containerName : IsText record.containerName
  containerId : IsText record.containerId
  ownerStartIdentity : IsText record.ownerStartIdentity
  ownerToken : IsText record.ownerToken

theorem IsText.readable {s : Str} (h : IsText s) : s.Readable where
  points c hc := by
    have hpoint := (h c hc).1
    omega
  separate := by
    refine List.Pairwise.isChain (List.pairwise_of_forall_mem_list fun c hc d _ => ?_)
    have hsurrogate := (h c hc).2
    rw [Bool.and_eq_false_iff]
    left
    simp only [Str.isSurrogate, isHighSurrogate, Bool.and_eq_false_iff,
      decide_eq_false_iff_not] at hsurrogate ⊢
    omega

theorem isText_of_small {s : Str} (h : ∀ c ∈ s, c < 128) : IsText s := by
  intro c hc
  have hsmall := h c hc
  refine ⟨by omega, ?_⟩
  simp only [Str.isSurrogate, Bool.and_eq_false_iff, decide_eq_false_iff_not]
  omega

section Document

variable {record : OwnerRecord}

theorem OwnerRecord.word_small (state : OwnerState) : ∀ c ∈ state.word, c < 128 := by
  cases state <;> decide

/-- The keys of a record. -/
def ownerKeys : List Str :=
  lits ["schema_version", "state", "container_name", "container_id", "owner_pid",
    "owner_start_identity", "owner_token"]

theorem OwnerRecord.keys_document : record.document.map (·.1) = ownerKeys := by
  simp [document, ownerKeys, lits]

theorem OwnerRecord.nodup_document : (record.document.map (·.1)).Nodup := by
  rw [keys_document]
  decide

/-- The values of a complete record can be written. -/
theorem OwnerRecord.Complete.readable (h : record.Complete) (depth : Nat) :
    Json.Readable (depth + 1) (.dict record.document) := by
  refine .dict depth _ nodup_document (fun entry hentry => ?_) fun entry hentry => ?_
  · refine Str.readable_of_small ?_
    have hkeys : ∀ key ∈ ownerKeys, ∀ c ∈ key, c < 128 := by decide
    exact hkeys _ (keys_document ▸ List.mem_map_of_mem hentry)
  · simp only [document, Obj.of_cons, Obj.of_nil, List.mem_cons, List.not_mem_nil,
      or_false] at hentry
    rcases hentry with rfl | rfl | rfl | rfl | rfl | rfl | rfl
    · exact .int depth _ (by decide)
    · exact .str depth _ (Str.readable_of_small (word_small _))
    · exact .str depth _ h.containerName.readable
    · exact .str depth _ h.containerId.readable
    · exact .int depth _ h.short
    · exact .str depth _ h.ownerStartIdentity.readable
    · exact .str depth _ h.ownerToken.readable

/-- The order of the keys of a document does not matter. -/
theorem ownerOfDocument_of_perm {o o' : Obj} (hperm : o.Perm o') (h : (o'.map (·.1)).Nodup) :
    ownerOfDocument o = ownerOfDocument o' := by
  have hlookup := Obj.lookup_of_perm hperm h
  simp only [ownerOfDocument, Obj.get, Obj.getOr, hlookup]
  rfl

theorem OwnerState.find_word (state : OwnerState) :
    OwnerState.all.find? (·.word == state.word) = some state := by
  cases state <;> decide

/-- A document is read as the record that it was made of. -/
theorem OwnerRecord.Complete.ownerOfDocument (h : record.Complete) :
    ownerOfDocument record.document = .ok (some record) := by
  have hpid : ¬record.ownerPid ≤ 0 := by
    have hpos := h.pid
    omega
  have hversion : (Json.int containerOwnerSchemaVersion).pyEq (.int containerOwnerSchemaVersion) =
      true := by decide
  simp [OpenCollabEval.ownerOfDocument, document, hversion, OwnerState.find_word, hpid, h.name,
    h.token]

/-- What `_encode_owner` writes, `_read_owner` reads back. -/
theorem readOwnerBytes_encodeOwner {host : LogHost} (hdepth : 0 < host.depth)
    (h : record.Complete) {content : List Nat} (hencode : encodeOwner record = .ok content)
    (hlength : content.length ≤ maxOwnerBytes) :
    readOwnerBytes host content = .ok (some record) := by
  obtain ⟨depth, hdepth⟩ := Nat.exists_eq_succ_of_ne_zero (Nat.ne_of_gt hdepth)
  have hreadable := h.readable depth
  have hseparators : DumpFormat.sorted.itemSeparator.Plain ∧ DumpFormat.sorted.keySeparator.Plain := by
    simp [DumpFormat.sorted, lit, Str.Plain]
  have hplain := DumpFormat.plain_dumps_of_separators hseparators.1 hseparators.2 hreadable
  rw [encodeOwner, Str.encode] at hencode
  split at hencode
  · cases hencode
  rename_i hnone
  cases hencode
  -- the text has no surrogates, or it would not have been encoded
  have hdecode := @Str.decodeUtf8_encode false
    (DumpFormat.sorted.dumpsUnescaped (.dict record.document) ++ lit "\n") (by
      intro c hc
      have hsurrogate : Str.isSurrogate c = false := by
        rw [Bool.not_eq_true, List.any_eq_false] at hnone
        simpa using hnone c hc
      refine ⟨?_, hsurrogate⟩
      rcases List.mem_append.mp hc with hc | hc
      · exact Nat.le_of_lt_succ (hplain c hc).2
      · have hnewline : c = 10 := by simpa [lit] using hc
        omega)
  have hreads := DumpFormat.readsAs_dumpsUnescaped DumpFormat.standard_sorted hreadable
  have hnewline : ∀ c ∈ lit "\n", isJsonSpace c = true := by simp [lit, isJsonSpace]
  have hloads := loads_of_readsAs hreads hnewline
  have horder : DumpFormat.sorted.reorder (.dict record.document) =
      .dict (DumpFormat.sorted.arrange record.document) := by
    rw [DumpFormat.reorder, DumpFormat.reorderEntries_eq_map]
    simp [OwnerRecord.document, DumpFormat.reorder]
  rw [readOwnerBytes, if_neg (by omega), loadsUtf8, hdecode, hdepth]
  simp only [hloads, horder]
  rw [ownerOfDocument_of_perm (DumpFormat.arrange_perm _) OwnerRecord.nodup_document,
    h.ownerOfDocument]

end Document

end OpenCollabEval
