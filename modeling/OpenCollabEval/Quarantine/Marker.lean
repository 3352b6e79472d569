import OpenCollabEval.Posix.HardLinks
import OpenCollabEval.Python.Glob
import OpenCollabEval.Python.JsonDocument
import OpenCollabEval.Python.JsonRest
import OpenCollabEval.Python.Runs
import OpenCollabEval.Python.Utf8

/-!
# Quarantine markers of a report

A report is quarantined when a marker stands beside it: a file whose name begins with that of the
report and a quarantine suffix, and that is either the same inode or a small JSON document that
names the report's device and inode number.
-/

open Python

namespace OpenCollabEval

/-- `(st_dev, st_ino)`. -/
abbrev FileIdentity := UInt64 × UInt64

/-- The directory of a report. -/
abbrev QuarantineDirectory := Posix.LinkDirectory FileIdentity

/-- The endings of the names of markers. -/
def quarantineSuffixes : List Str := [".invalid", ".command_failed"]

/-- The limit on the size of a metadata marker. -/
def quarantineMarkerBytes : Nat := 512

/-- The two numbers as Python has them. -/
def identityNumbers (identity : FileIdentity) : Int × Int :=
  (identity.1.toNat, identity.2.toNat)

/-- The ending of the marker with an ordinal. -/
def markerTag (suffix : Str) (ordinal : Nat) : Str :=
  if ordinal = 0 then suffix else suffix ++ lit "." ++ natStr ordinal

/-- `{"source_identity": list(identity)}`. -/
def identityDocument (identity : FileIdentity) : Json :=
  .dict [("source_identity",
    .list [.int (identityNumbers identity).1, .int (identityNumbers identity).2])]

/-- The bytes of a metadata marker. -/
def markerPayload (identity : FileIdentity) : List Nat :=
  (DumpFormat.plain.dumps (identityDocument identity)).encodeSurrogatePass

/-- The identity that a document of a metadata marker names. -/
def sourceIdentity (value : Json) : Option (Int × Int) :=
  match value with
  | .dict value =>
    match Obj.get value "source_identity" with
    | .list [.int device, .int inode] => some (device, inode)
    | _ => none
  | _ => none

/-- The identity that the bytes of a metadata marker name. No document of this size is nested deeper
than it is long. -/
def contentIdentity (content : List Nat) : Option (Int × Int) :=
  if quarantineMarkerBytes < content.length then none
  else
    match Str.decodeUtf8 false content with
    | none => none
    | some text =>
      match loads quarantineMarkerBytes text with
      | .ok value => sourceIdentity value
      | .error _ => none

section Directory

variable (d : QuarantineDirectory)

/-- `_regular_identity`. -/
def regularIdentity (name : Str) : Option FileIdentity :=
  (d.lookup name).filter fun identity => (d.inodes identity).kind = .regular

/-- `_metadata_marker_identity`. -/
def metadataMarkerIdentity (name : Str) : Option (Int × Int) :=
  (regularIdentity d name).bind fun identity => contentIdentity (d.inodes identity).content

/-- `path.parent.glob(pattern)`. -/
def globNames (pattern : Str) : Except PyErr (List Str) := do
  Glob.checkPattern pattern
  return (d.names.map (·.1)).filter (Glob.fnmatch · pattern)

/-- A marker is of the inode of a report, by a hard link or by its document. -/
def marksIdentity (identity : FileIdentity) (marker : Str) : Bool :=
  regularIdentity d marker == some identity ||
    metadataMarkerIdentity d marker == some (identityNumbers identity)

/-- The search for a marker with one suffix. -/
def searchMarkers (identity : FileIdentity) (name suffix : Str) : Except PyErr Bool := do
  let markers ← globNames d (name ++ suffix ++ lit "*")
  return markers.any (marksIdentity d identity)

/-- `_has_quarantine_marker`. -/
def hasQuarantineMarker (name : Str) : Except PyErr Bool :=
  match regularIdentity d name with
  | none => .ok false
  | some identity => quarantineSuffixes.anyM (searchMarkers d identity name)

end Directory

/-- A file of this name is looked at as a marker of a report. -/
def Marks (name marker : Str) : Prop :=
  Str.contains name "**" = false ∧
    ∃ suffix ∈ quarantineSuffixes, Glob.fnmatch marker (name ++ suffix ++ lit "*") = true

variable {d : QuarantineDirectory} {name marker : Str} {identity : FileIdentity}

theorem regularIdentity_eq_some :
    regularIdentity d name = some identity ↔
      d.lookup name = some identity ∧ (d.inodes identity).kind = .regular := by
  rw [regularIdentity, Option.filter_eq_some_iff, decide_eq_true_iff]

/-- What is looked at exists. -/
theorem lookup_of_marksIdentity (h : marksIdentity d identity marker = true) :
    ∃ other, d.lookup marker = some other := by
  rw [marksIdentity, Bool.or_eq_true, beq_iff_eq, beq_iff_eq] at h
  rcases h with h | h
  · exact ⟨identity, (regularIdentity_eq_some.mp h).1⟩
  · obtain ⟨other, hother, -⟩ := Option.bind_eq_some_iff.mp h
    exact ⟨other, (regularIdentity_eq_some.mp hother).1⟩

theorem literal_of_mem_suffixes {suffix : Str} (h : suffix ∈ quarantineSuffixes) :
    Glob.Literal suffix ∧ suffix ≠ [] := by
  have hall : ∀ suffix ∈ quarantineSuffixes,
      (∀ c ∈ suffix, c ≠ 42 ∧ c ≠ 63 ∧ c ≠ 91) ∧ suffix ≠ [] := by decide
  exact hall suffix h

/-- What the search for the markers with one suffix finds. -/
theorem searchMarkers_eq (identity : FileIdentity) {suffix : Str}
    (h : suffix ∈ quarantineSuffixes) :
    searchMarkers d identity name suffix =
      if Str.contains name "**" then .error .valueError
      else .ok ((d.names.map (·.1)).any fun marker =>
        Glob.fnmatch marker (name ++ suffix ++ lit "*") && marksIdentity d identity marker) := by
  obtain ⟨hliteral, hne⟩ := literal_of_mem_suffixes h
  rw [searchMarkers, globNames, List.append_assoc, Glob.checkPattern_append hliteral hne]
  by_cases hstars : Str.contains name "**" = true
  · rw [if_pos hstars, if_pos hstars]
    rfl
  · rw [if_neg hstars, if_neg hstars]
    simp only [ok_bind, pure_eq_ok, List.any_filter]

/-- A report has a marker when a file beside it is looked at and is of the report's inode. -/
theorem hasQuarantineMarker_iff :
    hasQuarantineMarker d name = .ok true ↔
      ∃ identity, regularIdentity d name = some identity ∧
        ∃ marker, Marks name marker ∧ marksIdentity d identity marker = true := by
  rw [hasQuarantineMarker]
  cases regularIdentity d name with
  | none => simp
  | some identity =>
    have hmem (marker : Str) (h : marksIdentity d identity marker = true) :
        marker ∈ d.names.map (·.1) := by
      obtain ⟨other, hother⟩ := lookup_of_marksIdentity h
      obtain ⟨before, after, hsplit, -⟩ := List.lookup_eq_some_iff.mp hother
      simp [hsplit]
    dsimp only
    by_cases hstars : Str.contains name "**" = true
    · have herror : searchMarkers d identity name ".invalid" = .error .valueError := by
        rw [searchMarkers_eq identity List.mem_cons_self, if_pos hstars]
      rw [quarantineSuffixes, List.anyM, herror]
      simp [Marks, hstars]
    · rw [anyM_eq_ok fun suffix hsuffix => by
        rw [searchMarkers_eq identity hsuffix, if_neg hstars]]
      simp only [Except.ok.injEq, Option.some.injEq, exists_eq_left', List.any_eq_true,
        Bool.and_eq_true, Marks, Bool.eq_false_iff.mpr hstars, true_and]
      constructor
      · rintro ⟨suffix, hsuffix, marker, -, hmatch, hmarks⟩
        exact ⟨marker, ⟨suffix, hsuffix, hmatch⟩, hmarks⟩
      · rintro ⟨marker, ⟨suffix, hsuffix, hmatch⟩, hmarks⟩
        exact ⟨suffix, hsuffix, marker, hmem marker hmarks, hmatch, hmarks⟩

/-- A metadata marker between its braces. -/
def identityBody (identity : FileIdentity) : Str :=
  lit "\"source_identity\": [" ++ natStr identity.1.toNat ++ lit ", " ++
    natStr identity.2.toNat ++ lit "]"

theorem dumps_identityDocument (identity : FileIdentity) :
    DumpFormat.plain.dumps (identityDocument identity) =
      123 :: (identityBody identity ++ [125]) := by
  have hkey : dumpStr "source_identity" = lit "\"source_identity\"" := by decide
  have hint (n : UInt64) : DumpFormat.plain.dumps (.int n.toNat) = natStr n.toNat := rfl
  rw [identityDocument, DumpFormat.dumps_dict, DumpFormat.arrange, if_neg (by decide),
    List.map_singleton, Str.join_singleton, DumpFormat.dumps_list, List.map_cons,
    List.map_singleton,
    identityNumbers, hint, hint, hkey, Str.join_cons_cons, Str.join_singleton,
    identityBody]
  have hopen : lit "\"source_identity\"" ++ (DumpFormat.plain.keySeparator ++ [91]) =
      lit "\"source_identity\": [" := by decide
  rw [← hopen]
  simp only [List.append_assoc, List.cons_append, List.nil_append]
  rfl

theorem length_natStr_uint64 (n : UInt64) : (natStr n.toNat).length ≤ 20 := by
  have hlt : n.toNat < 10 ^ 20 := lt_trans n.toNat_lt (by decide)
  rw [natStr]
  split_ifs
  · decide
  · rw [List.length_map, digits, List.length_reverse]
    exact (Nat.digits_length_le_iff (by decide) _).mpr hlt

/-- The body of a marker is ASCII text without a closing brace. -/
theorem ascii_of_mem_identityBody {c : Nat} (h : c ∈ identityBody identity) :
    c < 128 ∧ c ≠ 125 := by
  have hdigit : ∀ n : Nat, c ∈ natStr n → c < 128 ∧ c ≠ 125 := by
    intro n hc
    have hdigit := isDigit_of_mem_natStr hc
    simp only [Str.isDigit, Bool.and_eq_true, decide_eq_true_eq] at hdigit
    omega
  have hall : ∀ text ∈ [lit "\"source_identity\": [", lit ", ", lit "]"], ∀ c ∈ text,
      c < 128 ∧ c ≠ 125 := by decide
  simp only [identityBody, List.mem_append] at h
  rcases h with (((h | h) | h) | h) | h
  · exact hall _ (by simp) c h
  · exact hdigit _ h
  · exact hall _ (by simp) c h
  · exact hdigit _ h
  · exact hall _ (by simp) c h

theorem encode_of_ascii {s : Str} (h : ∀ c ∈ s, c < 128) : s.encodeSurrogatePass = s := by
  induction s with
  | nil => rfl
  | cons c s ih =>
    have hc : Str.utf8Char c = [c] := by rw [Str.utf8Char, if_pos (h c List.mem_cons_self)]
    have hrest := ih fun d hd => h d (List.mem_cons_of_mem c hd)
    rw [Str.encodeSurrogatePass, List.flatMap_cons, hc]
    exact congrArg (c :: ·) hrest

/-- ASCII bytes are their own text. -/
theorem decodeUtf8_of_ascii {bytes : List Nat} (h : ∀ c ∈ bytes, c < 128) :
    Str.decodeUtf8 false bytes = some bytes := by
  have hpoints : ∀ c ∈ bytes, c ≤ 0x10FFFF ∧ Str.isSurrogate c = false := by
    intro c hc
    have hlt := h c hc
    simp only [Str.isSurrogate, Bool.and_eq_false_iff, decide_eq_false_iff_not]
    omega
  have hdecoded := @Str.decodeUtf8_encode false bytes hpoints
  rwa [encode_of_ascii h] at hdecoded

theorem markerPayload_eq (identity : FileIdentity) :
    markerPayload identity = 123 :: (identityBody identity ++ [125]) := by
  rw [markerPayload, dumps_identityDocument]
  refine encode_of_ascii fun c hc => ?_
  simp only [List.mem_cons, List.mem_append, List.not_mem_nil, or_false] at hc
  rcases hc with rfl | hc | rfl
  · decide
  · exact (ascii_of_mem_identityBody hc).1
  · decide

theorem ascii_of_mem_markerPayload {c : Nat} (h : c ∈ markerPayload identity) : c < 128 := by
  rw [markerPayload_eq] at h
  simp only [List.mem_cons, List.mem_append, List.not_mem_nil, or_false] at h
  rcases h with rfl | h | rfl
  · decide
  · exact (ascii_of_mem_identityBody h).1
  · decide

/-- A complete metadata marker names the identity that it was written for. -/
theorem contentIdentity_markerPayload (identity : FileIdentity) :
    contentIdentity (markerPayload identity) = some (identityNumbers identity) := by
  have hshort : ¬quarantineMarkerBytes < (markerPayload identity).length := by
    have hdevice := length_natStr_uint64 identity.1
    have hinode := length_natStr_uint64 identity.2
    have hopen : (lit "\"source_identity\": [").length = 20 := by decide
    have hcomma : (lit ", ").length = 2 := by decide
    have hclose : (lit "]").length = 1 := by decide
    rw [markerPayload_eq, quarantineMarkerBytes]
    simp only [identityBody, List.length_cons, List.length_append, List.length_nil, hopen, hcomma,
      hclose]
    omega
  have hint (n : UInt64) : (Json.int n.toNat).Readable 510 :=
    .int _ _ ((length_natStr_uint64 n).trans (by decide))
  have hreadable : (identityDocument identity).Readable quarantineMarkerBytes := by
    refine .dict 511 _ (List.nodup_singleton _) ?_ ?_
    · intro entry hentry
      have hsmall : ∀ c ∈ lit "source_identity", c < 128 := by decide
      rw [List.mem_singleton.mp hentry]
      exact Str.readable_of_small hsmall
    · intro entry hentry
      rw [List.mem_singleton.mp hentry]
      refine .list 510 _ fun v hv => ?_
      rw [List.mem_pair] at hv
      rcases hv with rfl | rfl
      · exact hint _
      · exact hint _
  have hloads := DumpFormat.loads_dumps DumpFormat.standard_plain hreadable
  rw [← encode_of_ascii (s := DumpFormat.plain.dumps _) fun c hc => by
    rw [dumps_identityDocument, ← markerPayload_eq] at hc
    exact ascii_of_mem_markerPayload hc] at hloads
  rw [contentIdentity, if_neg hshort,
    decodeUtf8_of_ascii fun c hc => ascii_of_mem_markerPayload hc]
  dsimp only
  rw [markerPayload, hloads]
  rfl

/-- A metadata marker names no identity before it is complete. -/
theorem contentIdentity_of_prefix {written : List Nat} {numbers : Int × Int}
    (h : written <+: markerPayload identity) (hnamed : contentIdentity written = some numbers) :
    numbers = identityNumbers identity := by
  have hpayload := h
  rw [markerPayload_eq] at h
  have hcomplete : written = markerPayload identity := by
    rcases written with _ | ⟨c, rest⟩
    · have hempty : contentIdentity [] = none := by decide
      rw [hempty] at hnamed
      cases hnamed
    · obtain ⟨rfl, hrest⟩ := List.cons_prefix_cons.mp h
      rcases List.prefix_concat_iff.mp hrest with rfl | hbody
      · exact (markerPayload_eq identity).symm
      · -- a document needs its closing brace
        rw [contentIdentity, decodeUtf8_of_ascii fun c hc =>
          ascii_of_mem_markerPayload (hpayload.subset hc)] at hnamed
        split_ifs at hnamed
        cases hloads : loads quarantineMarkerBytes (123 :: rest) with
        | error => simp [hloads] at hnamed
        | ok value =>
          have hbrace := brace_mem_of_loads hloads
          exact absurd rfl (ascii_of_mem_identityBody (hbody.subset hbrace)).2
  rw [hcomplete, contentIdentity_markerPayload] at hnamed
  exact (Option.some.inj hnamed).symm

end OpenCollabEval
