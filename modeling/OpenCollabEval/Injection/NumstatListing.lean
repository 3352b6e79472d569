import OpenCollabEval.Injection.GitQuoting

/-!
# The listing of `git apply --numstat -z`

One record for each entry of a patch, with its counts of lines and its path. A renamed entry either
has both of its paths, in records of their own, or is listed under its new path. The paths of a
listing are read back as they are.
-/

open Python

namespace OpenCollabEval

/-- A path in a listing: any text without a NUL. -/
structure ListedPath where
  text : Str
  nonempty : text ≠ []
  noNul : 0 ∉ text

/-- The paths of an entry of a patch. -/
inductive EntryPaths where
  /-- An added, deleted or modified file. -/
  | one (path : ListedPath)
  | renamed (oldPath newPath : ListedPath)

/-- An entry of a patch, with its counts of added and deleted lines unless it is binary. -/
structure NumstatEntry where
  lines : Option (Nat × Nat)
  paths : EntryPaths

/-- How a renamed entry is listed. -/
inductive RenameListing where
  | bothPaths
  | newPath
  deriving DecidableEq

/-- The counts that start a record. -/
def NumstatEntry.counts (entry : NumstatEntry) : Str × Str :=
  match entry.lines with
  | some (added, deleted) => (natStr added, natStr deleted)
  | none => ("-", "-")

/-- The start of a record: its counts, each with a tab. -/
def NumstatEntry.start (entry : NumstatEntry) : Str := entry.counts.1 ++ 9 :: (entry.counts.2 ++ [9])

/-- The fields that an entry is listed with. -/
def NumstatEntry.records (listing : RenameListing) (entry : NumstatEntry) : List Str :=
  match entry.paths, listing with
  | .one path, _ => [entry.start ++ path.text]
  | .renamed oldPath newPath, .bothPaths => [entry.start, oldPath.text, newPath.text]
  | .renamed _ newPath, .newPath => [entry.start ++ newPath.text]

/-- A listing: every field ends with a NUL. -/
def numstatOutput (listing : RenameListing) (entries : List NumstatEntry) : Str :=
  (entries.flatMap (NumstatEntry.records listing)).flatMap (· ++ [0])

/-- The old and the new path of an entry. -/
def EntryPaths.names : EntryPaths → List Str
  | .one path => [path.text]
  | .renamed oldPath newPath => [oldPath.text, newPath.text]

/-- The paths that an entry is listed with. -/
def NumstatEntry.listed (listing : RenameListing) (entry : NumstatEntry) : List Str :=
  match entry.paths, listing with
  | .one path, _ => [path.text]
  | .renamed oldPath newPath, .bothPaths => [oldPath.text, newPath.text]
  | .renamed _ newPath, .newPath => [newPath.text]

/-- The old and new paths of all entries, each once, in the order of their first occurrence. -/
def entryNames (entries : List NumstatEntry) : List Str :=
  (entries.flatMap (·.paths.names)).eraseDups

/-- The paths that a listing has, each once, in the order of their first occurrence. -/
def listedPaths (listing : RenameListing) (entries : List NumstatEntry) : List Str :=
  (entries.flatMap (NumstatEntry.listed listing)).eraseDups

section Reading

variable {entry : NumstatEntry} {listing : RenameListing}

theorem counts_no_tab (entry : NumstatEntry) :
    (9 ∉ entry.counts.1 ∧ 9 ∉ entry.counts.2) ∧ 0 ∉ entry.counts.1 ∧ 0 ∉ entry.counts.2 := by
  have hdigits : ∀ n c, Str.isDigit c = false → c ∉ natStr n := by
    intro n c hc hmem
    rw [isDigit_of_mem_natStr hmem] at hc
    exact Bool.noConfusion hc
  unfold NumstatEntry.counts
  split
  · exact ⟨⟨hdigits _ 9 rfl, hdigits _ 9 rfl⟩, hdigits _ 0 rfl, hdigits _ 0 rfl⟩
  · decide

theorem numstatField_start (entry : NumstatEntry) (path : Str) :
    numstatField (entry.start ++ path) = some path := by
  obtain ⟨⟨hfirst, hsecond⟩, -⟩ := counts_no_tab entry
  have hstart : entry.start ++ path = entry.counts.1 ++ 9 :: (entry.counts.2 ++ 9 :: path) := by
    simp [NumstatEntry.start]
  have hadded := @splitOnce_of_not_mem _ (entry.counts.2 ++ 9 :: path) _ hfirst
  have hdeleted := @splitOnce_of_not_mem _ path _ hsecond
  have htab : lit "\t" = [9] := rfl
  rw [numstatField, hstart, htab, hadded]
  simp [hdeleted]

theorem start_ne_nil (entry : NumstatEntry) : entry.start ≠ [] := by
  simp [NumstatEntry.start]

/-- No field has a NUL in it. -/
theorem no_nul_of_mem_records {record : Str} (h : record ∈ entry.records listing) : 0 ∉ record := by
  obtain ⟨-, hfirst, hsecond⟩ := counts_no_tab entry
  have hstart : 0 ∉ entry.start := by simp [NumstatEntry.start, hfirst, hsecond]
  unfold NumstatEntry.records at h
  split at h
  next path _ =>
    rw [List.mem_singleton.mp h, List.mem_append, not_or]
    exact ⟨hstart, path.noNul⟩
  next oldPath newPath _ =>
    simp only [List.mem_cons, List.not_mem_nil, or_false] at h
    rcases h with rfl | rfl | rfl
    · exact hstart
    · exact oldPath.noNul
    · exact newPath.noNul
  next newPath _ =>
    rw [List.mem_singleton.mp h, List.mem_append, not_or]
    exact ⟨hstart, newPath.noNul⟩

theorem splitChar_append {piece rest : Str} (h : 0 ∉ piece) :
    Str.splitChar 0 (piece ++ 0 :: rest) = piece :: Str.splitChar 0 rest := by
  have hsome : ∀ text, Str.splitChar 0 text ≠ [] := by
    intro text
    cases text with
    | nil => simp [Str.splitChar]
    | cons c text =>
      rw [Str.splitChar]
      split
      · simp
      · split <;> simp
  induction piece with
  | nil =>
    rw [List.nil_append, Str.splitChar]
    split
    next hnone => exact absurd hnone (hsome rest)
    next piece pieces hpieces => rw [hpieces]; simp
  | cons c piece ih =>
    rw [List.mem_cons, not_or] at h
    rw [List.cons_append, Str.splitChar, ih h.2]
    simp [Ne.symm h.1]

/-- A listing splits into its fields, with an empty one after the last. -/
theorem splitChar_numstatOutput {records : List Str} (h : ∀ record ∈ records, 0 ∉ record) :
    Str.splitChar 0 (records.flatMap (· ++ [0])) = records ++ [[]] := by
  induction records with
  | nil => rfl
  | cons record records ih =>
    rw [List.forall_mem_cons] at h
    rw [List.flatMap_cons, List.append_assoc, List.singleton_append, splitChar_append h.1, ih h.2]
    rfl

/-- The fields of an entry are read as the paths that it is listed with. -/
theorem numstatRecords_records (entry : NumstatEntry) (listing : RenameListing) (rest : List Str) :
    numstatRecords (entry.records listing ++ rest) =
      (numstatRecords rest).map (entry.listed listing ++ ·) := by
  have hone : ∀ path : ListedPath, numstatRecords ((entry.start ++ path.text) :: rest) =
      (numstatRecords rest).map (path.text :: ·) := by
    intro path
    have hsome : (entry.start ++ path.text).isEmpty = false := by simp [start_ne_nil]
    have hpath : path.text.isEmpty = false := by simp [path.nonempty]
    rw [numstatRecords.eq_def]
    simp only [hsome, numstatField_start, hpath, Bool.not_false, Bool.false_eq_true, if_true, if_false]
  unfold NumstatEntry.records NumstatEntry.listed
  cases entry.paths with
  | one path => exact hone path
  | renamed oldPath newPath =>
    cases listing with
    | newPath => exact hone newPath
    | bothPaths =>
      have hsome : entry.start.isEmpty = false := by simp [start_ne_nil]
      have hfield : numstatField entry.start = some [] := by
        simpa using numstatField_start entry []
      have hold : oldPath.text.isEmpty = false := by simp [oldPath.nonempty]
      have hnew : newPath.text.isEmpty = false := by simp [newPath.nonempty]
      dsimp only [List.cons_append, List.nil_append]
      rw [numstatRecords.eq_def]
      simp only [hsome, hfield, hold, hnew, List.isEmpty_nil, Bool.not_true, Bool.false_eq_true,
        if_false, Bool.or_self]

/-- The paths of a listing are read back. -/
theorem numstatPaths_output (listing : RenameListing) (entries : List NumstatEntry) :
    numstatPaths (numstatOutput listing entries) = .ok (listedPaths listing entries) := by
  have hrecords : numstatRecords (entries.flatMap (NumstatEntry.records listing) ++ [[]]) =
      .ok (entries.flatMap (NumstatEntry.listed listing)) := by
    induction entries with
    | nil => rfl
    | cons entry entries ih =>
      rw [List.flatMap_cons, List.append_assoc, numstatRecords_records, ih]
      rfl
  have hfields : ∀ record ∈ entries.flatMap (NumstatEntry.records listing), 0 ∉ record := by
    intro record hrecord
    obtain ⟨entry, -, hmem⟩ := List.mem_flatMap.mp hrecord
    exact no_nul_of_mem_records hmem
  rw [numstatPaths, numstatOutput, splitChar_numstatOutput hfields, hrecords]
  rfl

/-- A listing with both paths of every renamed entry has the paths of all entries. -/
theorem listedPaths_bothPaths (entries : List NumstatEntry) :
    listedPaths .bothPaths entries = entryNames entries := by
  rw [listedPaths, entryNames]
  congr 2
  funext entry
  unfold NumstatEntry.listed EntryPaths.names
  cases entry.paths <;> rfl

end Reading

/-- What Git writes is read back: the quoted form of a path, its form without quotes where Git uses
it, and the paths of a listing. -/
structure ReadsGitBack (path : GitPath) (more : Option Str) (listing : RenameListing)
    (entries : List NumstatEntry) : Prop where
  quoted : decodeGitCPath path.quoted = .ok path.text
  plain : path.isPlain = true → decodeGitCPath (path.bytes ++ afterTab more) = .ok path.text
  listed : numstatPaths (numstatOutput listing entries) = .ok (entryNames entries)

/-- Paths are read back just when a path that Git does not quote does not end in a space, and when a
listing has the old paths too. -/
theorem readsGitBack_iff (path : GitPath) (more : Option Str) (listing : RenameListing)
    (entries : List NumstatEntry) :
    ReadsGitBack path more listing entries ↔
      (path.isPlain = true → path.bytes.getLast path.nonempty ≠ 32) ∧
        (listing = .newPath → listedPaths .newPath entries = entryNames entries) := by
  constructor
  · rintro ⟨-, hplain, hlisted⟩
    refine ⟨fun h => (decodeGitCPath_plain_iff h more).mp (hplain h), ?_⟩
    rintro rfl
    rw [numstatPaths_output, Except.ok.injEq] at hlisted
    exact hlisted
  · rintro ⟨hspace, hold⟩
    refine ⟨?_, fun h => (decodeGitCPath_plain_iff h more).mpr (hspace h), ?_⟩
    · simpa using decodeGitCPath_quoted path []
    · rw [numstatPaths_output]
      cases listing with
      | bothPaths => rw [listedPaths_bothPaths]
      | newPath => rw [hold rfl]

/-- A path that ends in a space. -/
def spacePath : GitPath := ⟨[97, 32], by decide, by decide⟩

/-- Git does not quote it, and in a diff header, where a tab follows it, it is read without its space. -/
theorem spacePath_cut :
    spacePath.isPlain = true ∧ spacePath.text = "a " ∧ decodeGitCPath "a \t" = .ok (lit "a") ∧
      ¬ReadsGitBack spacePath (some []) .bothPaths [] := by
  refine ⟨by decide, by decide, rfl, fun h => ?_⟩
  have hread := h.plain (by decide)
  rw [decodeGitCPath_plain (by decide), Except.ok.injEq] at hread
  exact absurd hread (by decide)

end OpenCollabEval
