import OpenCollabEval.Env
import OpenCollabEval.Progress.Watch
import Mathlib.Order.Bounds.Basic

/-!
# Observing a generation in pieces

A row that is read once never comes back: the cursor has passed it. So the progress of a watch is that of
a full scan as long as no row is dated later than the clock of the observation that reads it. A row from
the future is passed over, and is still not progress when its time has come.
-/

open Python

namespace OpenCollabEval.ProgressWatch

section Latest

/-- The latest of an epoch and the ends of some events. -/
def Latest (first : ℚ) (ends : Set ℚ) (last : ℚ) : Prop := IsGreatest (insert first ends) last

variable {a b c : ℚ} {ends others : Set ℚ}

theorem latest_refl (a : ℚ) : Latest a ∅ a := by
  simp [Latest]

theorem Latest.trans (h : Latest a ends b) (h' : Latest b others c) : Latest a (ends ∪ others) c := by
  have hbc : b ≤ c := h'.2 (Set.mem_insert b others)
  constructor
  · rcases h'.1 with rfl | hc
    · rcases h.1 with rfl | hb
      · exact Set.mem_insert _ _
      · exact Set.mem_insert_of_mem _ (Set.mem_union_left _ hb)
    · exact Set.mem_insert_of_mem _ (Set.mem_union_right _ hc)
  · rintro n (rfl | hn | hn)
    · exact (h.2 (Set.mem_insert n ends)).trans hbc
    · exact (h.2 (Set.mem_insert_of_mem _ hn)).trans hbc
    · exact h'.2 (Set.mem_insert_of_mem _ hn)

theorem Latest.congr (h : Latest a ends b) (hends : ∀ n, n ∈ ends ↔ n ∈ others) :
    Latest a others b := by
  rwa [← Set.ext hends]

/-- One more end. -/
theorem latest_singleton (a n : ℚ) : Latest a {n} (if a < n then n else a) := by
  split_ifs with h
  · refine ⟨by simp, ?_⟩
    rintro m (rfl | rfl)
    · exact h.le
    · exact le_refl m
  · refine ⟨by simp, ?_⟩
    rintro m (rfl | rfl)
    · exact le_refl m
    · exact not_lt.mp h

end Latest

section Lines

variable {host : WatchHost} {config : WatchConfig} {started now now' : ℚ} {path : Str}
  {kind : SourceKind} {row : Obj} {line : List Nat} {w w' : Watched}

/-- The number of a value, when it has a finite one. -/
def dateOf (v : Json) : Option ℚ := (finiteNumber v).toOption.join

/-- The end of the completed event of a row. -/
def rowEnd (host : WatchHost) (config : WatchConfig) (path : Str) (kind : SourceKind) (row : Obj) :
    Option ℚ :=
  match rowUse host config path kind row with
  | .ok (.completed epoch _) => dateOf epoch
  | _ => none

/-- The date of a row that decides how it is handled: the end of its event, or the time of a proven
provider error whose call cannot be a key of a dict. -/
def rowDate (host : WatchHost) (config : WatchConfig) (path : Str) (kind : SourceKind) (row : Obj) :
    Option ℚ :=
  match rowUse host config path kind row with
  | .ok (.completed epoch _) => dateOf epoch
  | .ok (.providerError proven) =>
    if (row.get "call").truthy && proven && !(row.get "call").hashable then dateOf (row.get "epoch")
    else none
  | _ => none

/-- The row of a line. -/
def lineRow (host : WatchHost) (line : List Nat) : Option Obj :=
  (loadsBytes host.toLogHost line).toOption.bind Json.asDict

/-- The end of the completed event of a line. -/
def lineEnd (host : WatchHost) (config : WatchConfig) (path : Str) (kind : SourceKind)
    (line : List Nat) : Option ℚ :=
  (lineRow host line).bind (rowEnd host config path kind)

/-- The date of a line that is compared with the clock. -/
def lineDate (host : WatchHost) (config : WatchConfig) (path : Str) (kind : SourceKind)
    (line : List Nat) : Option ℚ :=
  (lineRow host line).bind (rowDate host config path kind)

theorem dateOf_eq {v : Json} {found : Option ℚ} (h : finiteNumber v = .ok found) : dateOf v = found := by
  rw [dateOf, h]
  rfl

/-- The end of an event is a date of its line. -/
theorem lineDate_of_lineEnd {n : ℚ} (h : n ∈ lineEnd host config path kind line) :
    n ∈ lineDate host config path kind line := by
  obtain ⟨row, hrow, hn⟩ := Option.bind_eq_some_iff.mp h
  refine Option.bind_eq_some_iff.mpr ⟨row, hrow, ?_⟩
  unfold rowEnd at hn
  unfold rowDate
  split at hn
  · next huse =>
    rw [huse]
    exact hn
  · cases hn

/-- A completed event that is not from the future makes the progress the later of the two. -/
theorem watchCompleted_latest {epoch eventId : Json}
    (h : watchCompleted now path kind row epoch eventId w = .ok w')
    (hdate : ∀ n ∈ dateOf epoch, n ≤ now) : Latest w.1.epoch {n | n ∈ dateOf epoch} w'.1.epoch := by
  obtain ⟨waits, -, h⟩ := bind_eq_ok_iff.mp h
  obtain ⟨finish, hfinish, h⟩ := bind_eq_ok_iff.mp h
  cases h
  rw [dateOf_eq hfinish] at hdate ⊢
  rcases finish with _ | n
  · exact (latest_refl _).congr (by simp)
  · have hcurrent : n ≤ now := hdate n rfl
    have hepoch : (laterProgress now path kind row eventId w.1 n).epoch =
        if w.1.epoch < n then n else w.1.epoch := by
      rw [laterProgress]
      split_ifs <;> simp_all [completedProgress]
    exact hepoch ▸ (latest_singleton w.1.epoch n).congr (by simp [eq_comm])

/-- Whether a completed event can be handled depends neither on the clock nor on what was seen. -/
theorem watchCompleted_returns {epoch eventId : Json}
    (h : Returns (watchCompleted now path kind row epoch eventId w)) (w' : Watched) :
    Returns (watchCompleted now' path kind row epoch eventId w') := by
  obtain ⟨waits, hwaits, h⟩ := returns_bind_iff.mp h
  obtain ⟨finish, hfinish, -⟩ := returns_bind_iff.mp h
  have hwaits' : Returns (waitsAfter kind (row.get "call") epoch w'.2) := by
    unfold waitsAfter endWait at hwaits ⊢
    split_ifs at hwaits ⊢ <;> exact returns_ok _
  obtain ⟨waits', hwaits'⟩ := hwaits'
  refine returns_bind_iff.mpr ⟨waits', hwaits', returns_bind_iff.mpr ⟨finish, hfinish, returns_ok _⟩⟩

theorem watchError_epoch {proven : Bool} (h : watchError started now proven row w = .ok w') :
    w'.1 = w.1 := by
  unfold watchError at h
  split_ifs at h
  · obtain ⟨finish, -, h⟩ := bind_eq_ok_iff.mp h
    rcases finish with _ | epoch
    · cases h
      rfl
    · dsimp only at h
      split_ifs at h
      · obtain ⟨waits, -, h⟩ := bind_eq_ok_iff.mp h
        cases h
        rfl
      · cases h
        rfl
  · cases h
    rfl

/-- Whether a provider error can be handled does not depend on the clock once its time has come. -/
theorem watchError_returns {proven : Bool} (h : Returns (watchError started now proven row w))
    (hdate : ((row.get "call").truthy && proven && !(row.get "call").hashable) = true →
      ∀ n ∈ dateOf (row.get "epoch"), n ≤ now)
    (hle : now ≤ now') (w' : Watched) : Returns (watchError started now' proven row w') := by
  unfold watchError at h ⊢
  split_ifs at h ⊢ with hcall
  · obtain ⟨finish, hfinish, h⟩ := returns_bind_iff.mp h
    refine returns_bind_iff.mpr ⟨finish, hfinish, ?_⟩
    rcases finish with _ | epoch
    · exact returns_ok _
    · dsimp only at h ⊢
      rcases hhash : (row.get "call").hashable with _ | _
      · -- an unhashable call raises as soon as its time has come
        have hcurrent : epoch ≤ now := hdate (by simp [hcall, hhash]) epoch (dateOf_eq hfinish ▸ rfl)
        simp only [hcurrent, hcurrent.trans hle, and_true] at h ⊢
        split_ifs at h ⊢
        · obtain ⟨waits, hwaits, -⟩ := returns_bind_iff.mp h
          rw [addWait, hhash] at hwaits
          cases hwaits
        · exact returns_ok _
      · split_ifs
        · rw [addWait, hhash]
          exact returns_ok _
        · exact returns_ok _
  · exact returns_ok _

/-- A line whose date is not in the future makes the progress the later of the two. -/
theorem watchLine_latest (h : watchLine host config started now path kind w line = .ok w')
    (hdate : ∀ n ∈ lineDate host config path kind line, n ≤ now) :
    Latest w.1.epoch {n | n ∈ lineEnd host config path kind line} w'.1.epoch := by
  have hnone (hend : lineEnd host config path kind line = none) (hw : w'.1 = w.1) :
      Latest w.1.epoch {n | n ∈ lineEnd host config path kind line} w'.1.epoch := by
    rw [hw, hend]
    exact (latest_refl _).congr (by simp)
  unfold watchLine at h
  unfold lineDate lineRow at hdate
  unfold lineEnd lineRow at hnone ⊢
  generalize loadsBytes host.toLogHost line = read at h hdate hnone ⊢
  rcases read with e | v
  · cases e <;> first | exact hnone rfl (by cases h; rfl) | cases h
  · cases v with
    | dict row =>
      obtain ⟨use, huse, h⟩ := bind_eq_ok_iff.mp h
      simp only [Except.toOption, Option.bind_some, Json.asDict_dict, rowDate, rowEnd, huse]
        at hdate hnone ⊢
      cases use with
      | ignored => exact hnone rfl (by cases h; rfl)
      | providerError proven => exact hnone rfl (watchError_epoch h)
      | completed epoch eventId => exact watchCompleted_latest h hdate
    | _ => exact hnone rfl (by cases h; rfl)

/-- Whether a line can be read does not depend on the clock once its date has come, and not on what was
seen. -/
theorem watchLine_returns (h : Returns (watchLine host config started now path kind w line))
    (hdate : ∀ n ∈ lineDate host config path kind line, n ≤ now) (hle : now ≤ now') (w' : Watched) :
    Returns (watchLine host config started now' path kind w' line) := by
  unfold watchLine at h ⊢
  unfold lineDate lineRow at hdate
  generalize loadsBytes host.toLogHost line = read at h hdate ⊢
  rcases read with e | v
  · cases e <;> first | exact returns_ok _ | cases not_returns_error _ h
  · cases v with
    | dict row =>
      obtain ⟨use, huse, h⟩ := returns_bind_iff.mp h
      refine returns_bind_iff.mpr ⟨use, huse, ?_⟩
      simp only [Except.toOption, Option.bind_some, Json.asDict_dict, rowDate, huse] at hdate
      cases use with
      | ignored => exact returns_ok _
      | providerError proven =>
        refine watchError_returns h (fun hcall => ?_) hle w'
        simpa [hcall] using hdate
      | completed epoch eventId => exact watchCompleted_returns h w'
    | _ => exact returns_ok _

/-- A line that can be read at some time, and is not dated later. -/
structure ReadableAt (host : WatchHost) (config : WatchConfig) (started now : ℚ) (path : Str)
    (kind : SourceKind) (line : List Nat) : Prop where
  date : ∀ n ∈ lineDate host config path kind line, n ≤ now
  returns : ∀ w, Returns (watchLine host config started now path kind w line)

theorem ReadableAt.mono (h : ReadableAt host config started now path kind line) (hle : now ≤ now') :
    ReadableAt host config started now' path kind line where
  date n hn := (h.date n hn).trans hle
  returns w := watchLine_returns (h.returns w) h.date hle w

/-- Lines that can be read leave the latest of their ends. -/
theorem watchLines_latest {lines : List (List Nat)}
    (h : ∀ line ∈ lines, ReadableAt host config started now path kind line) (w : Watched) :
    ∃ w', lines.foldlM (watchLine host config started now path kind) w = .ok w' ∧
      Latest w.1.epoch {n | ∃ line ∈ lines, n ∈ lineEnd host config path kind line} w'.1.epoch := by
  induction lines generalizing w with
  | nil => exact ⟨w, rfl, (latest_refl _).congr (by simp)⟩
  | cons line lines ih =>
    obtain ⟨hline, hlines⟩ := List.forall_mem_cons.mp h
    obtain ⟨next, hnext⟩ := hline.returns w
    obtain ⟨w', hw', hlatest⟩ := ih hlines next
    rw [List.foldlM_cons, hnext, ok_bind]
    refine ⟨w', hw', ((watchLine_latest hnext hline.date).trans hlatest).congr fun n => ?_⟩
    simp

/-- Lines that were read, and are not from the future, can be read. -/
theorem readableAt_of_watchLines {lines : List (List Nat)}
    (h : Returns (lines.foldlM (watchLine host config started now path kind) w))
    (hdate : ∀ line ∈ lines, ∀ n ∈ lineDate host config path kind line, n ≤ now) :
    ∀ line ∈ lines, ReadableAt host config started now path kind line := by
  induction lines generalizing w with
  | nil => simp
  | cons line lines ih =>
    obtain ⟨hline, hlines⟩ := List.forall_mem_cons.mp hdate
    rw [List.foldlM_cons] at h
    obtain ⟨next, hnext, h⟩ := returns_bind_iff.mp h
    refine List.forall_mem_cons.mpr ⟨⟨hline, fun w' => ?_⟩, ih h hlines⟩
    exact watchLine_returns ⟨next, hnext⟩ hline le_rfl w'

end Lines

section Sources

/-- The cursor of a file stays within it. -/
theorem SourceFile.position_le (file : SourceFile) (cursor : Option Cursor) :
    file.position cursor ≤ file.bytes.length := by
  unfold SourceFile.position
  split
  · split_ifs with h
    · exact h.2
    · exact Nat.zero_le _
  · exact Nat.zero_le _

theorem SourceFile.offset_cursorAfter_le (file : SourceFile) (cursor : Option Cursor) :
    (file.cursorAfter cursor).offset ≤ file.bytes.length := by
  have hlines := length_completeLines_le (file.bytes.drop (file.position cursor))
  have hposition := file.position_le cursor
  rw [List.length_drop] at hlines
  show file.position cursor + (file.newLines cursor).flatten.length ≤ file.bytes.length
  unfold SourceFile.newLines
  omega

/-- Reading goes on at the cursor that the last reading left. -/
theorem SourceFile.position_cursorAfter (file : SourceFile) (cursor : Option Cursor) :
    file.position (some (file.cursorAfter cursor)) = (file.cursorAfter cursor).offset :=
  if_pos ⟨rfl, file.offset_cursorAfter_le cursor⟩

/-- A file that has not grown has no new lines. -/
theorem SourceFile.newLines_cursorAfter (file : SourceFile) (cursor : Option Cursor) :
    file.newLines (some (file.cursorAfter cursor)) = [] := by
  rw [SourceFile.newLines, SourceFile.position_cursorAfter]
  show completeLines (file.bytes.drop
    (file.position cursor + (file.newLines cursor).flatten.length)) = []
  rw [← List.drop_drop]
  exact completeLines_drop _

theorem SourceFile.cursorAfter_cursorAfter (file : SourceFile) (cursor : Option Cursor) :
    file.cursorAfter (some (file.cursorAfter cursor)) = file.cursorAfter cursor := by
  rw [SourceFile.cursorAfter, SourceFile.position_cursorAfter, SourceFile.newLines_cursorAfter]
  rfl

theorem SourceFile.newLines_none (file : SourceFile) : file.newLines none = completeLines file.bytes := rfl

theorem SourceFile.cursorAfter_none (file : SourceFile) :
    file.cursorAfter none = ⟨file.identity, (completeLines file.bytes).flatten.length⟩ := by
  simp [SourceFile.cursorAfter, SourceFile.position, SourceFile.newLines_none]

/-- A file as it is after something was appended to it. -/
def SourceFile.grown (file : SourceFile) (rest : List Nat) : SourceFile :=
  ⟨file.identity, file.bytes ++ rest⟩

/-- The cursor of a file is valid after the file has grown. -/
theorem SourceFile.position_grown (file : SourceFile) (rest : List Nat) :
    (file.grown rest).position (some (file.cursorAfter none)) =
      (completeLines file.bytes).flatten.length := by
  have hle : (completeLines file.bytes).flatten.length ≤ (file.bytes ++ rest).length :=
    (length_completeLines_le file.bytes).trans (by simp)
  rw [SourceFile.cursorAfter_none]
  exact if_pos ⟨rfl, hle⟩

/-- The lines of a file that has grown are read in pieces. -/
theorem SourceFile.newLines_grown (file : SourceFile) (rest : List Nat) :
    (file.grown rest).newLines none =
      file.newLines none ++ (file.grown rest).newLines (some (file.cursorAfter none)) := by
  rw [SourceFile.newLines_none, SourceFile.newLines_none, SourceFile.newLines,
    SourceFile.position_grown]
  exact completeLines_append file.bytes rest

/-- The cursor after reading in pieces is that after reading at once. -/
theorem SourceFile.cursorAfter_grown (file : SourceFile) (rest : List Nat) :
    (file.grown rest).cursorAfter (some (file.cursorAfter none)) =
      (file.grown rest).cursorAfter none := by
  rw [(file.grown rest).cursorAfter_none, ← SourceFile.newLines_none, file.newLines_grown,
    List.flatten_append, List.length_append, SourceFile.newLines_none file]
  show (⟨_, (file.grown rest).position (some (file.cursorAfter none)) + _⟩ : Cursor) = _
  rw [file.position_grown]

variable {host : WatchHost} {config : WatchConfig} {started now : ℚ}
  {files : Str → Option SourceFile} {sources : List (Str × SourceKind)}

/-- A line that the loop over some sources reads from some cursors: of a file whose first entry among the
sources has the kind. -/
def IsNewLine (files : Str → Option SourceFile) (sources : List (Str × SourceKind))
    (offsets : Str → Option Cursor) (path : Str) (kind : SourceKind) (line : List Nat) : Prop :=
  sources.lookup path = some kind ∧ ∃ file, files path = some file ∧ line ∈ file.newLines (offsets path)

/-- The cursors after the loop over some sources. -/
def offsetsAfter (files : Str → Option SourceFile) (sources : List (Str × SourceKind))
    (offsets : Str → Option Cursor) (path : Str) : Option Cursor :=
  match sources.lookup path, files path with
  | some _, some file => some (file.cursorAfter (offsets path))
  | _, _ => offsets path

/-- The first entry of a source decides its kind. -/
theorem lookup_source_cons (name : Str) (kind : SourceKind) (path : Str) :
    ((name, kind) :: sources).lookup path = if path = name then some kind else sources.lookup path := by
  by_cases hpath : path = name
  · simp [hpath]
  · simp [List.lookup_cons, beq_false_of_ne hpath, hpath]

/-- One source moves the cursor of its own file only. -/
theorem offsets_scanSource {scan scan' : Scan} {source : Str × SourceKind}
    (h : scanSource host config started now files scan source = .ok scan') (path : Str) :
    scan'.offsets path = offsetsAfter files [source] scan.offsets path := by
  obtain ⟨name, kind⟩ := source
  unfold scanSource at h
  simp only [offsetsAfter, lookup_source_cons]
  rcases hfile : files name with _ | file
  · rw [hfile] at h
    cases h
    by_cases hpath : path = name <;> simp [hpath, hfile]
  · rw [hfile] at h
    obtain ⟨watched, -, h⟩ := bind_eq_ok_iff.mp h
    cases h
    by_cases hpath : path = name <;> simp [hpath, hfile]

/-- After a source was read, the lines that are new to the rest are those of other files. -/
theorem isNewLine_cons_iff {offsets : Str → Option Cursor} {source : Str × SourceKind} {path : Str}
    {kind : SourceKind} {line : List Nat} :
    IsNewLine files (source :: sources) offsets path kind line ↔
      IsNewLine files [source] offsets path kind line ∨
        IsNewLine files sources (offsetsAfter files [source] offsets) path kind line := by
  obtain ⟨name, kind'⟩ := source
  simp only [IsNewLine, offsetsAfter, lookup_source_cons]
  by_cases hpath : path = name
  · subst hpath
    rcases hfile : files path with _ | file
    · simp
    · simp [file.newLines_cursorAfter]
  · simp [hpath]

/-- Cursors that are moved for a source and then for the rest are moved for all. -/
theorem offsetsAfter_cons (source : Str × SourceKind) (offsets : Str → Option Cursor) :
    offsetsAfter files (source :: sources) offsets =
      offsetsAfter files sources (offsetsAfter files [source] offsets) := by
  obtain ⟨name, kind⟩ := source
  funext path
  simp only [offsetsAfter, lookup_source_cons]
  by_cases hpath : path = name
  · subst hpath
    rcases hfile : files path with _ | file
    · simp
    · rcases sources.lookup path with _ | kind <;> simp [file.cursorAfter_cursorAfter]
  · simp [hpath]

/-- The lines that one source has for the loop. -/
theorem isNewLine_singleton_iff {offsets : Str → Option Cursor} {source : Str × SourceKind} {path : Str}
    {kind : SourceKind} {line : List Nat} : IsNewLine files [source] offsets path kind line ↔
      source = (path, kind) ∧ ∃ file, files path = some file ∧ line ∈ file.newLines (offsets path) := by
  obtain ⟨name, kind'⟩ := source
  simp only [IsNewLine, lookup_source_cons]
  by_cases hpath : path = name
  · simp [hpath]
  · simp [hpath, Ne.symm hpath]

/-- One source whose new lines can be read leaves the latest of their ends. -/
theorem scanSource_latest (scan : Scan) (source : Str × SourceKind)
    (h : ∀ path kind line, IsNewLine files [source] scan.offsets path kind line →
      ReadableAt host config started now path kind line) :
    ∃ scan', scanSource host config started now files scan source = .ok scan' ∧
      Latest scan.watched.1.epoch {n | ∃ path kind line,
        IsNewLine files [source] scan.offsets path kind line ∧ n ∈ lineEnd host config path kind line}
        scan'.watched.1.epoch := by
  simp only [isNewLine_singleton_iff] at h ⊢
  unfold scanSource
  rcases hfile : files source.1 with _ | file
  · refine ⟨scan, rfl, (latest_refl _).congr fun n => ?_⟩
    refine ⟨fun hn => absurd hn (Set.notMem_empty n), ?_⟩
    rintro ⟨path, kind, line, ⟨rfl, file, hfile', -⟩, -⟩
    rw [hfile] at hfile'
    cases hfile'
  · obtain ⟨watched, hwatched, hlatest⟩ := watchLines_latest
      (fun line hline => h source.1 source.2 line ⟨rfl, file, hfile, hline⟩) scan.watched
    refine ⟨_, by dsimp only; rw [hwatched]; rfl, hlatest.congr fun n => ?_⟩
    constructor
    · rintro ⟨line, hline, hn⟩
      exact ⟨source.1, source.2, line, ⟨rfl, file, hfile, hline⟩, hn⟩
    · rintro ⟨path, kind, line, ⟨rfl, file', hfile', hline⟩, hn⟩
      rw [hfile] at hfile'
      cases hfile'
      exact ⟨line, hline, hn⟩

/-- Sources whose new lines can be read leave the latest of their ends. -/
theorem scanSources_latest (scan : Scan)
    (h : ∀ path kind line, IsNewLine files sources scan.offsets path kind line →
      ReadableAt host config started now path kind line) :
    ∃ scan', sources.foldlM (scanSource host config started now files) scan = .ok scan' ∧
      scan'.offsets = offsetsAfter files sources scan.offsets ∧
      Latest scan.watched.1.epoch {n | ∃ path kind line,
        IsNewLine files sources scan.offsets path kind line ∧ n ∈ lineEnd host config path kind line}
        scan'.watched.1.epoch := by
  induction sources generalizing scan with
  | nil =>
    refine ⟨scan, rfl, funext fun path => rfl, (latest_refl _).congr fun n => ?_⟩
    simp [IsNewLine]
  | cons source sources ih =>
    obtain ⟨next, hnext, hlatest⟩ := @scanSource_latest host config started now files scan source
      fun path kind line hline => h path kind line (isNewLine_cons_iff.mpr (.inl hline))
    have hoffsets : next.offsets = offsetsAfter files [source] scan.offsets :=
      funext (offsets_scanSource hnext)
    obtain ⟨scan', hscan', hoffsets', hlatest'⟩ := ih next fun path kind line hline =>
      h path kind line (isNewLine_cons_iff.mpr (.inr (hoffsets ▸ hline)))
    rw [List.foldlM_cons, hnext, ok_bind]
    refine ⟨scan', hscan', ?_, (hlatest.trans hlatest').congr fun n => ?_⟩
    · rw [hoffsets', hoffsets]
      exact (offsetsAfter_cons source scan.offsets).symm
    · rw [hoffsets]
      constructor
      · rintro (⟨path, kind, line, hline, hn⟩ | ⟨path, kind, line, hline, hn⟩)
        · exact ⟨path, kind, line, isNewLine_cons_iff.mpr (.inl hline), hn⟩
        · exact ⟨path, kind, line, isNewLine_cons_iff.mpr (.inr hline), hn⟩
      · rintro ⟨path, kind, line, hline, hn⟩
        rcases isNewLine_cons_iff.mp hline with hnew | hnew
        · exact .inl ⟨path, kind, line, hnew, hn⟩
        · exact .inr ⟨path, kind, line, hnew, hn⟩

/-- Lines that the loop has read, and that are not from the future, can be read. -/
theorem readableAt_of_scanSources {scan : Scan}
    (h : Returns (sources.foldlM (scanSource host config started now files) scan))
    (hdate : ∀ path kind line, IsNewLine files sources scan.offsets path kind line →
      ∀ n ∈ lineDate host config path kind line, n ≤ now) :
    ∀ path kind line, IsNewLine files sources scan.offsets path kind line →
      ReadableAt host config started now path kind line := by
  induction sources generalizing scan with
  | nil => simp [IsNewLine]
  | cons source sources ih =>
    rw [List.foldlM_cons] at h
    obtain ⟨next, hnext, h⟩ := returns_bind_iff.mp h
    have hoffsets : next.offsets = offsetsAfter files [source] scan.offsets :=
      funext (offsets_scanSource hnext)
    intro path kind line hline
    rcases isNewLine_cons_iff.mp hline with hnew | hnew
    · obtain ⟨rfl, file, hfile, hmem⟩ := isNewLine_singleton_iff.mp hnew
      unfold scanSource at hnext
      rw [hfile] at hnext
      obtain ⟨watched, hwatched, -⟩ := bind_eq_ok_iff.mp hnext
      refine readableAt_of_watchLines ⟨watched, hwatched⟩ (fun line hline => ?_) line hmem
      exact hdate path kind line (isNewLine_cons_iff.mpr
        (.inl (isNewLine_singleton_iff.mpr ⟨rfl, file, hfile, hline⟩)))
    · refine ih h (fun path kind line hline => ?_) path kind line (hoffsets ▸ hnew)
      exact hdate path kind line (isNewLine_cons_iff.mpr (.inr (hoffsets ▸ hline)))

end Sources

section Runs

/-- One observation: the clock of the observer, and the files as they are then. -/
structure Observation where
  now : ℚ
  files : Str → Option SourceFile

/-- Files are only appended to. -/
def Grows (files files' : Str → Option SourceFile) : Prop :=
  ∀ path file, files path = some file → ∃ rest, files' path = some (file.grown rest)

variable (host : WatchHost) (config : WatchConfig) (started : ℚ)

/-- A watch over files that grow and a clock that does not go back, whose observations meet a condition.
A restart keeps what the saved state has of the progress and of the cursors; the calls that wait are
saved under the text of their names. -/
inductive Watch (meets : WatchState → Observation → Prop) : WatchState → Option Observation → Prop where
  | start : Watch meets .empty none
  | observe {s s' : WatchState} {last : Option Observation} {o : Observation} {stalled : Bool}
      (run : Watch meets s last) (later : ∀ before ∈ last, before.now ≤ o.now)
      (grows : ∀ before ∈ last, Grows before.files o.files) (condition : meets s o)
      (observed : observe host config started o.now o.files s = .ok (stalled, s')) :
      Watch meets s' (some o)
  | restart {s s' : WatchState} {last : Option Observation} (run : Watch meets s last)
      (progress : s'.progress = s.progress) (offsets : s'.offsets = s.offsets) : Watch meets s' last

/-- An observation reads no row that is dated later than its clock. -/
def Timely (s : WatchState) (o : Observation) : Prop :=
  ∀ path kind line, IsNewLine o.files config.sources s.offsets path kind line →
    ∀ n ∈ lineDate host config path kind line, n ≤ o.now

/-- The files of the last observation, none before the first. -/
def lastFiles : Option Observation → Str → Option SourceFile
  | some o => o.files
  | none => fun _ => none

/-- The ends of the completed events of some files. -/
def ends (files : Str → Option SourceFile) : Set ℚ :=
  {n | ∃ path kind line, IsNewLine files config.sources (fun _ => none) path kind line ∧
    n ∈ lineEnd host config path kind line}

/-- What a watch keeps: its cursors are at the end of the complete lines, all of which can be read, and
its progress is the latest of their ends. -/
structure CaughtUp (s : WatchState) (last : Option Observation) : Prop where
  offsets : s.offsets = offsetsAfter (lastFiles last) config.sources fun _ => none
  readable : ∀ now, (∀ o ∈ last, o.now ≤ now) → ∀ path kind line,
    IsNewLine (lastFiles last) config.sources (fun _ => none) path kind line →
      ReadableAt host config started now path kind line
  latest : ∀ now, (∀ o ∈ last, o.now ≤ now) →
    Latest started (ends host config (lastFiles last)) (cachedProgress started now s).epoch

variable {host config started}

theorem caughtUp_start : CaughtUp host config started .empty none where
  offsets := by
    funext path
    simp only [offsetsAfter, lastFiles, WatchState.empty]
    rcases config.sources.lookup path <;> rfl
  readable now _ path kind line h := by
    obtain ⟨-, file, hfile, -⟩ := h
    cases hfile
  latest now _ := by
    refine (latest_refl started).congr fun n => ⟨fun hn => absurd hn (Set.notMem_empty n), ?_⟩
    rintro ⟨path, kind, line, ⟨-, file, hfile, -⟩, -⟩
    cases hfile

/-- A restart keeps all of it. -/
theorem CaughtUp.restart {s s' : WatchState} {last : Option Observation}
    (h : CaughtUp host config started s last) (hprogress : s'.progress = s.progress)
    (hoffsets : s'.offsets = s.offsets) : CaughtUp host config started s' last where
  offsets := hoffsets.trans h.offsets
  readable := h.readable
  latest now hnow := by
    have hcached : cachedProgress started now s' = cachedProgress started now s := by
      rw [cachedProgress, hprogress]
      rfl
    rw [hcached]
    exact h.latest now hnow

/-- The lines of files that have grown are those that they had, and those that are new. -/
theorem isNewLine_of_grows {files files' : Str → Option SourceFile} (h : Grows files files')
    {path : Str} {kind : SourceKind} {line : List Nat} :
    IsNewLine files' config.sources (fun _ => none) path kind line ↔
      IsNewLine files config.sources (fun _ => none) path kind line ∨
        IsNewLine files' config.sources (offsetsAfter files config.sources fun _ => none) path kind
          line := by
  simp only [IsNewLine, offsetsAfter]
  rcases hsource : config.sources.lookup path with _ | kind'
  · simp
  · rcases hfile : files path with _ | file
    · simp
    · obtain ⟨rest, hgrown⟩ := h path file hfile
      simp [hgrown, file.newLines_grown rest, and_or_left]

/-- The cursors after files have grown and were read again are those after one reading. -/
theorem offsetsAfter_of_grows {files files' : Str → Option SourceFile} (h : Grows files files') :
    offsetsAfter files' config.sources (offsetsAfter files config.sources fun _ => none) =
      offsetsAfter files' config.sources fun _ => none := by
  funext path
  simp only [offsetsAfter]
  rcases hsource : config.sources.lookup path with _ | kind
  · rfl
  · rcases hfile : files path with _ | file
    · rfl
    · obtain ⟨rest, hgrown⟩ := h path file hfile
      simp [hgrown, file.cursorAfter_grown rest]

theorem grows_lastFiles {last : Option Observation} {o : Observation}
    (h : ∀ before ∈ last, Grows before.files o.files) : Grows (lastFiles last) o.files := by
  rcases last with _ | before
  · intro path file hfile
    cases hfile
  · exact h before rfl

/-- A full scan: one call with empty state. -/
theorem fullScan_of_readable {now : ℚ} {files : Str → Option SourceFile}
    (h : ∀ path kind line, IsNewLine files config.sources (fun _ => none) path kind line →
      ReadableAt host config started now path kind line) :
    ∃ full s, latestProgress host config started now files .empty = .ok (full, s) ∧
      Latest started (ends host config files) full.epoch := by
  obtain ⟨scan, hscan, -, hlatest⟩ :=
    scanSources_latest ⟨(cachedProgress started now .empty, []), fun _ => none⟩ h
  have hfull : latestProgress host config started now files .empty =
      .ok (scan.watched.1, ⟨none, scan.offsets, scan.watched.2⟩) := by
    rw [latestProgress]
    exact bind_eq_ok_iff.mpr ⟨scan, hscan, rfl⟩
  exact ⟨_, _, hfull, hlatest⟩

/-- One timely observation keeps it, and reports the latest of all ends. -/
theorem CaughtUp.observe {s s' : WatchState} {last : Option Observation} {o : Observation}
    {stalled : Bool} (h : CaughtUp host config started s last)
    (later : ∀ before ∈ last, before.now ≤ o.now)
    (grows : ∀ before ∈ last, Grows before.files o.files) (htimely : Timely host config s o)
    (hobserved : observe host config started o.now o.files s = .ok (stalled, s')) :
    CaughtUp host config started s' (some o) ∧ ∃ progress, s'.progress = some progress ∧
      Latest started (ends host config o.files) progress.epoch := by
  obtain ⟨⟨progress, t⟩, hlatest, hs'⟩ := bind_eq_ok_iff.mp hobserved
  obtain ⟨scan, hscan, ht⟩ := bind_eq_ok_iff.mp hlatest
  cases ht
  cases hs'
  have hgrows := grows_lastFiles grows
  -- what the observation reads can be read, and what was read before can still be read
  have hnew := readableAt_of_scanSources ⟨scan, hscan⟩ htimely
  have hall (now : ℚ) (hnow : o.now ≤ now) (path : Str) (kind : SourceKind) (line : List Nat)
      (hline : IsNewLine o.files config.sources (fun _ => none) path kind line) :
      ReadableAt host config started now path kind line := by
    rcases (isNewLine_of_grows hgrows).mp hline with hold | hfresh
    · exact h.readable now (fun before hbefore => (later before hbefore).trans hnow) path kind line hold
    · exact (hnew path kind line (h.offsets ▸ hfresh)).mono hnow
  obtain ⟨scan', hscan', hoffsets, hends⟩ := scanSources_latest _ hnew
  rw [hscan] at hscan'
  cases hscan'
  have hprogress : Latest started (ends host config o.files) scan.watched.1.epoch := by
    refine ((h.latest o.now later).trans hends).congr fun n => ?_
    rw [h.offsets]
    constructor
    · rintro (⟨path, kind, line, hline, hn⟩ | ⟨path, kind, line, hline, hn⟩)
      · exact ⟨path, kind, line, (isNewLine_of_grows hgrows).mpr (.inl hline), hn⟩
      · exact ⟨path, kind, line, (isNewLine_of_grows hgrows).mpr (.inr hline), hn⟩
    · rintro ⟨path, kind, line, hline, hn⟩
      rcases (isNewLine_of_grows hgrows).mp hline with hold | hfresh
      · exact .inl ⟨path, kind, line, hold, hn⟩
      · exact .inr ⟨path, kind, line, hfresh, hn⟩
  refine ⟨⟨?_, ?_, ?_⟩, scan.watched.1, rfl, hprogress⟩
  · show scan.offsets = _
    rw [hoffsets, h.offsets, offsetsAfter_of_grows hgrows]
    rfl
  · intro now hnow
    exact hall now (hnow o rfl)
  · intro now hnow
    have hcached : (cachedProgress started now
        { s with progress := some scan.watched.1, offsets := scan.offsets, waits := scan.watched.2 }).epoch =
          scan.watched.1.epoch := by
      have hstarted : started ≤ scan.watched.1.epoch := hprogress.2 (Set.mem_insert _ _)
      simp only [cachedProgress]
      split_ifs with hclock
      · rfl
      · -- a progress that the clock has not reached is the start itself
        rcases hprogress.1 with heq | ⟨path, kind, line, hline, hn⟩
        · exact heq.symm
        · have hdate := (hall now (hnow o rfl) path kind line hline).date _ (lineDate_of_lineEnd hn)
          exact absurd ⟨hstarted, hdate⟩ hclock
    exact hcached ▸ hprogress

/-- A watch that has observed something timely is caught up. -/
theorem caughtUp_of_watch {s : WatchState} {last : Option Observation}
    (h : Watch host config started (Timely host config) s last) :
    CaughtUp host config started s last ∧ ∀ o ∈ last, ∃ progress, s.progress = some progress ∧
      Latest started (ends host config o.files) progress.epoch := by
  induction h with
  | start => exact ⟨caughtUp_start, by simp⟩
  | observe run later grows timely observed ih =>
    obtain ⟨hcaught, hprogress⟩ := ih.1.observe later grows timely observed
    refine ⟨hcaught, ?_⟩
    rintro _ ⟨⟩
    exact hprogress
  | restart run hprogress hoffsets ih =>
    exact ⟨ih.1.restart hprogress hoffsets, fun o ho => hprogress ▸ ih.2 o ho⟩

end Runs

section Sample

/-- A host whose texts are ASCII. -/
def sampleWatchHost : WatchHost :=
  { asciiEnv.toRuntime with
    depth := 20
    patchBytes := 0
    decodeWide := fun _ _ => none
    floatText := fun _ => none
    isoTimestamp := fun _ => .error .valueError
    addFloat := fun x _ => x
    elapsed := fun now epoch => max 0 (now - epoch) }

/-- One trajectory of a native workflow. -/
def sampleWatchConfig : WatchConfig where
  sources := [(lit "trajectory.jsonl", .native)]
  sharedModelProgressSource := .null
  modelProgressId := .null
  timeout := 60

/-- A trajectory with one model round, which ended at the epoch 12. -/
def sampleTrajectory : SourceFile :=
  ⟨(1, 1), lit ("\x7b\"type\":\"llm_call\",\"timestamp\":12,\"payload\":\x7b\"model\":\"m\"," ++
    "\"finish_reason\":\"stop\",\"content\":\"\",\"tool_calls\":[]\x7d\x7d\n")⟩

/-- The files of the sample. -/
def sampleFiles (path : Str) : Option SourceFile :=
  if path = lit "trajectory.jsonl" then some sampleTrajectory else none

/-- An observation of the sample. -/
def sampleObserve (now : ℚ) (s : WatchState) : Except PyErr (Bool × WatchState) :=
  observe sampleWatchHost sampleWatchConfig 0 now sampleFiles s

/-- The progress of a record has an epoch. -/
def hasEpoch (epoch : ℚ) (found : Bool × WatchState) : Bool :=
  found.2.progress.any fun progress => decide (progress.epoch = epoch)

theorem exists_of_hasEpoch {epoch : ℚ} {found : Bool × WatchState} (h : hasEpoch epoch found = true) :
    ∃ progress, found.2.progress = some progress ∧ progress.epoch = epoch := by
  obtain ⟨progress, hprogress, hepoch⟩ := (Option.any_eq_true _ _).mp h
  exact ⟨progress, hprogress, by simpa using hepoch⟩

theorem grows_refl (files : Str → Option SourceFile) : Grows files files :=
  fun _ file hfile => ⟨[], by simpa [SourceFile.grown] using hfile⟩

end Sample

end OpenCollabEval.ProgressWatch
