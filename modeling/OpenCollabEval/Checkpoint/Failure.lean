import OpenCollabEval.Checkpoint.Crash

/-!
# Failed captures

What a capture does to a checkpoint that was accepted before, when some of its file operations
raise. A checkpoint is lost in four ways: the previous patch cannot be read and is removed as if
there were none, a failure is described without reading the stored files, the removal of a stale
patch raises after it took effect, and so does the metadata write, whose effect no rollback takes
back. Without these, a failed capture keeps the checkpoint, and only patches of successful captures
are accepted.
-/

open Python

namespace OpenCollabEval

/-- One call of `capture`. -/
structure Capture where
  diff : DiffResult
  faults : CaptureFaults

/-- The patches that the diffs of some captures gave. -/
def captureTexts (captures : List Capture) : List Str :=
  captures.filterMap fun c =>
    match c.diff with
    | .output patch => some patch
    | _ => none

/-- The directory that a trail ends in. -/
def CaptureTrail.final (dir : RunDirectory) (trail : CaptureTrail) : RunDirectory :=
  trail.1.getLastD dir

/-- The faults of a capture that none of its compensations makes up for do not occur. -/
structure Compensated (env : Env) (dir : RunDirectory) (faults : CaptureFaults) : Prop where
  /-- An accepted patch is not removed after it could not be read. -/
  previous : restorablePatch env dir ≠ none →
    faults.readPrevious = false ∨ faults.rollbackPatch = some .unchanged
  /-- An accepted patch is not described by a failure that did not read it. -/
  failure : restorablePatch env dir ≠ none →
    (faults.failure.readExisting = false ∧ faults.failure.readPatch = false ∧
      faults.failure.readMeta = false) ∨ faults.failure.writeMeta = some .unchanged
  /-- The removal of an accepted patch does not raise after it took effect. -/
  stale : restorablePatch env dir ≠ none → faults.removeStale ≠ some .done
  /-- The metadata write does not raise after it took effect. -/
  described : faults.writeMeta ≠ some .done

section Runs

variable (env : Env) (maxPatchBytes : Nat)

/-- The directory after some captures. -/
def runCaptures (dir : RunDirectory) : List Capture → RunDirectory
  | [] => dir
  | c :: rest => runCaptures (capturedDirectory env maxPatchBytes dir c.diff c.faults) rest

/-- The patches that the successful ones of some captures have written. -/
def writtenPatches (dir : RunDirectory) : List Capture → List Str
  | [] => []
  | c :: rest =>
    (if (capture env maxPatchBytes dir c.diff c.faults).2.status = .written then captureTexts [c]
      else []) ++
      writtenPatches (capturedDirectory env maxPatchBytes dir c.diff c.faults) rest

/-- Every capture of a run makes up for its faults. -/
def AllCompensated (dir : RunDirectory) : List Capture → Prop
  | [] => True
  | c :: rest => Compensated env dir c.faults ∧
      AllCompensated (capturedDirectory env maxPatchBytes dir c.diff c.faults) rest

end Runs

variable {env : Env} {maxPatchBytes : Nat} {dir : RunDirectory} {texts done : List Str}
  {faults : CaptureFaults}

/-- What is stored comes from the captures, and what is eligible from the successful ones. -/
structure FromCaptures (env : Env) (texts done : List Str) (dir : RunDirectory) : Prop where
  patch : ∀ p, dir.patch = some p → p ∈ texts
  eligible : ∀ m, dir.metadata = some m → m.status ≠ .empty → m.submissionEligible = true →
    ∃ p ∈ done, m.patchSha256 = checkpointSha env p

theorem restorable_eq_some_iff {p : Str} :
    restorablePatch env dir = some p ↔ dir.patch = some p ∧ isBlank p = false ∧
      ∃ m, dir.metadata = some m ∧ metaMatches env m p = true ∧ m.submissionEligible = true := by
  obtain ⟨patch, metadata⟩ := dir
  rcases patch with _ | q
  · simp [restorablePatch]
  rcases metadata with _ | m
  · simp [restorablePatch]
  simp only [restorablePatch, Option.bind_eq_bind, Option.bind_some, Option.some.injEq]
  constructor
  · intro h
    split at h
    next haccepted =>
      obtain rfl := Option.some.inj h
      simp only [Bool.and_eq_true, Bool.not_eq_true'] at haccepted
      exact ⟨rfl, haccepted.1.1, m, rfl, haccepted.1.2, haccepted.2⟩
    · simp at h
  · rintro ⟨rfl, hblank, _, rfl, hmatches, heligible⟩
    simp [hblank, hmatches, heligible]

/-- An accepted patch was written by a successful capture. -/
theorem FromCaptures.mem_of_restorable {p : Str} (h : FromCaptures env texts done dir)
    (hdone : ∀ q ∈ done, q ∈ texts)
    (hsha : ∀ a ∈ texts, ∀ b ∈ texts, checkpointSha env a = checkpointSha env b → a = b)
    (hp : restorablePatch env dir = some p) : p ∈ done := by
  obtain ⟨hpatch, -, m, hm, hmatches, heligible⟩ := restorable_eq_some_iff.mp hp
  simp only [metaMatches, Bool.and_eq_true, beq_iff_eq, decide_eq_true_iff] at hmatches
  obtain ⟨q, hq, hsame⟩ := h.eligible m hm hmatches.1.1 heligible
  have hpq : p = q := hsha p (h.patch p hpatch) q (hdone q hq)
    (hmatches.1.2.symm.trans hsame)
  exact hpq ▸ hq

theorem FromCaptures.mono {more : List Str} (h : FromCaptures env texts done dir)
    (hmore : ∀ p ∈ done, p ∈ more) : FromCaptures env texts more dir :=
  ⟨h.patch, fun m hm hstatus heligible => by
    obtain ⟨p, hp, hsame⟩ := h.eligible m hm hstatus heligible
    exact ⟨p, hmore p hp, hsame⟩⟩

theorem FromCaptures.removePatch {fault : Option WriteFault} (h : FromCaptures env texts done dir) :
    FromCaptures env texts done (dir.removePatch fault).1 := by
  rcases fault with _ | _ | _
  · exact ⟨by simp [RunDirectory.removePatch, attempt], h.eligible⟩
  · exact h
  · exact ⟨by simp [RunDirectory.removePatch, attempt], h.eligible⟩

theorem FromCaptures.writePatch {text : Str} {fault : Option WriteFault}
    (h : FromCaptures env texts done dir) (htext : text ∈ texts) :
    FromCaptures env texts done (dir.writePatch text fault).1 := by
  unfold RunDirectory.writePatch
  split
  · exact h
  · rcases fault with _ | _ | _
    · exact ⟨by simp [attempt, htext], h.eligible⟩
    · exact h
    · exact ⟨by simp [attempt, htext], h.eligible⟩

theorem FromCaptures.restorePrevious {previous : Option Str} {fault : Option WriteFault}
    (h : FromCaptures env texts done dir) (hprevious : ∀ p, previous = some p → p ∈ texts) :
    FromCaptures env texts done (dir.restorePrevious previous fault).1 := by
  cases previous with
  | none => exact h.removePatch
  | some text => exact h.writePatch (hprevious text rfl)

theorem FromCaptures.writeMeta {document : CheckpointMeta} {fault : Option WriteFault}
    (h : FromCaptures env texts done dir)
    (hdocument : fault ≠ some .unchanged → document.status ≠ .empty →
      document.submissionEligible = true → ∃ p ∈ done, document.patchSha256 = checkpointSha env p) :
    FromCaptures env texts done (dir.writeMeta document fault).1 := by
  rcases fault with _ | _ | _
  · refine ⟨h.patch, fun m hm => ?_⟩
    obtain rfl : document = m := by simpa [RunDirectory.writeMeta, attempt] using hm
    exact hdocument (by simp)
  · exact h
  · refine ⟨h.patch, fun m hm => ?_⟩
    obtain rfl : document = m := by simpa [RunDirectory.writeMeta, attempt] using hm
    exact hdocument (by simp)

/-- A compensation that did not raise has put the previous patch back. -/
theorem restorePrevious_of_not_raised {previous : Option Str} {fault : Option WriteFault}
    (h : (dir.restorePrevious previous fault).2 = false) :
    (dir.restorePrevious previous fault).1 = { dir with patch := previous } := by
  cases previous with
  | none =>
    rcases fault with _ | _ | _
    · rfl
    · simp [RunDirectory.restorePrevious, RunDirectory.removePatch, attempt] at h
    · simp [RunDirectory.restorePrevious, RunDirectory.removePatch, attempt] at h
  | some text => exact (writePatch_of_not_raised h).2

/-- A write of the patch leaves the metadata. -/
theorem writePatch_metadata (text : Str) (fault : Option WriteFault) :
    (dir.writePatch text fault).1.metadata = dir.metadata := by
  unfold RunDirectory.writePatch
  split <;> rfl

/-- A metadata write that raised has left the metadata, unless it took effect. -/
theorem writeMeta_of_raised {document : CheckpointMeta} {fault : Option WriteFault}
    (hfault : fault ≠ some .done) (h : (dir.writeMeta document fault).2 = true) :
    (dir.writeMeta document fault).1 = dir := by
  rcases fault with _ | _ | _
  · simp [RunDirectory.writeMeta, attempt] at h
  · rfl
  · exact absurd rfl hfault

@[simp]
theorem final_after_singleton (next : RunDirectory) (trail : CaptureTrail) :
    (trail.after [next]).final dir = trail.final next := by
  exact List.getLastD_cons ..

@[simp]
theorem after_result (dirs : List RunDirectory) (trail : CaptureTrail) :
    (trail.after dirs).2 = trail.2 := rfl

/-- What a trail from `dir` does to the checkpoint that was there before. -/
structure KeepsCheckpoint (env : Env) (texts done : List Str) (before dir : RunDirectory)
    (trail : CaptureTrail) : Prop where
  stored : FromCaptures env texts done (trail.final dir)
  kept : trail.2.status = .failed → trail.2.rollbackFailed = false →
    ∀ p, restorablePatch env before = some p → restorablePatch env (trail.final dir) = some p

/-- The description of a failure keeps the checkpoint. -/
theorem keeps_writeFailure (h : FromCaptures env texts done dir)
    (hcompensated : Compensated env dir faults) :
    KeepsCheckpoint env texts done dir dir (writeFailure env dir faults.failure) := by
  refine ⟨h.writeMeta fun _ _ heligible => ?_, fun _ _ p hp => ?_⟩
  · -- an eligible failure has the digest of the metadata it replaces
    rcases hpreserved : preservedPatch env dir faults.failure with _ | ⟨patch, eligible⟩
    · simp [failureMeta, hpreserved] at heligible
    · obtain rfl : eligible = true := by simpa [failureMeta, hpreserved] using heligible
      unfold preservedPatch at hpreserved
      split at hpreserved
      · simp at hpreserved
      obtain ⟨p, hp, hsame⟩ := Option.map_eq_some_iff.mp hpreserved
      simp only [Prod.mk.injEq, Bool.and_eq_true, Option.any_eq_true_iff_get] at hsame
      obtain ⟨rfl, -, hsome, hmatches, hmeta⟩ := hsame
      have hmetadata := Option.eq_some_of_isSome hsome
      simp only [metaMatches, Bool.and_eq_true, beq_iff_eq, decide_eq_true_iff] at hmatches
      obtain ⟨q, hq, hsha⟩ := h.eligible _ hmetadata hmatches.1.1 hmeta
      refine ⟨q, hq, ?_⟩
      rw [← hsha, hmatches.1.2]
      simp [failureMeta]
  · obtain ⟨hpatch, hblank, m, hm, hmatches, heligible⟩ := restorable_eq_some_iff.mp hp
    have hcond := hcompensated.failure (by simp [hp])
    rcases hcond with ⟨hexisting, hread, hmeta⟩ | hunchanged
    · have hpreserved : preservedPatch env dir faults.failure = some (p, true) := by
        simp [preservedPatch, RunDirectory.hasExistingPatch, hexisting, hread, hmeta, hpatch,
          hblank, hm, hmatches, heligible]
      have hfinal : (writeFailure env dir faults.failure).final dir =
          (dir.writeMeta (failureMeta env (some (p, true))) faults.failure.writeMeta).1 := by
        simp [CaptureTrail.final, writeFailure, hpreserved]
      rw [hfinal, restorable_eq_some_iff]
      rcases faults.failure.writeMeta with _ | _ | _
      · exact ⟨hpatch, hblank, _, rfl, by simp [metaMatches, failureMeta], rfl⟩
      · exact ⟨hpatch, hblank, m, hm, hmatches, heligible⟩
      · exact ⟨hpatch, hblank, _, rfl, by simp [metaMatches, failureMeta], rfl⟩
    · have hsame : (writeFailure env dir faults.failure).final dir = dir := by
        simp [CaptureTrail.final, writeFailure, hunchanged, RunDirectory.writeMeta, attempt]
      rw [hsame, hp]

/-- The compensation of a patch that could not be replaced keeps the checkpoint, when what it puts
back does. -/
theorem keeps_compensatePatch {before : RunDirectory} {previous : Option Str}
    (h : FromCaptures env texts done dir) (hprevious : ∀ p, previous = some p → p ∈ texts)
    (hrestored : (dir.restorePrevious previous faults.rollbackPatch).2 = false →
      Compensated env { dir with patch := previous } faults ∧
      ∀ p, restorablePatch env before = some p →
        restorablePatch env { dir with patch := previous } = some p) :
    KeepsCheckpoint env texts done before dir (compensatePatch env dir previous faults) := by
  have hstored := @FromCaptures.restorePrevious _ _ _ _ _ faults.rollbackPatch h hprevious
  unfold compensatePatch
  rcases hraised : (dir.restorePrevious previous faults.rollbackPatch).2 with _ | _
  · obtain ⟨hcompensated, hkept⟩ := hrestored hraised
    have hsame := restorePrevious_of_not_raised hraised
    simp only [hraised, Bool.false_eq_true, if_false]
    rw [hsame] at hstored ⊢
    have hfailure := keeps_writeFailure hstored hcompensated
    exact ⟨hfailure.stored, fun hstatus hrollback p hp =>
      hfailure.kept hstatus hrollback p (hkept p hp)⟩
  · simp only [hraised, if_true]
    exact ⟨hstored, fun _ hrollback => by simp [failedResult] at hrollback⟩

/-- A capture that stores a patch keeps the checkpoint. -/
theorem keeps_capturePatch {patch : Str} (h : FromCaptures env texts done dir)
    (hcompensated : Compensated env dir faults) (hpatch : patch ∈ texts)
    (hdone : (capturePatch env dir patch faults).2.status = .written → patch ∈ done) :
    KeepsCheckpoint env texts done dir dir (capturePatch env dir patch faults) := by
  unfold capturePatch at hdone ⊢
  split
  next hread =>
    -- the previous patch counts as missing, so an accepted one must survive the removal
    refine keeps_compensatePatch h (by simp) fun hraised => ?_
    have hlost : restorablePatch env dir = none := by
      by_contra haccepted
      rcases hcompensated.previous haccepted with hnot | hunchanged
      · simp [hread] at hnot
      · simp [RunDirectory.restorePrevious, RunDirectory.removePatch, attempt,
          hunchanged] at hraised
    have hnone : restorablePatch env { dir with patch := none } = none := rfl
    exact ⟨⟨fun hsome => absurd hnone hsome, fun hsome => absurd hnone hsome,
      fun hsome => absurd hnone hsome, hcompensated.described⟩, by simp [hlost]⟩
  next hread =>
  rw [if_neg hread] at hdone
  have hreplaced := @FromCaptures.writePatch _ _ _ _ _ faults.writePatch h hpatch
  have hmetadata := @writePatch_metadata dir patch faults.writePatch
  have hback : { (dir.writePatch patch faults.writePatch).1 with patch := dir.patch } = dir := by
    exact congrArg (RunDirectory.mk dir.patch) hmetadata
  generalize dir.writePatch patch faults.writePatch = written at *
  obtain ⟨replaced, raised⟩ := written
  dsimp only at *
  split
  · have hkeeps := @keeps_compensatePatch _ _ _ _ faults dir _ hreplaced h.patch
      fun _ => by rw [hback]; exact ⟨hcompensated, fun _ hp => hp⟩
    exact ⟨by simpa using hkeeps.stored, by simpa using hkeeps.kept⟩
  next hwrite =>
  rw [if_neg hwrite] at hdone
  have hundone := @writeMeta_of_raised replaced (captureMeta env patch) _
    hcompensated.described
  have hdescribed := @FromCaptures.writeMeta _ _ _ _ (captureMeta env patch)
    faults.writeMeta hreplaced
  generalize replaced.writeMeta (captureMeta env patch) faults.writeMeta = described at *
  obtain ⟨described, raised⟩ := described
  dsimp only at *
  split
  next hraised =>
    obtain rfl := hundone hraised
    refine ⟨hreplaced.restorePrevious h.patch, fun _ hrollback p hp => ?_⟩
    have hrestored := restorePrevious_of_not_raised hrollback
    simp only [CaptureTrail.final, List.getLastD_cons, List.getLastD_nil]
    rw [hrestored, hback, hp]
  next hraised =>
    rw [if_neg hraised] at hdone
    exact ⟨hdescribed fun _ _ _ => ⟨patch, hdone rfl, rfl⟩, by simp⟩

/-- The metadata of a blank patch keeps a checkpoint that putting `previous` back brings back. -/
theorem keeps_describeEmpty {before : RunDirectory} {previous : Option Str} {patch : Str}
    (h : FromCaptures env texts done dir) (hdescribed : faults.writeMeta ≠ some .done)
    (hblank : isBlank patch = true) (hprevious : ∀ p, previous = some p → p ∈ texts)
    (hback : ∀ p, restorablePatch env before = some p →
      restorablePatch env { dir with patch := previous.or dir.patch } = some p) :
    KeepsCheckpoint env texts done before dir (describeEmpty env dir previous patch faults) := by
  have hstored := @FromCaptures.writeMeta _ _ _ _ (captureMeta env patch) faults.writeMeta h
    fun _ hstatus => by simp [captureMeta, hblank] at hstatus
  have hundone := @writeMeta_of_raised dir (captureMeta env patch) _ hdescribed
  unfold describeEmpty
  generalize dir.writeMeta (captureMeta env patch) faults.writeMeta = described at *
  obtain ⟨described, raised⟩ := described
  dsimp only at *
  split
  next hraised =>
    obtain rfl := hundone hraised
    cases previous with
    | none => exact ⟨hstored, fun _ _ p hp => hback p hp⟩
    | some text =>
      refine ⟨hstored.writePatch (hprevious text rfl), fun _ hrollback p hp => ?_⟩
      have hrestored := (writePatch_of_not_raised hrollback).2
      simp only [CaptureTrail.final, List.getLastD_cons, List.getLastD_nil]
      rw [hrestored]
      exact hback p hp
  · exact ⟨hstored, by simp⟩

/-- A capture of a blank patch keeps the checkpoint. -/
theorem keeps_captureBlank {patch : Str} (h : FromCaptures env texts done dir)
    (hcompensated : Compensated env dir faults) (hblank : isBlank patch = true) :
    KeepsCheckpoint env texts done dir dir (captureBlank env dir patch faults) := by
  unfold captureBlank
  split
  · exact keeps_describeEmpty h hcompensated.described hblank (by simp) fun _ hp => hp
  split
  · exact keeps_writeFailure h hcompensated
  have hremoved : FromCaptures env texts done { dir with patch := none } :=
    @FromCaptures.removePatch _ _ _ _ none h
  rcases hfault : faults.removeStale with _ | _ | _
  · show KeepsCheckpoint env texts done dir dir
      ((describeEmpty env { dir with patch := none } dir.patch patch faults).after
        [{ dir with patch := none }])
    have hkeeps := @keeps_describeEmpty _ _ _ _ _ dir _ _ hremoved hcompensated.described hblank
      h.patch fun p hp => by simpa using hp
    exact ⟨by simpa using hkeeps.stored, by simpa using hkeeps.kept⟩
  · show KeepsCheckpoint env texts done dir dir ((writeFailure env dir faults.failure).after [dir])
    have hkeeps := keeps_writeFailure h hcompensated
    exact ⟨by simpa using hkeeps.stored, by simpa using hkeeps.kept⟩
  · show KeepsCheckpoint env texts done dir dir
      ((writeFailure env { dir with patch := none } faults.failure).after
        [{ dir with patch := none }])
    -- the removal took effect, so there was nothing to lose
    have hlost : restorablePatch env dir = none := by
      by_contra haccepted
      exact hcompensated.stale haccepted hfault
    have hnone : restorablePatch env { dir with patch := none } = none := rfl
    have hkeeps := @keeps_writeFailure _ _ _ _ faults hremoved
      ⟨fun hsome => absurd hnone hsome, fun hsome => absurd hnone hsome,
        fun hsome => absurd hnone hsome, hcompensated.described⟩
    exact ⟨by simpa using hkeeps.stored, by simp [hlost]⟩

/-- A capture keeps the checkpoint. -/
theorem keeps_capture {diff : DiffResult} (h : FromCaptures env texts done dir)
    (hcompensated : Compensated env dir faults)
    (htexts : ∀ p ∈ captureTexts [⟨diff, faults⟩], p ∈ texts)
    (hdone : (capture env maxPatchBytes dir diff faults).2.status = .written →
      ∀ p ∈ captureTexts [⟨diff, faults⟩], p ∈ done) :
    KeepsCheckpoint env texts done dir dir (capture env maxPatchBytes dir diff faults) := by
  have hfailure := keeps_writeFailure h hcompensated
  cases hbind : faults.bindDirectory with
  | true =>
    simp only [capture, hbind, if_true]
    exact ⟨h, fun _ _ p hp => hp⟩
  | false =>
    cases diff with
    | exception => simpa [capture, hbind] using hfailure
    | truncated => simpa [capture, hbind] using hfailure
    | failed => simpa [capture, hbind] using hfailure
    | output patch =>
      simp only [capture, hbind, Bool.false_eq_true, if_false] at hdone ⊢
      split
      · exact hfailure
      split
      next hblank => exact keeps_captureBlank h hcompensated hblank
      next hbounded hblank =>
        rw [if_neg hbounded, if_neg hblank] at hdone
        exact keeps_capturePatch h hcompensated (htexts patch (by simp [captureTexts]))
          fun hwritten => hdone hwritten patch (by simp [captureTexts])

theorem captureTexts_append (before after : List Capture) :
    captureTexts (before ++ after) = captureTexts before ++ captureTexts after :=
  List.filterMap_append

theorem runCaptures_append (before after : List Capture) :
    runCaptures env maxPatchBytes dir (before ++ after) =
      runCaptures env maxPatchBytes (runCaptures env maxPatchBytes dir before) after := by
  induction before generalizing dir with
  | nil => rfl
  | cons c rest ih => exact ih

/-- A run of captures keeps to the patches of the captures. -/
theorem fromCaptures_run {captures : List Capture} (h : FromCaptures env texts done dir)
    (hcompensated : AllCompensated env maxPatchBytes dir captures)
    (htexts : ∀ p ∈ captureTexts captures, p ∈ texts) :
    FromCaptures env texts (done ++ writtenPatches env maxPatchBytes dir captures)
      (runCaptures env maxPatchBytes dir captures) := by
  induction captures generalizing dir done with
  | nil => simpa [runCaptures, writtenPatches] using h
  | cons c rest ih =>
    obtain ⟨hfirst, hrest⟩ := hcompensated
    have hsplit : captureTexts (c :: rest) = captureTexts [c] ++ captureTexts rest :=
      captureTexts_append [c] rest
    rw [hsplit] at htexts
    have hstep := @keeps_capture env maxPatchBytes dir texts
      (done ++ if (capture env maxPatchBytes dir c.diff c.faults).2.status = .written
        then captureTexts [c] else []) c.faults c.diff
      (h.mono fun p hp => List.mem_append_left _ hp) hfirst
      (fun p hp => htexts p (List.mem_append_left _ hp))
      (fun hwritten p hp => List.mem_append_right _ (by rwa [if_pos hwritten]))
    have hrun := ih hstep.stored hrest fun p hp => htexts p (List.mem_append_right _ hp)
    rwa [List.append_assoc] at hrun

theorem allCompensated_append {before after : List Capture} :
    AllCompensated env maxPatchBytes dir (before ++ after) ↔
      AllCompensated env maxPatchBytes dir before ∧
        AllCompensated env maxPatchBytes (runCaptures env maxPatchBytes dir before) after := by
  induction before generalizing dir with
  | nil => simp [AllCompensated, runCaptures]
  | cons c rest ih => simp [AllCompensated, runCaptures, ih, and_assoc]

/-- Only what a successful capture produced was stored. -/
theorem writtenPatches_subset {captures : List Capture} {p : Str}
    (h : p ∈ writtenPatches env maxPatchBytes dir captures) : p ∈ captureTexts captures := by
  induction captures generalizing dir with
  | nil => simp [writtenPatches] at h
  | cons c rest ih =>
    have hsplit : captureTexts (c :: rest) = captureTexts [c] ++ captureTexts rest :=
      captureTexts_append [c] rest
    rw [hsplit]
    rcases List.mem_append.mp h with hfirst | hrest
    · split at hfirst
      · exact List.mem_append_left _ hfirst
      · simp at hfirst
    · exact List.mem_append_right _ (ih hrest)

/-- In a run whose captures make up for their faults, and whose patches have different digests, a
capture that failed without a rollback failure keeps the checkpoint, and an accepted patch was
produced by a successful capture. -/
theorem failed_capture_keeps_checkpoint {before : List Capture} {last : Capture}
    (hcompensated : AllCompensated env maxPatchBytes ⟨none, none⟩ (before ++ [last]))
    (hsha : ∀ a ∈ captureTexts (before ++ [last]), ∀ b ∈ captureTexts (before ++ [last]),
      checkpointSha env a = checkpointSha env b → a = b) :
    let dir := runCaptures env maxPatchBytes ⟨none, none⟩ before
    let result := (capture env maxPatchBytes dir last.diff last.faults).2
    let dir' := capturedDirectory env maxPatchBytes dir last.diff last.faults
    (result.status = .failed → result.rollbackFailed = false →
      ∀ p, restorablePatch env dir = some p → restorablePatch env dir' = some p) ∧
    ∀ p, restorablePatch env dir' = some p →
      p ∈ writtenPatches env maxPatchBytes ⟨none, none⟩ (before ++ [last]) := by
  have hempty : FromCaptures env (captureTexts (before ++ [last])) [] ⟨none, none⟩ :=
    ⟨by simp, by simp⟩
  have hsplit := allCompensated_append.mp hcompensated
  have hbefore := @fromCaptures_run _ maxPatchBytes _ _ _ _ hempty hsplit.1
    fun p hp => by rw [captureTexts_append]; exact List.mem_append_left _ hp
  have hlast := @keeps_capture env maxPatchBytes _ _ (captureTexts (before ++ [last])) _ last.diff
    (hbefore.mono fun p hp => by
      rw [captureTexts_append]
      exact List.mem_append_left _ (writtenPatches_subset (by simpa using hp)))
    hsplit.2.1
    (fun p hp => by rw [captureTexts_append]; exact List.mem_append_right _ hp)
    (fun _ p hp => by rw [captureTexts_append]; exact List.mem_append_right _ hp)
  have hrun := @fromCaptures_run _ maxPatchBytes _ _ _ _ hempty hcompensated
    fun p hp => hp
  have hdir : runCaptures env maxPatchBytes ⟨none, none⟩ (before ++ [last]) =
      capturedDirectory env maxPatchBytes (runCaptures env maxPatchBytes ⟨none, none⟩ before)
        last.diff last.faults := by
    simp [runCaptures_append, runCaptures]
  rw [hdir] at hrun
  exact ⟨hlast.kept, fun p hp => by
    simpa using hrun.mem_of_restorable (fun q hq => writtenPatches_subset (by simpa using hq))
      hsha hp⟩

/-- The checkpoint of the first capture is removed by the second one, which cannot read it. -/
theorem failed_capture_keeps_checkpoint_fails_on_unread_patch :
    let faults := { CaptureFaults.none with readPrevious := true }
    let dir := runCaptures asciiEnv 100 ⟨none, none⟩ [⟨.output "a", .none⟩]
    let result := (capture asciiEnv 100 dir (.output "b") faults).2
    result.status = .failed ∧ result.rollbackFailed = false ∧
      restorablePatch asciiEnv dir = some (lit "a") ∧
      restorablePatch asciiEnv (capturedDirectory asciiEnv 100 dir (.output "b") faults) =
        none := by
  refine ⟨by decide +kernel, by decide +kernel, by decide +kernel, by decide +kernel⟩

/-- A capture whose diff command fails after one that stored a patch. -/
theorem failed_capture_keeps_checkpoint_after_failed_diff :
    restorablePatch asciiEnv (capturedDirectory asciiEnv 100
      (runCaptures asciiEnv 100 ⟨none, none⟩ [⟨.output "a", .none⟩]) .failed .none) =
        some (lit "a") := by
  have hcompensated : AllCompensated asciiEnv 100 ⟨none, none⟩
      ([⟨.output "a", .none⟩] ++ [⟨.failed, .none⟩]) :=
    ⟨⟨fun _ => .inl rfl, fun _ => .inl ⟨rfl, rfl, rfl⟩, fun _ => by simp [CaptureFaults.none],
      by simp [CaptureFaults.none]⟩,
      ⟨fun _ => .inl rfl, fun _ => .inl ⟨rfl, rfl, rfl⟩, fun _ => by simp [CaptureFaults.none],
        by simp [CaptureFaults.none]⟩, trivial⟩
  have hsha : ∀ a ∈ captureTexts ([⟨.output "a", .none⟩] ++ [⟨.failed, .none⟩]),
      ∀ b ∈ captureTexts ([⟨.output "a", .none⟩] ++ [⟨.failed, .none⟩]),
      checkpointSha asciiEnv a = checkpointSha asciiEnv b → a = b := by
    intro a ha b hb _
    simp only [captureTexts, List.singleton_append, List.filterMap_cons, List.filterMap_nil,
      List.mem_singleton] at ha hb
    rw [ha, hb]
  exact (failed_capture_keeps_checkpoint hcompensated hsha).1 (by decide +kernel)
    (by decide +kernel) _ (by decide +kernel)

end OpenCollabEval
