import OpenCollabEval.Checkpoint.Capture

/-!
# Crashes of a capture

A crash between the two files of a capture leaves the new patch with the metadata of the old one,
which `restore_latest` rejects: the whole checkpoint is lost and not one interval of it.
-/

open Python

namespace OpenCollabEval

variable {env : Env} {maxPatchBytes : Nat} {dir : RunDirectory} {patch : Str}
  {faults : CaptureFaults}

/-- No failure of a write is a success. -/
theorem status_writeFailure (dir : RunDirectory) (faults : FailureFaults) :
    (writeFailure env dir faults).2.status = .failed := rfl

theorem status_compensatePatch (dir : RunDirectory) (previous : Option Str) :
    (compensatePatch env dir previous faults).2.status = .failed := by
  unfold compensatePatch
  dsimp only
  split
  · rfl
  · exact status_writeFailure _ _

/-- A write that did not raise has replaced the patch, which can be encoded. -/
theorem writePatch_of_not_raised {text : Str} {fault : Option WriteFault}
    (h : (dir.writePatch text fault).2 = false) :
    text.any Str.isSurrogate = false ∧
      (dir.writePatch text fault).1 = { dir with patch := some text } := by
  unfold RunDirectory.writePatch at h ⊢
  split at h
  · simp at h
  next hencodes =>
    rw [if_neg hencodes]
    rcases fault with _ | _ | _
    · exact ⟨by simpa using hencodes, rfl⟩
    · simp [attempt] at h
    · simp [attempt] at h

/-- A metadata write that did not raise has replaced the metadata. -/
theorem writeMeta_of_not_raised {document : CheckpointMeta} {fault : Option WriteFault}
    (h : (dir.writeMeta document fault).2 = false) :
    (dir.writeMeta document fault).1 = { dir with metadata := some document } := by
  rcases fault with _ | _ | _
  · rfl
  · simp [RunDirectory.writeMeta, attempt] at h
  · simp [RunDirectory.writeMeta, attempt] at h

/-- What a capture stores before it reports that it has written its patch. -/
structure Stores (env : Env) (maxPatchBytes : Nat) (dir : RunDirectory) (patch : Str)
    (faults : CaptureFaults) : Prop where
  notBlank : isBlank patch = false
  bounded : patchBytes patch ≤ maxPatchBytes
  encodes : patch.any Str.isSurrogate = false
  trail : (capture env maxPatchBytes dir (.output patch) faults).1 =
    [{ dir with patch := some patch }, ⟨some patch, some (captureMeta env patch)⟩]

/-- A capture that reports a written patch has stored it. -/
theorem stores_of_written
    (h : (capture env maxPatchBytes dir (.output patch) faults).2.status = .written) :
    Stores env maxPatchBytes dir patch faults := by
  unfold capture at h
  split at h
  · simp [failedResult] at h
  next hbind =>
  simp only at h
  split at h
  · simp [status_writeFailure] at h
  next hbounded =>
  split at h
  · unfold captureBlank at h
    split at h
    · unfold describeEmpty at h
      dsimp only at h
      split at h <;> simp [failedResult] at h
    split at h
    · simp [status_writeFailure] at h
    dsimp only at h
    split at h
    · simp [CaptureTrail.after, status_writeFailure] at h
    · unfold describeEmpty at h
      dsimp only [CaptureTrail.after] at h
      split at h
      · split at h <;> simp [failedResult] at h
      · simp at h
  next hblank =>
  unfold capturePatch at h
  split at h
  · simp [status_compensatePatch] at h
  next hread =>
  dsimp only at h
  split at h
  · simp [CaptureTrail.after, status_compensatePatch] at h
  next hwrite =>
  split at h
  · simp [failedResult] at h
  next hmeta =>
  obtain ⟨hencodes, hreplaced⟩ := writePatch_of_not_raised (by simpa using hwrite)
  have hdescribed := writeMeta_of_not_raised (by simpa using hmeta)
  refine ⟨by simpa using hblank, by simpa using hbounded, hencodes, ?_⟩
  rw [capture, if_neg hbind, if_neg hbounded, if_neg hblank, capturePatch, if_neg hread]
  dsimp only
  rw [if_neg hwrite, if_neg hmeta, hdescribed, hreplaced]

/-- A stored patch with its own metadata is accepted. -/
theorem restorable_stored (hblank : isBlank patch = false) :
    restorablePatch env ⟨some patch, some (captureMeta env patch)⟩ = some patch := by
  simp [restorablePatch, metaMatches, captureMeta, hblank]

/-- After a capture that stored a patch, a crash of the next one leaves a checkpoint that is
accepted, with one of the two patches, exactly when it does not come between the two files, or both
patches have the same digest and size. -/
theorem checkpoint_survives_crash_iff {next : Str} {k : Nat} {crashed : RunDirectory}
    (hlast : (capture env maxPatchBytes dir (.output patch) faults).2.status = .written)
    (hnext : (capture env maxPatchBytes (capturedDirectory env maxPatchBytes dir (.output patch)
      faults) (.output next) .none).2.status = .written)
    (hcrash : (crashDirectories env maxPatchBytes (capturedDirectory env maxPatchBytes dir
      (.output patch) faults) (.output next))[k]? = some crashed) :
    (∃ r, restorablePatch env crashed = some r ∧ (r = patch ∨ r = next)) ↔
      (k ≠ 1 ∨ checkpointSha env next = checkpointSha env patch ∧
        patchBytes next = patchBytes patch) := by
  have hstored := stores_of_written hlast
  have hdir : capturedDirectory env maxPatchBytes dir (.output patch) faults =
      ⟨some patch, some (captureMeta env patch)⟩ := by
    rw [capturedDirectory, hstored.trail]
    rfl
  rw [hdir] at hnext hcrash
  have hnextStored := stores_of_written hnext
  rw [crashDirectories, hnextStored.trail] at hcrash
  -- the three points: before the patch, between the two files, after the metadata
  rcases k with _ | _ | _ | k
  · obtain rfl : (⟨some patch, some (captureMeta env patch)⟩ : RunDirectory) = crashed := by
      simpa using hcrash
    exact iff_of_true ⟨patch, restorable_stored hstored.notBlank, .inl rfl⟩ (.inl (by decide))
  · obtain rfl : (⟨some next, some (captureMeta env patch)⟩ : RunDirectory) = crashed := by
      simpa using hcrash
    have hblank := hstored.notBlank
    have hnextBlank := hnextStored.notBlank
    constructor
    · rintro ⟨r, hr, -⟩
      have haccepted : metaMatches env (captureMeta env patch) next = true := by
        by_contra hrejected
        simp [restorablePatch, hrejected] at hr
      simp only [metaMatches, captureMeta, Bool.and_eq_true, beq_iff_eq] at haccepted
      exact .inr ⟨haccepted.1.2.symm, haccepted.2.symm⟩
    · rintro (hk | ⟨hsha, hbytes⟩)
      · exact absurd rfl hk
      · refine ⟨next, ?_, .inr rfl⟩
        simp [restorablePatch, metaMatches, captureMeta, hblank, hnextBlank, hsha, hbytes]
  · obtain rfl : (⟨some next, some (captureMeta env next)⟩ : RunDirectory) = crashed := by
      simpa using hcrash
    exact iff_of_true ⟨next, restorable_stored hnextStored.notBlank, .inr rfl⟩ (.inl (by simp))
  · simp at hcrash

/-- A crash between the two files of the second capture loses the checkpoint of the first. -/
theorem checkpoint_survives_crash_fails_between_files :
    (capture asciiEnv 100 ⟨none, none⟩ (.output "a") .none).2.status = .written ∧
    (capture asciiEnv 100 (capturedDirectory asciiEnv 100 ⟨none, none⟩ (.output "a") .none)
      (.output "b") .none).2.status = .written ∧
    ((crashDirectories asciiEnv 100 (capturedDirectory asciiEnv 100 ⟨none, none⟩ (.output "a")
      .none) (.output "b"))[1]?).map (restorablePatch asciiEnv) = some none := by
  refine ⟨by decide +kernel, by decide +kernel, by decide +kernel⟩

/-- A crash after both files of the second capture. -/
theorem checkpoint_survives_crash_after_both_files :
    ∃ crashed r, restorablePatch asciiEnv crashed = some r ∧ (r = lit "a" ∨ r = lit "b") := by
  have hlast : (capture asciiEnv 100 ⟨none, none⟩ (.output "a") .none).2.status = .written := by
    decide +kernel
  have hnext : (capture asciiEnv 100 (capturedDirectory asciiEnv 100 ⟨none, none⟩ (.output "a")
      .none) (.output "b") .none).2.status = .written := by decide +kernel
  have hcrash : ((crashDirectories asciiEnv 100 (capturedDirectory asciiEnv 100 ⟨none, none⟩
      (.output "a") .none) (.output "b"))[2]?).isSome = true := by decide +kernel
  obtain ⟨crashed, hcrashed⟩ := Option.isSome_iff_exists.mp hcrash
  exact ⟨crashed, (checkpoint_survives_crash_iff hlast hnext hcrashed).mpr (.inl (by decide))⟩

end OpenCollabEval
