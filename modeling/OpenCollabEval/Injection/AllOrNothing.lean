import OpenCollabEval.Injection.TestPatch

/-!
# All-or-nothing injection

A failing `git apply` is undone exactly where Git can see its changes. A path that Git ignores is neither
restored nor removed nor reported, so the proof of cleanness passes with the path changed.
-/

open Python

namespace OpenCollabEval

namespace Worktree

variable {w w' : Worktree} {p q : Str}

@[simp]
theorem setContent_tracking (paths : List Str) (content : Str → Option (List Nat)) :
    (w.setContent paths content).tracking = w.tracking := rfl

theorem setContent_of_mem {paths : List Str} (content : Str → Option (List Nat)) (h : p ∈ paths) :
    (w.setContent paths content).content p = content p := by
  simp [setContent, h]

theorem setContent_of_not_mem {paths : List Str} (content : Str → Option (List Nat))
    (h : p ∉ paths) : (w.setContent paths content).content p = w.content p := by
  simp [setContent, h]

/-- Nothing is reported of a clean path. -/
def IsClean (w : Worktree) (path : Str) : Prop := w.statusOf path = none

/-- What a clean path that Git does not ignore holds. -/
def cleanContent : Tracking → Option (List Nat)
  | .tracked blob => some blob
  | _ => none

/-- A path that is clean before and after has the same content, unless Git ignores it. -/
theorem content_eq_of_isClean (h : w.IsClean p) (h' : w'.IsClean p)
    (htracking : w'.tracking p = w.tracking p) (hseen : w.tracking p ≠ .ignored) :
    w'.content p = w.content p := by
  have hcontent : ∀ v : Worktree, v.IsClean p → v.tracking p = w.tracking p →
      v.content p = cleanContent (w.tracking p) := by
    intro v hv ht
    rw [← ht]
    unfold IsClean statusOf at hv
    cases hkind : v.tracking p with
    | tracked blob =>
      rw [hkind] at hv
      cases hc : v.content p with
      | none => simp [hc] at hv
      | some bytes => simpa [hc, cleanContent] using hv
    | untracked =>
      rw [hkind] at hv
      simpa [cleanContent] using hv
    | ignored => exact absurd (ht.symm.trans hkind) hseen
  rw [hcontent w' h' htracking, hcontent w h rfl]

/-- The two commands that put a path back. -/
theorem checkout_cases (w : Worktree) (p : Str) :
    (w.checkout p = w ∧ ∀ blob, w.tracking p ≠ .tracked blob) ∨
      ∃ blob, w.tracking p = .tracked blob ∧ w.checkout p = w.setContent [p] fun _ => some blob := by
  unfold checkout
  cases w.tracking p <;> simp

theorem clean_cases (w : Worktree) (p : Str) :
    (w.clean p = w ∧ w.tracking p ≠ .untracked) ∨
      (w.tracking p = .untracked ∧ w.clean p = w.setContent [p] fun _ => none) := by
  unfold clean
  cases w.tracking p <;> simp

/-- What a rollback command leaves: the other paths, what Git ignores, and what is clean. -/
structure Restores (w w' : Worktree) (paths : List Str) : Prop where
  tracking : w'.tracking = w.tracking
  frame : ∀ q, q ∉ paths → w'.content q = w.content q
  ignored : ∀ q, w.tracking q = .ignored → w'.content q = w.content q
  clean : ∀ q, w.IsClean q → w'.IsClean q

theorem Restores.refl (w : Worktree) (paths : List Str) : Restores w w paths :=
  ⟨rfl, fun _ _ => rfl, fun _ _ => rfl, fun _ h => h⟩

theorem Restores.trans {w'' : Worktree} {paths paths' : List Str} (h : Restores w w' paths)
    (h' : Restores w' w'' paths') : Restores w w'' (paths ++ paths') where
  tracking := h'.tracking.trans h.tracking
  frame := fun q hq => by
    rw [h'.frame q (fun hmem => hq (List.mem_append_right _ hmem)),
      h.frame q (fun hmem => hq (List.mem_append_left _ hmem))]
  ignored := fun q hq => by
    rw [h'.ignored q (by rw [h.tracking, hq]), h.ignored q hq]
  clean := fun q hq => h'.clean q (h.clean q hq)

theorem Restores.mono {paths paths' : List Str} (h : Restores w w' paths)
    (hsub : ∀ q ∈ paths, q ∈ paths') : Restores w w' paths' :=
  ⟨h.tracking, fun q hq => h.frame q fun hmem => hq (hsub q hmem), h.ignored, h.clean⟩

/-- Putting one path to what Git has of it. -/
theorem restores_setContent {value : Option (List Nat)} (hseen : w.tracking p ≠ .ignored)
    (hclean : (w.setContent [p] fun _ => value).IsClean p) :
    Restores w (w.setContent [p] fun _ => value) [p] where
  tracking := rfl
  frame := fun q hq => setContent_of_not_mem _ hq
  ignored := fun q hq => by
    have hne : q ≠ p := by
      rintro rfl
      exact hseen hq
    exact setContent_of_not_mem _ (by simpa using hne)
  clean := fun q hq => by
    by_cases heq : q = p
    · exact heq ▸ hclean
    · unfold IsClean statusOf at hq ⊢
      rwa [setContent_tracking, setContent_of_not_mem _ (by simpa using heq)]

theorem restores_checkout (w : Worktree) (p : Str) : Restores w (w.checkout p) [p] := by
  rcases checkout_cases w p with ⟨hsame, -⟩ | ⟨blob, htracked, heq⟩
  · rw [hsame]
    exact Restores.refl w [p]
  · rw [heq]
    refine restores_setContent (by simp [htracked]) ?_
    simp [IsClean, statusOf, htracked, setContent]

theorem restores_clean (w : Worktree) (p : Str) : Restores w (w.clean p) [p] := by
  rcases clean_cases w p with ⟨hsame, -⟩ | ⟨huntracked, heq⟩
  · rw [hsame]
    exact Restores.refl w [p]
  · rw [heq]
    refine restores_setContent (by simp [huntracked]) ?_
    simp [IsClean, statusOf, huntracked, setContent]

end Worktree

open Worktree

variable {w w' : Worktree} {patch : PatchFile} {b : Behavior} {touched : List Str}

/-- A text with a code point that is not cut has something left. -/
theorem stripOf_ne_nil {cut : Nat → Bool} {s : Str} {c : Nat} (hc : c ∈ s) (hcut : cut c = false) :
    Str.stripOf cut s ≠ [] := by
  intro hnil
  rw [Str.stripOf, Str.rstripOf, Str.lstripOf, List.rdropWhile_eq_nil_iff] at hnil
  rw [← List.takeWhile_append_dropWhile (p := cut) (l := s)] at hc
  rcases List.mem_append.mp hc with hfront | hrest
  · have := List.mem_takeWhile_imp hfront
    simp [hcut] at this
  · simpa [hcut] using hnil c hrest

/-- The status of a path is dirty exactly when something is reported. -/
theorem isClean_of_not_dirty {p : Str} (h : isDirty (w.statusOutput p) = false) : w.IsClean p := by
  unfold Worktree.IsClean
  cases hstatus : w.statusOf p with
  | none => rfl
  | some code =>
    have hcode : code = " D " ∨ code = " M " ∨ code = "?? " := by
      unfold Worktree.statusOf at hstatus
      split at hstatus
      · split at hstatus
        · exact .inl (Option.some.inj hstatus).symm
        · split at hstatus
          · cases hstatus
          · exact .inr (.inl (Option.some.inj hstatus).symm)
      · split at hstatus
        · exact .inr (.inr (Option.some.inj hstatus).symm)
        · cases hstatus
      · cases hstatus
    simp only [isDirty, Worktree.statusOutput, hstatus, Bool.not_eq_false',
      List.isEmpty_iff] at h
    rcases hcode with rfl | rfl | rfl
    · exact absurd h (stripOf_ne_nil (c := 68) (by simp [lit]) (by decide))
    · exact absurd h (stripOf_ne_nil (c := 77) (by simp [lit]) (by decide))
    · exact absurd h (stripOf_ne_nil (c := 63) (by simp [lit]) (by decide))

/-- A path that was proven is clean. -/
theorem isClean_of_provePath {p : Str} {o : PathRollback} (h : provePath w p o = .proven) :
    w.IsClean p := by
  unfold provePath at h
  split at h
  · cases h
  rcases hstatus : o.status with _ | ⟨r, hr⟩ | e
  · rw [hstatus] at h
    refine isClean_of_not_dirty (Bool.eq_false_iff.mpr fun hdirty => ?_)
    simp [Answer.result, hdirty] at h
  · rw [hstatus] at h
    simp [Answer.result, hr] at h
  · rw [hstatus] at h
    cases e <;> cases h

/-- The rollback of a path restores it, and a proven one is clean. -/
theorem restores_rollbackPath (w : Worktree) (p : Str) (o : PathRollback) :
    Restores w (rollbackPath w p o).1 [p] ∧
      ((rollbackPath w p o).2 = .proven → (rollbackPath w p o).1.IsClean p) := by
  have hcheckout : Restores w
      (if tookEffect o.checkout o.checkoutTookEffect then w.checkout p else w) [p] := by
    split
    · exact restores_checkout w p
    · exact Restores.refl w [p]
  unfold rollbackPath
  split
  · exact ⟨Restores.refl w [p], by simp⟩
  dsimp only
  generalize (if tookEffect o.checkout o.checkoutTookEffect then w.checkout p else w) = w₁ at *
  split
  · exact ⟨hcheckout, by simp⟩
  split
  · exact ⟨hcheckout, by simp⟩
  have hclean : Restores w (if tookEffect o.clean o.cleanTookEffect then w₁.clean p else w₁) [p] := by
    split
    · exact (hcheckout.trans (restores_clean w₁ p)).mono (by simp)
    · exact hcheckout
  generalize (if tookEffect o.clean o.cleanTookEffect then w₁.clean p else w₁) = w₂ at *
  split
  · exact ⟨hclean, by simp⟩
  · exact ⟨hclean, isClean_of_provePath⟩

/-- The rollback of some paths restores them, and when all are proven they are clean. -/
theorem restores_rollbackPaths (b : Behavior) (w : Worktree) (paths : List Str) :
    Restores w (rollbackPaths b w paths).1 paths ∧
      ((rollbackPaths b w paths).2.1 = true → ∀ p ∈ paths, (rollbackPaths b w paths).1.IsClean p) := by
  induction paths generalizing w with
  | nil => exact ⟨Restores.refl w [], by simp⟩
  | cons p rest ih =>
    obtain ⟨hfirst, hproven⟩ := restores_rollbackPath w p (b.rollback p)
    rw [rollbackPaths]
    generalize rollbackPath w p (b.rollback p) = first at *
    obtain ⟨w₁, verdict⟩ := first
    have hone : Restores w w₁ (p :: rest) := hfirst.mono (by simp)
    cases verdict with
    | proven =>
      obtain ⟨hrest, hclean⟩ := ih w₁
      refine ⟨hfirst.trans hrest, fun htrue q hq => ?_⟩
      rcases List.mem_cons.mp hq with rfl | hq
      · exact hrest.clean q (hproven rfl)
      · exact hclean htrue q hq
    | failed => exact ⟨hfirst.trans (ih w₁).1, by simp⟩
    | expired => exact ⟨hone, by simp⟩
    | raised e => exact ⟨hone, by simp⟩

/-- All paths that the headers and numstat name. -/
def PatchFile.touchedPaths (patch : PatchFile) : List Str :=
  allTouched (touchedFiles patch.text) ((numstatPaths patch.numstat).toOption.getD [])

/-- Every path is as before. -/
def Unchanged (w w' : Worktree) : Prop := ∀ p, w'.content p = w.content p

/-- A call that applied nothing left every path as before, or its error names what it changed. -/
def Undone (w : Worktree) (outcome : Injected) : Prop :=
  match outcome.2 with
  | .ok paths => paths = [] ∧ Unchanged w outcome.1
  | .error (.isolation paths _) => ∀ p, outcome.1.content p ≠ w.content p → p ∈ paths
  | .error _ => Unchanged w outcome.1

/-- The patch was applied in full and all paths that it may change are returned. -/
structure AppliedInFull (patch : PatchFile) (b : Behavior) (w : Worktree) (outcome : Injected) :
    Prop where
  success : ∃ r, b.apply = .ok r ∧ r.returncode = 0
  returned : outcome.2 = .ok patch.touchedPaths
  worktree : outcome.1 = w.setContent patch.paths b.applied
  complete : ∀ p ∈ patch.paths, p ∈ patch.touchedPaths

/-- The patch is applied in full, or the call is undone. -/
def AllOrNothing (patch : PatchFile) (b : Behavior) (w : Worktree) (outcome : Injected) : Prop :=
  AppliedInFull patch b w outcome ∨ Undone w outcome

/-- A failed apply is undone when it changed nothing that Git ignores. -/
theorem undone_compensated (hclean : ∀ p ∈ touched, w.IsClean p)
    (hpaths : ∀ p ∈ patch.paths, p ∈ touched)
    (hseen : ∀ p ∈ patch.paths, w.tracking p ≠ .ignored) (original : Option Raised) :
    Undone w (compensated b (w.setContent patch.paths b.applied) touched original) := by
  have houtside : ∀ w' : Worktree, (∀ q, q ∉ touched →
      w'.content q = (w.setContent patch.paths b.applied).content q) →
      ∀ p, w'.content p ≠ w.content p → p ∈ touched.eraseDups := by
    intro w' hframe p hchanged
    rw [List.mem_eraseDups]
    by_contra hout
    refine hchanged ((hframe p hout).trans ?_)
    exact setContent_of_not_mem _ fun hmem => hout (hpaths p hmem)
  unfold compensated compensateFailedMutation
  cases hstopped : b.stopped with
  | some content =>
    exact houtside _ fun q hq => setContent_of_not_mem _ hq
  | none =>
    unfold rollbackFailedApply
    by_cases hempty : touched.isEmpty = true
    · rw [if_pos hempty]
      have hnone : touched = [] := List.isEmpty_iff.mp hempty
      intro p hchanged
      have hmem := houtside (w.setContent patch.paths b.applied) (fun _ _ => rfl) p hchanged
      simp [hnone] at hmem
    rw [if_neg hempty]
    obtain ⟨hrestores, hproven⟩ :=
      restores_rollbackPaths b (w.setContent patch.paths b.applied) touched
    generalize rollbackPaths b (w.setContent patch.paths b.applied) touched = result at *
    obtain ⟨w', proven, raised⟩ := result
    have hnamed := houtside w' hrestores.frame
    have hunchanged : proven = true → Unchanged w w' := by
      intro htrue p
      by_cases hmem : p ∈ touched
      · by_cases hignored : w.tracking p = .ignored
        · rw [hrestores.ignored p hignored]
          exact setContent_of_not_mem _ fun hp => hseen p hp hignored
        · exact content_eq_of_isClean (hclean p hmem) (hproven htrue p hmem)
            (by rw [hrestores.tracking]; rfl) hignored
      · rw [hrestores.frame p hmem]
        exact setContent_of_not_mem _ fun hp => hmem (hpaths p hp)
    cases raised with
    | some e => cases e <;> exact hnamed
    | none =>
      cases proven with
      | false => exact hnamed
      | true =>
        simp only [if_true]
        by_cases hcancelled : (original = some .cancelled || b.rollbackCancelled) = true
        · simp only [hcancelled, if_true]
          exact hunchanged rfl
        · simp only [hcancelled, Bool.false_eq_true, if_false]
          by_cases hother : original = some .other
          · simp only [hother, if_true]
            exact hunchanged rfl
          · simp only [hother, if_false]
            exact ⟨rfl, hunchanged rfl⟩

/-- A patch that is refused before it is applied. -/
def PatchFile.refused (patch : PatchFile) : Bool :=
  refusedText patch.text || !(numstatPaths patch.numstat).isOk ||
    (pathBoundError patch.touchedPaths).isSome

/-- The call on a staged patch. -/
theorem allOrNothing_applyStaged (hclean : ∀ p ∈ patch.touchedPaths, w.IsClean p)
    (hseen : patch.refused = true ∨ ∀ p ∈ patch.paths, w.tracking p ≠ .ignored)
    (htext : refusedText patch.text = false) :
    AllOrNothing patch b w (applyStagedTestPatch patch b w (touchedFiles patch.text)) := by
  have hnothing : Undone w (w, .ok []) := ⟨rfl, fun _ => rfl⟩
  have hraised : ∀ e : Raised, Undone w (w, .error e.error) := fun e => by
    cases e <;> exact fun _ => rfl
  unfold applyStagedTestPatch
  rcases hnumstat : b.numstat with _ | ⟨r, hr⟩ | e
  · simp only [Answer.result, CommandResult.incomplete]
    rcases hlisted : numstatPaths patch.numstat with e | listed
    · exact .inr hnothing
    have htouched : allTouched (touchedFiles patch.text) listed = patch.touchedPaths := by
      rw [PatchFile.touchedPaths, hlisted]
      rfl
    have hpaths : ∀ p ∈ patch.paths, p ∈ patch.touchedPaths := fun p hp => by
      rw [← htouched, allTouched, List.mem_eraseDups]
      exact List.mem_append_right _ (patch.listed listed hlisted p hp)
    simp only [htouched]
    split
    · next h => simp at h
    split
    · exact .inr hnothing
    next hbound =>
    have hseen := hseen.resolve_left (by
      simpa [PatchFile.refused, htext, hlisted, Except.isOk, Except.toBool] using hbound)
    rcases b.check with e | r
    · exact .inr (hraised e)
    dsimp only
    split
    · unfold applyChecked
      rcases happly : b.apply with e | r
      · exact .inr (undone_compensated hclean hpaths hseen (some e))
      · dsimp only
        split
        next hsuccess => exact .inl ⟨⟨r, happly, hsuccess⟩, rfl, rfl, hpaths⟩
        · exact .inr (undone_compensated hclean hpaths hseen none)
    · exact .inr hnothing
  · simp only [Answer.result, hr, if_true]
    exact .inr hnothing
  · cases e with
    | exception => exact .inr hnothing
    | cancelled => exact .inr (hraised .cancelled)
    | other => exact .inr (hraised .other)

/-- Removing the staging file after an error keeps the account of it. -/
theorem undone_finish_error {e : InjectionError} (h : Undone w (w', .error e)) :
    Undone w (w', .error ((finishStagedPatchCleanup b touched (some e) false).getD e)) := by
  have hunchanged : (∀ paths c, e ≠ .isolation paths c) → Unchanged w w' := by
    intro hne
    cases e with
    | isolation paths c => exact absurd rfl (hne paths c)
    | cancelled => exact h
    | exception => exact h
    | other => exact h
  have hisolation : ∀ paths c, Unchanged w w' → Undone w (w', .error (.isolation paths c)) :=
    fun _ _ hsame p hchanged => absurd (hsame p) hchanged
  unfold finishStagedPatchCleanup
  cases e with
  | isolation paths c =>
    have hmore : ∀ c', Undone w (w', .error (.isolation (paths ++ touched).eraseDups c')) :=
      fun c' p hchanged => by
        rw [List.mem_eraseDups]
        exact List.mem_append_left _ (h p hchanged)
    cases b.cleanup with
    | removed => exact h
    | raised => exact hmore _
    | timedOut => exact hmore _
  | cancelled =>
    have hsame := hunchanged (by simp)
    cases b.cleanup <;> simp only [provenance, Bool.true_or, if_true, Option.getD_some] <;>
      first | exact hsame | exact hisolation _ _ hsame
  | exception =>
    have hsame := hunchanged (by simp)
    cases b.cleanup <;> cases b.cleanupCancelled <;>
      first | exact hsame | exact hisolation _ _ hsame
  | other =>
    have hsame := hunchanged (by simp)
    cases b.cleanup <;> cases b.cleanupCancelled <;>
      first | exact hsame | exact hisolation _ _ hsame

/-- Removing the staging file after a result: what is raised instead names what was applied. -/
theorem undone_finish_ok {result : List Str} {e : InjectionError}
    (h : AllOrNothing patch b w (w', .ok result))
    (hraised : finishStagedPatchCleanup b result none (!result.isEmpty) = some e) :
    Undone w (w', .error e) := by
  have hnamed : ∀ c, Undone w (w', .error (.isolation result c)) := by
    intro c p hchanged
    rcases h with happlied | ⟨-, hsame⟩
    · obtain rfl : result = patch.touchedPaths := Except.ok.inj happlied.returned
      refine happlied.complete p ?_
      by_contra hout
      have hworktree : w' = _ := happlied.worktree
      exact hchanged (hworktree ▸ setContent_of_not_mem _ hout)
    · exact absurd (hsame p) hchanged
  have hempty : result = [] → Unchanged w w' := by
    rintro rfl p
    by_contra hchanged
    simpa using hnamed false p hchanged
  unfold finishStagedPatchCleanup at hraised
  cases hcleanup : b.cleanup with
  | removed =>
    rw [hcleanup] at hraised
    simp only [provenance, Bool.false_or] at hraised
    split at hraised
    · exact Option.some.inj hraised ▸ hnamed _
    next hnot =>
      split at hraised
      next hcancelled =>
        obtain rfl := Option.some.inj hraised
        exact hempty (by simpa [hcancelled] using hnot)
      · cases hraised
  | raised =>
    rw [hcleanup] at hraised
    exact Option.some.inj hraised ▸ hnamed _
  | timedOut =>
    rw [hcleanup] at hraised
    exact Option.some.inj hraised ▸ hnamed _

/-- Without ignored paths among those that a patch may change, every call is all or nothing. -/
theorem allOrNothing_of_seen (hclean : ∀ p ∈ patch.touchedPaths, w.IsClean p)
    (hseen : patch.refused = true ∨ ∀ p ∈ patch.paths, w.tracking p ≠ .ignored) :
    AllOrNothing patch b w (applyTestPatch patch b w) := by
  unfold applyTestPatch
  split
  · exact .inr ⟨rfl, fun _ => rfl⟩
  next htext =>
  rcases hstage : b.stage with _ | e
  · have hstaged := allOrNothing_applyStaged (b := b) hclean hseen (by simpa using htext)
    dsimp only
    generalize applyStagedTestPatch patch b w (touchedFiles patch.text) = outcome at *
    obtain ⟨w', result⟩ := outcome
    cases result with
    | error e =>
      rcases hstaged with happlied | hundone
      · cases happlied.returned
      · exact .inr (undone_finish_error hundone)
    | ok result =>
      dsimp only
      split
      next e he => exact .inr (undone_finish_ok hstaged he)
      · exact hstaged
  · cases e with
    | exception => exact .inr ⟨rfl, fun _ => rfl⟩
    | cancelled => exact .inr fun _ => rfl
    | other => exact .inr fun _ => rfl

/-- An environment in which `git apply` fails after it changed one path, and all else works. -/
def failingApply (p : Str) (value : Option (List Nat)) (w : Worktree) : Behavior where
  stage := none
  numstat := .works
  check := .ok ⟨0, false, false, []⟩
  apply := .ok ⟨1, false, false, []⟩
  applied := fun q => if q = p then value else w.content q
  rollback := fun _ => ⟨.ok ⟨1, false, false, []⟩, false, .ok ⟨0, false, false, []⟩, true,
    .works, none⟩
  stopped := none
  rollbackCancelled := false
  cleanup := .removed
  cleanupCancelled := false

/-- The rollback of paths that are clean already is proven. -/
theorem rollbackPaths_failingApply {p : Str} {value : Option (List Nat)} {w₀ : Worktree}
    {paths : List Str} (hclean : ∀ q ∈ paths, w.IsClean q) :
    (rollbackPaths (failingApply p value w₀) w paths).2 = (true, none) := by
  induction paths generalizing w with
  | nil => rfl
  | cons q rest ih =>
    have hrestores := restores_clean w q
    have hverdict : rollbackPath w q ((failingApply p value w₀).rollback q) =
        (w.clean q, .proven) := by
      have hq : (w.clean q).statusOf q = none := hrestores.clean q (hclean q (by simp))
      simp [rollbackPath, failingApply, tookEffect, propagates, provePath, Answer.result,
        CommandResult.incomplete, statusOutput, hq, isDirty, Str.stripOf, Str.rstripOf,
        Str.lstripOf]
    rw [rollbackPaths, hverdict]
    exact ih fun q' hq' => hrestores.clean q' (hclean q' (by simp [hq']))

/-- A failing apply that changed an ignored path goes unnoticed. -/
theorem not_allOrNothing_failingApply {p : Str} {value : Option (List Nat)}
    (hclean : ∀ q ∈ patch.touchedPaths, w.IsClean q) (hrefused : patch.refused = false)
    (hp : p ∈ patch.paths) (hignored : w.tracking p = .ignored) (hvalue : value ≠ w.content p) :
    ¬ AllOrNothing patch (failingApply p value w) w
      (applyTestPatch patch (failingApply p value w) w) := by
  simp only [PatchFile.refused, Bool.or_eq_false_iff, Bool.not_eq_false'] at hrefused
  obtain ⟨⟨htext, hnumstat⟩, hbound⟩ := hrefused
  rcases hlisted : numstatPaths patch.numstat with e | listed
  · rw [hlisted] at hnumstat
    cases hnumstat
  have htouched : allTouched (touchedFiles patch.text) listed = patch.touchedPaths := by
    rw [PatchFile.touchedPaths, hlisted]
    rfl
  have hmem : p ∈ patch.touchedPaths := by
    rw [← htouched, allTouched, List.mem_eraseDups]
    exact List.mem_append_right _ (patch.listed listed hlisted p hp)
  have hnonempty : patch.touchedPaths.isEmpty = false := by
    cases h : patch.touchedPaths with
    | nil => simp [h] at hmem
    | cons q rest => rfl
  let changed := w.setContent patch.paths (failingApply p value w).applied
  have hcontent : ∀ q, q ≠ p → changed.content q = w.content q := by
    intro q hq
    by_cases hqpaths : q ∈ patch.paths
    · exact (setContent_of_mem _ hqpaths).trans (by simp [failingApply, hq])
    · exact setContent_of_not_mem _ hqpaths
  have hchanged : changed.content p = value :=
    (setContent_of_mem _ hp).trans (by simp [failingApply])
  have hstillClean : ∀ q ∈ patch.touchedPaths, changed.IsClean q := by
    intro q hq
    by_cases heq : q = p
    · have ht : changed.tracking q = .ignored := by rw [heq]; exact hignored
      simp [IsClean, statusOf, ht]
    · have hwas := hclean q hq
      unfold IsClean statusOf at hwas ⊢
      rw [hcontent q heq]
      exact hwas
  have hproven := @rollbackPaths_failingApply changed p value w _ hstillClean
  have hrestores := (restores_rollbackPaths (failingApply p value w) changed
    patch.touchedPaths).1
  have hleft := hrestores.ignored p hignored
  have houtcome : applyTestPatch patch (failingApply p value w) w =
      ((rollbackPaths (failingApply p value w) changed patch.touchedPaths).1, .ok []) := by
    have hcompensated : compensated (failingApply p value w) changed patch.touchedPaths none =
        ((rollbackPaths (failingApply p value w) changed patch.touchedPaths).1, .ok []) := by
      unfold compensated compensateFailedMutation rollbackFailedApply
      rw [hnonempty]
      generalize rollbackPaths (failingApply p value w) changed patch.touchedPaths = result at *
      obtain ⟨w', proven, raised⟩ := result
      obtain ⟨rfl, rfl⟩ := Prod.mk.inj hproven
      rfl
    have hstaged : applyStagedTestPatch patch (failingApply p value w) w
        (touchedFiles patch.text) =
          compensated (failingApply p value w) changed patch.touchedPaths none := by
      unfold applyStagedTestPatch
      rw [show (failingApply p value w).numstat = .works from rfl, Answer.result]
      simp [CommandResult.incomplete, hlisted, htouched, hbound, applyChecked, changed,
        show (failingApply p value w).check = .ok ⟨0, false, false, []⟩ from rfl,
        show (failingApply p value w).apply = .ok ⟨1, false, false, []⟩ from rfl]
    unfold applyTestPatch
    rw [htext, hstaged, hcompensated]
    rfl
  rintro (happlied | hundone)
  · obtain ⟨r, hr, hsuccess⟩ := happlied.success
    cases hr
    cases hsuccess
  · rw [houtcome] at hundone
    exact hvalue (hchanged.symm.trans (hleft.symm.trans (hundone.2 p)))

/-- Over a worktree that is clean at the touched paths, the injection of a patch is all or nothing in
every environment exactly when the patch is refused or can change no path that Git ignores. -/
theorem test_patch_all_or_nothing_iff (hclean : ∀ p ∈ patch.touchedPaths, w.IsClean p) :
    (∀ b, AllOrNothing patch b w (applyTestPatch patch b w)) ↔
      (patch.refused = true ∨ ∀ p ∈ patch.paths, w.tracking p ≠ .ignored) := by
  constructor
  · intro h
    by_contra hnot
    simp only [not_or, Bool.not_eq_true, not_forall, not_not] at hnot
    obtain ⟨hrefused, p, hp, hignored⟩ := hnot
    obtain ⟨value, hvalue⟩ : ∃ value, value ≠ w.content p := by
      cases w.content p with
      | none => exact ⟨some [], by simp⟩
      | some bytes => exact ⟨none, by simp⟩
    exact not_allOrNothing_failingApply hclean hrefused hp hignored hvalue (h _)
  · exact fun hseen b => allOrNothing_of_seen hclean hseen

/-- A patch that adds the file `t.py`. -/
def addTestPatch : PatchFile where
  text := "--- /dev/null\n+++ b/t.py\n@@ -0,0 +1 @@\n+x\n"
  numstat := lit "1\t0\tt.py" ++ [0]
  paths := lits ["t.py"]
  listed := by
    have hlisted : numstatPaths (lit "1\t0\tt.py" ++ [0]) = .ok (lits ["t.py"]) := by
      decide +kernel
    intro ps hps p hp
    rw [hlisted] at hps
    exact Except.ok.inj hps ▸ hp

/-- An empty worktree in which no path is ignored, or all are. -/
def emptyWorktree (tracking : Tracking) : Worktree := ⟨fun _ => tracking, fun _ => none⟩

theorem emptyWorktree_isClean (p : Str) : (emptyWorktree .ignored).IsClean p ∧
    (emptyWorktree .untracked).IsClean p := by
  simp [emptyWorktree, IsClean, statusOf]

/-- A failing apply of a patch that adds an ignored file leaves the file and returns `[]`. -/
theorem test_patch_all_or_nothing_fails_at_ignored_path :
    let w := emptyWorktree .ignored
    let outcome := applyTestPatch addTestPatch (failingApply "t.py" (some (lit "x")) w) w
    (∀ p ∈ addTestPatch.touchedPaths, w.IsClean p) ∧ outcome.2 = .ok [] ∧
      outcome.1.content "t.py" = some (lit "x") ∧ w.content "t.py" = none := by
  refine ⟨fun p _ => (emptyWorktree_isClean p).1, by decide +kernel, by decide +kernel, rfl⟩

/-- The same failing apply in a worktree without ignored paths. -/
theorem test_patch_all_or_nothing_without_ignored_paths :
    let w := emptyWorktree .untracked
    let b := failingApply "t.py" (some (lit "x")) w
    AllOrNothing addTestPatch b w (applyTestPatch addTestPatch b w) :=
  (test_patch_all_or_nothing_iff fun p _ => (emptyWorktree_isClean p).2).mpr
    (.inr fun _ _ => by simp [emptyWorktree]) _

end OpenCollabEval
