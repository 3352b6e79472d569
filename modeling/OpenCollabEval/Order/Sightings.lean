import Mathlib.Data.List.Basic
import Mathlib.Data.List.Induction
import Mathlib.Tactic.Common

/-!
# Counting what is seen in part

Things are seen one after the other, each with its numbers and perhaps with its place. A thing whose
place is not seen is counted unless something with the same numbers was counted, or something of the
same size whose place was seen. A thing whose place is seen is counted unless it was counted at that
place. So a thing is counted twice exactly when it is first counted without its place and then seen
at its place.
-/

/-- Something that is seen. -/
structure Sighting (π τ ν : Type) where
  place : π
  size : τ
  other : ν
  deriving DecidableEq

namespace Sighting

variable {π τ ν : Type} (placed : π → Bool)

/-- The numbers are the same. -/
def SameNumbers (s t : Sighting π τ ν) : Prop := s.size = t.size ∧ s.other = t.other

/-- Two sightings may be of one thing: their numbers are the same, and so is the place when both
have one. -/
def SameThing (s t : Sighting π τ ν) : Prop :=
  SameNumbers s t ∧ (s.place = t.place ∨ ¬(placed s.place = true ∧ placed t.place = true))

/-- A sighting is counted after some others were. -/
def Counts (counted : List (Sighting π τ ν)) (s : Sighting π τ ν) : Prop :=
  s ∉ counted ∧ (placed s.place = true ∨
    (¬∃ t ∈ counted, SameNumbers t s) ∧ ¬∃ t ∈ counted, placed t.place = true ∧ t.size = s.size)

open Classical in
/-- One more sighting. -/
noncomputable def add (counted : List (Sighting π τ ν)) (s : Sighting π τ ν) :
    List (Sighting π τ ν) :=
  if Counts placed counted s then counted ++ [s] else counted

/-- What is counted of some sightings, in their order. -/
noncomputable def counted (seen : List (Sighting π τ ν)) : List (Sighting π τ ν) :=
  seen.foldl (add placed) []

/-- Some sighting is counted although the thing was counted before. -/
def CountsTwice (seen : List (Sighting π τ ν)) : Prop :=
  ∃ before s after, seen = before ++ s :: after ∧
    (∃ t ∈ counted placed before, SameThing placed t s) ∧ Counts placed (counted placed before) s

/-- Some thing is seen without its place, before anything of its size was seen at a place, and then
at its place. -/
def PlacedLater (seen : List (Sighting π τ ν)) : Prop :=
  ∃ before s between t after, seen = before ++ s :: (between ++ t :: after) ∧
    placed s.place = false ∧ placed t.place = true ∧ SameNumbers s t ∧
      ∀ q ∈ before, placed q.place = true → q.size ≠ s.size

variable {placed} {seen : List (Sighting π τ ν)} {s t : Sighting π τ ν}

theorem counted_concat (seen : List (Sighting π τ ν)) (s : Sighting π τ ν) :
    counted placed (seen ++ [s]) = add placed (counted placed seen) s := by
  rw [counted, List.foldl_append]
  rfl

theorem add_of_counts (h : Counts placed seen s) : add placed seen s = seen ++ [s] := if_pos h

theorem add_of_not_counts (h : ¬Counts placed seen s) : add placed seen s = seen := if_neg h

/-- Only what was seen is counted. -/
theorem mem_seen (h : s ∈ counted placed seen) : s ∈ seen := by
  induction seen using List.reverseRecOn with
  | nil => exact h
  | append_singleton seen t ih =>
    rw [counted_concat] at h
    by_cases hcounts : Counts placed (counted placed seen) t
    · rw [add_of_counts hcounts, List.mem_append] at h
      exact List.mem_append.mpr (h.imp_left ih)
    · rw [add_of_not_counts hcounts] at h
      exact List.mem_append_left _ (ih h)

/-- Everything that is seen at a place is counted there. -/
theorem mem_counted (h : s ∈ seen) (hplaced : placed s.place = true) : s ∈ counted placed seen := by
  induction seen using List.reverseRecOn with
  | nil => exact h
  | append_singleton seen t ih =>
    rw [counted_concat]
    by_cases hcounts : Counts placed (counted placed seen) t
    · rw [add_of_counts hcounts, List.mem_append]
      exact (List.mem_append.mp h).imp_left ih
    · rw [add_of_not_counts hcounts]
      rcases List.mem_append.mp h with h | h
      · exact ih h
      · rw [List.mem_singleton.mp h] at hplaced ⊢
        by_contra hnot
        exact hcounts ⟨hnot, .inl hplaced⟩

/-- What is counted was counted after some of the others. -/
theorem exists_of_mem (h : s ∈ counted placed seen) :
    ∃ before after, seen = before ++ s :: after ∧ Counts placed (counted placed before) s := by
  induction seen using List.reverseRecOn with
  | nil => cases h
  | append_singleton seen t ih =>
    have hearlier : s ∈ counted placed seen → ∃ before after,
        seen ++ [t] = before ++ s :: after ∧ Counts placed (counted placed before) s := by
      intro h
      obtain ⟨before, after, rfl, hcounts⟩ := ih h
      exact ⟨before, after ++ [t], by simp, hcounts⟩
    rw [counted_concat] at h
    by_cases hcounts : Counts placed (counted placed seen) t
    · rw [add_of_counts hcounts, List.mem_append] at h
      rcases h with h | h
      · exact hearlier h
      · rw [List.mem_singleton.mp h]
        exact ⟨seen, [], rfl, hcounts⟩
    · rw [add_of_not_counts hcounts] at h
      exact hearlier h

/-- What is counted stays counted. -/
theorem counted_mono (h : s ∈ counted placed seen) (more : List (Sighting π τ ν)) :
    s ∈ counted placed (seen ++ more) := by
  induction more using List.reverseRecOn with
  | nil => rwa [List.append_nil]
  | append_singleton more t ih =>
    rw [← List.append_assoc, counted_concat]
    by_cases hcounts : Counts placed (counted placed (seen ++ more)) t
    · rw [add_of_counts hcounts]
      exact List.mem_append_left _ ih
    · rwa [add_of_not_counts hcounts]

/-- Something without a place that is seen before anything of its size was seen at a place is
counted, or something else without a place was with the same numbers. -/
theorem exists_unplaced {before : List (Sighting π τ ν)} (hs : placed s.place = false)
    (hbefore : ∀ q ∈ before, placed q.place = true → q.size ≠ s.size) :
    ∃ t ∈ counted placed (before ++ [s]), placed t.place = false ∧ SameNumbers t s := by
  by_cases hcounts : Counts placed (counted placed before) s
  · refine ⟨s, ?_, hs, rfl, rfl⟩
    rw [counted_concat, add_of_counts hcounts]
    simp
  · have hsame : ∃ t ∈ counted placed before, SameNumbers t s := by
      by_contra hnone
      refine hcounts ⟨fun hmem => hnone ⟨s, hmem, rfl, rfl⟩, .inr ⟨hnone, ?_⟩⟩
      rintro ⟨q, hq, hplaced, hsize⟩
      exact hbefore q (mem_seen hq) hplaced hsize
    obtain ⟨t, ht, hnumbers⟩ := hsame
    refine ⟨t, counted_mono ht [s], ?_, hnumbers⟩
    rw [Bool.eq_false_iff]
    intro hplaced
    exact hbefore t (mem_seen ht) hplaced hnumbers.1

/-- A thing is counted twice exactly when it is seen without its place, before anything of its size
was seen at a place, and then at its place. -/
theorem countsTwice_iff (seen : List (Sighting π τ ν)) :
    CountsTwice placed seen ↔ PlacedLater placed seen := by
  constructor
  · rintro ⟨before, t, after, rfl, ⟨s, hs, hnumbers, hplace⟩, hnew, hcounts⟩
    have ht : placed t.place = true :=
      hcounts.resolve_right fun h => h.1 ⟨s, hs, hnumbers⟩
    have hunplaced : placed s.place = false := by
      rw [Bool.eq_false_iff]
      intro hplaced
      rcases hplace with hsame | hnot
      · -- at the same place it is the same sighting
        have heq : s = t := by
          cases s
          cases t
          exact (Sighting.mk.injEq ..).mpr ⟨hsame, hnumbers⟩
        exact hnew (heq ▸ hs)
      · exact hnot ⟨hplaced, ht⟩
    obtain ⟨first, between, rfl, hfirst⟩ := exists_of_mem hs
    refine ⟨first, s, between, t, after, by simp, hunplaced, ht, hnumbers, ?_⟩
    intro q hq hplaced hsize
    rcases hfirst.2 with hplaced' | ⟨-, hnone⟩
    · rw [hunplaced] at hplaced'
      cases hplaced'
    · exact hnone ⟨q, mem_counted hq hplaced, hplaced, hsize⟩
  · rintro ⟨before, s, between, t, after, rfl, hs, ht, hnumbers, hbefore⟩
    -- the first time that the thing is seen at its place
    obtain ⟨between, rest, hsplit, hfirst⟩ :=
      List.eq_append_cons_of_mem (show t ∈ between ++ t :: after by simp)
    rw [hsplit]
    obtain ⟨u, hu, hunplaced, hsame⟩ := exists_unplaced hs hbefore
    refine ⟨before ++ s :: between, t, rest, by simp, ⟨u, ?_, ⟨hsame.1.trans hnumbers.1,
      hsame.2.trans hnumbers.2⟩, .inr fun h => ?_⟩, fun hmem => ?_, .inl ht⟩
    · have hmore := counted_mono hu between
      rwa [List.append_assoc] at hmore
    · rw [hunplaced] at h
      exact absurd h.1 Bool.false_ne_true
    · rcases List.mem_append.mp (mem_seen hmem) with h | h
      · exact hbefore t h ht hnumbers.1.symm
      · rcases List.mem_cons.mp h with rfl | h
        · rw [hs] at ht
          cases ht
        · exact hfirst h

end Sighting
