import OpenCollabEval.Concurrency.RelyGuarantee
import OpenCollabEval.Ownership.Staging

/-!
# What processes may rely on

The invariant of the shared state, what a process may rely on between two of its operations, and what
it guarantees to the others. The owner of a container is the only one to launch it, and while the owner
runs, the only one to take its record away; the container of an owner that has ended is frozen, but
for removal.
-/

open Python Concurrency

namespace OpenCollabEval

/-- The candidate of an attempt is not in its container alone: there is none, or it is staged, or it is
known to be empty. -/
def Attempt.Saved (attempt : Attempt) (staged : Bool) : Prop :=
  attempt.work = .none ∨ staged = true ∨ attempt.work = .extracted true

/-- A candidate that was extracted, by an owner whose last word was that it is active. -/
def Attempt.Unprotected (attempt : Attempt) : Prop :=
  attempt.declared = .active ∧ attempt.work = .extracted false

/-- A later state of the same attempt. -/
structure Attempt.Extends (attempt later : Attempt) : Prop where
  name : later.name = attempt.name
  token : later.token = attempt.token
  owner : later.owner = attempt.owner
  launched : attempt.launched = true → later.launched = true

/-- A record is one of an attempt. -/
structure Recorded (s : OwnershipState) (attempt : Attempt) (record : OwnerRecord) : Prop where
  token : record.ownerToken = attempt.token
  name : record.containerName = attempt.name
  pid : record.ownerPid = attempt.owner.pid
  identity : record.ownerStartIdentity = [] ∨
    record.ownerStartIdentity = attempt.owner.startIdentity
  id : record.containerId ≠ [] → s.born record.containerId = some attempt.token
  started : record.state ≠ .pending → record.containerId ≠ []

/-- The state of a record is what its owner last wrote, but for a candidate that was staged and for
an owner that has ended. -/
structure Declared (s : OwnershipState) (attempt : Attempt) (state : OwnerState) : Prop where
  owner : state = .pending ∨ state = .active ∨ state = .kept → attempt.declared = state
  staged : state = .candidateStaged → s.staged attempt.token = true
  preserved : state = .preservationRequired →
    s.staged attempt.token = true ∨ s.process attempt.owner = .ended

/-- No container of an attempt is left. -/
def Attempt.Gone (attempt : Attempt) (s : OwnershipState) : Prop :=
  ∀ container ∈ s.containers, container.label ≠ attempt.token

/-- What is known of a removal: nobody removes the container of a process that runs but this process,
and in a calm world no candidate is removed before it is extracted and, unless it is empty, staged or
given up by its owner. -/
structure Removal.Holds (calm : Prop) (removal : Removal) : Prop where
  ended : removal.remover ≠ removal.attempt.owner → removal.ended = true
  saved : calm → removal.attempt.Saved removal.staged ∨
    removal.ended = true ∧ removal.attempt.Unprotected

/-- The invariant. -/
structure OwnershipHolds (calm : Prop) (ownerPath : Str → Str) (s : OwnershipState) : Prop where
  path : ∀ path attempt, s.attempts path = some attempt → path = ownerPath attempt.name
  begun : ∀ path attempt, s.attempts path = some attempt → s.process attempt.owner ≠ .notBegun
  isToken : ∀ path attempt, s.attempts path = some attempt → IsOwnerToken attempt.token
  token : ∀ path path' attempt attempt', s.attempts path = some attempt →
    s.attempts path' = some attempt' → attempt.token = attempt'.token → path = path'
  unborn : ∀ path attempt, s.attempts path = some attempt → s.born attempt.name = none
  born : ∀ container ∈ s.containers, s.born container.id = some container.label
  unique : ∀ container ∈ s.containers, ∀ other ∈ s.containers,
    container.id = other.id ∨ container.name = other.name → container = other
  /-- A container of an attempt has its name, and there is a record of it. -/
  held : ∀ container ∈ s.containers, ∀ path attempt, s.attempts path = some attempt →
    container.label = attempt.token →
      container.name = attempt.name ∧ (s.files path).isSome = true
  launched : ∀ path attempt id, s.attempts path = some attempt → s.born id = some attempt.token →
    attempt.launched = true
  one : ∀ path attempt id id', s.attempts path = some attempt → s.born id = some attempt.token →
    s.born id' = some attempt.token → id = id'
  files : ∀ path file, s.files path = some file → ∃ attempt, s.attempts path = some attempt ∧
    Recorded s attempt file.2 ∧ Declared s attempt file.2.state
  work : ∀ path attempt, s.attempts path = some attempt →
    (attempt.work ≠ .none → attempt.declared ≠ .pending) ∧
      (attempt.work = .running → attempt.declared ≠ .active)
  removals : ∀ removal ∈ s.removals, removal.Holds calm

/-- What a process may rely on. -/
structure OwnershipRely (calm : Prop) (p : ProcessId) (s s' : OwnershipState) : Prop where
  watched : s'.watched p = s.watched p
  ended : ∀ q, s.process q = .ended → s'.process q = .ended
  begun : ∀ q, s.process q ≠ .notBegun → s'.process q ≠ .notBegun
  staged : ∀ token, s.staged token = true → s'.staged token = true
  born : ∀ id token, s.born id = some token → s'.born id = some token
  /-- In a calm world an owner that is about to be looked for does not end. -/
  looks : calm → s.process p = .running → s'.process p = .running → ∀ path attempt,
    s.watched p = some path → s.attempts path = some attempt →
      s.process attempt.owner = .running → s'.process attempt.owner = .running
  attempts : ∀ path attempt, s.attempts path = some attempt →
    ∃ later, s'.attempts path = some later ∧ attempt.Extends later ∧
      (attempt.owner = p ∨ s.process attempt.owner = .ended → later = attempt) ∧
      (attempt.owner = p ∨ s.process attempt.owner = .ended ∨ attempt.launched = true →
        ∀ container ∈ s'.containers, container.label = attempt.token →
          container ∈ s.containers) ∧
      (attempt.owner = p → s.process p = .running → s'.process p = .running →
        (s.files path).isSome = true → (s'.files path).isSome = true)

/-- What a process guarantees. -/
structure OwnershipGuarantee (p : ProcessId) (s s' : OwnershipState) : Prop where
  running : s.process p = .running
  process : s'.process = s.process
  watched : ∀ q, q ≠ p → s'.watched q = s.watched q
  staged : ∀ token, s.staged token = true → s'.staged token = true
  born : ∀ id token, s.born id = some token → s'.born id = some token
  attempts : ∀ path attempt, s.attempts path = some attempt →
    ∃ later, s'.attempts path = some later ∧ attempt.Extends later ∧
      (attempt.owner ≠ p → later = attempt) ∧
      (attempt.owner ≠ p ∨ attempt.launched = true →
        ∀ container ∈ s'.containers, container.label = attempt.token →
          container ∈ s.containers) ∧
      (attempt.owner ≠ p → s.process attempt.owner ≠ .ended → (s.files path).isSome = true →
        (s'.files path).isSome = true)

/-- The terms on which processes share owner records and containers. -/
def ownershipTerms (calm : Prop) (ownerPath : Str → Str) :
    Terms OwnershipState ProcessId OwnerOp OwnerOp.Answer where
  effect p s op answer s' := op.Effect ownerPath p s answer s'
  invariant := OwnershipHolds calm ownerPath
  active p s := s.process p = .running
  rely := OwnershipRely calm
  guarantee := OwnershipGuarantee

theorem Attempt.Extends.refl (attempt : Attempt) : attempt.Extends attempt := ⟨rfl, rfl, rfl, id⟩

theorem Attempt.Extends.trans {attempt later latest : Attempt} (h : attempt.Extends later)
    (h' : later.Extends latest) : attempt.Extends latest :=
  ⟨h'.name.trans h.name, h'.token.trans h.token, h'.owner.trans h.owner,
    fun hlaunched => h'.launched (h.launched hlaunched)⟩

section Relations

variable {calm : Prop} {ownerPath : Str → Str} {p : ProcessId} {s s' s'' : OwnershipState}

theorem OwnershipRely.refl (p : ProcessId) (s : OwnershipState) : OwnershipRely calm p s s where
  watched := rfl
  ended _ h := h
  begun _ h := h
  staged _ h := h
  born _ _ h := h
  looks _ _ _ _ _ _ _ h := h
  attempts path attempt h :=
    ⟨attempt, h, .refl attempt, fun _ => rfl, fun _ _ hc _ => hc, fun _ _ _ hfile => hfile⟩

/-- A process that runs and has not ended since still runs. -/
theorem OwnershipRely.running_between (h : OwnershipRely calm p s s')
    (h' : OwnershipRely calm p s' s'') (hs : s.process p = .running)
    (hs'' : s''.process p = .running) : s'.process p = .running := by
  have hbegun := h.begun p (by simp [hs])
  cases hstatus : s'.process p with
  | running => rfl
  | notBegun => exact absurd hstatus hbegun
  | ended =>
    have hended := h'.ended p hstatus
    rw [hs''] at hended
    cases hended

theorem OwnershipRely.trans (h : OwnershipRely calm p s s') (h' : OwnershipRely calm p s' s'') :
    OwnershipRely calm p s s'' where
  watched := h'.watched.trans h.watched
  ended q hq := h'.ended q (h.ended q hq)
  begun q hq := h'.begun q (h.begun q hq)
  staged token htoken := h'.staged token (h.staged token htoken)
  born id token hid := h'.born id token (h.born id token hid)
  looks hcalm hs hs'' path attempt hwatched hattempt howner := by
    have hs' := h.running_between h' hs hs''
    obtain ⟨later, hlater, hextends, -⟩ := h.attempts path attempt hattempt
    have hbetween := h.looks hcalm hs hs' path attempt hwatched hattempt howner
    have hend := h'.looks hcalm hs' hs'' path later (h.watched.trans hwatched) hlater
    rw [hextends.owner] at hend
    exact hend hbetween
  attempts path attempt hattempt := by
    obtain ⟨later, hlater, hextends, hsame, hold, hfile⟩ := h.attempts path attempt hattempt
    obtain ⟨latest, hlatest, hextends', hsame', hold', hfile'⟩ := h'.attempts path later hlater
    rw [hextends.owner] at hsame' hold' hfile'
    rw [hextends.token] at hold'
    refine ⟨latest, hlatest, hextends.trans hextends', fun hcase => ?_, fun hcase => ?_,
      fun howner hs hs'' hsome => ?_⟩
    · have hcase' := hcase.imp_right (h.ended _)
      exact (hsame' hcase').trans (hsame hcase)
    · have hcase' : attempt.owner = p ∨ s'.process attempt.owner = .ended ∨
          later.launched = true := hcase.imp_right fun hc => hc.imp (h.ended _) hextends.launched
      exact fun container hc hlabel => hold hcase container (hold' hcase' container hc hlabel) hlabel
    · have hs' := h.running_between h' hs hs''
      exact hfile' howner hs' hs'' (hfile howner hs hs' hsome)

/-- What one process guarantees, the others may rely on. -/
theorem OwnershipGuarantee.rely {q : ProcessId} (h : OwnershipGuarantee p s s') (hne : p ≠ q) :
    OwnershipRely calm q s s' where
  watched := h.watched q (Ne.symm hne)
  ended r hr := by rwa [h.process]
  begun r hr := by rwa [h.process]
  staged := h.staged
  born := h.born
  looks _ _ _ _ _ _ _ hr := by rwa [h.process]
  attempts path attempt hattempt := by
    obtain ⟨later, hlater, hextends, hsame, hold, hfile⟩ := h.attempts path attempt hattempt
    -- an owner that has ended is not the process that does something
    have hended : s.process attempt.owner = .ended → attempt.owner ≠ p := by
      rintro hended rfl
      rw [h.running] at hended
      cases hended
    have hother : attempt.owner = q → attempt.owner ≠ p := by
      rintro rfl
      exact Ne.symm hne
    refine ⟨later, hlater, hextends, fun hcase => hsame (hcase.elim hother hended), fun hcase => ?_,
      fun howner hrunning _ hsome => hfile (hother howner) ?_ hsome⟩
    · exact hold (or_assoc.mpr hcase |>.imp_left fun hc => hc.elim hother hended)
    · rw [howner, hrunning]
      simp

end Relations

end OpenCollabEval
