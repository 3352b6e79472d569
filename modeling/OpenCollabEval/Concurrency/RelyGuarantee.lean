import OpenCollabEval.Concurrency.Program
import Mathlib.Logic.Relation

/-!
# Rely and guarantee

A program is proved correct by itself, against whatever the others may do between two of its
operations: that is its rely. What its own operations do is its guarantee. When the guarantee of each
program is within the rely of every other one, the invariant holds in every state of every pool.

An assertion about the shared state may be used after an operation only when it is stable, that is,
when the others cannot make it false.
-/

namespace Concurrency

variable {σ ι Op : Type} {Answer : Op → Type} {α β ε : Type}

/-- The terms on which programs share a state. -/
structure Terms (σ ι Op : Type) (Answer : Op → Type) where
  effect : ι → σ → (op : Op) → Answer op → σ → Prop
  invariant : σ → Prop
  /-- Whether a program goes on at all. -/
  active : ι → σ → Prop
  rely : ι → σ → σ → Prop
  guarantee : ι → σ → σ → Prop

namespace Terms

variable (terms : Terms σ ι Op Answer) (i : ι)

/-- Every operation of a program keeps the terms, and the program returns only what is promised. -/
def Safe (post : α → σ → Prop) : Program Op Answer α → σ → Prop
  | .done value, s => post value s
  | .call op next, s => ∀ s', terms.rely i s s' → terms.invariant s' → terms.active i s' →
      ∀ answer s'', terms.effect i s' op answer s'' →
        terms.invariant s'' ∧ terms.active i s'' ∧ terms.guarantee i s' s'' ∧
          Safe post (next answer) s''

/-- From every state of an assertion the program is safe. -/
def Triple (pre : σ → Prop) (p : Program Op Answer α) (post : α → σ → Prop) : Prop :=
  ∀ s, terms.invariant s → terms.active i s → pre s → terms.Safe i post p s

/-- The others cannot make an assertion false. -/
def Stable (assertion : σ → Prop) : Prop :=
  ∀ s s', terms.invariant s → terms.invariant s' → terms.active i s' → terms.rely i s s' →
    assertion s → assertion s'

variable {terms} {i}

theorem Stable.and {p q : σ → Prop} (hp : terms.Stable i p) (hq : terms.Stable i q) :
    terms.Stable i fun s => p s ∧ q s :=
  fun s s' hs hs' hactive hrely h =>
    ⟨hp s s' hs hs' hactive hrely h.1, hq s s' hs hs' hactive hrely h.2⟩

theorem Stable.const (p : Prop) : terms.Stable i fun _ => p := fun _ _ _ _ _ _ h => h

theorem Stable.imp {p : Prop} {q : σ → Prop} (hq : terms.Stable i q) :
    terms.Stable i fun s => p → q s :=
  fun s s' hs hs' hactive hrely h hp => hq s s' hs hs' hactive hrely (h hp)

section Sequence

variable {pre : σ → Prop} {p : Program Op Answer α} {mid : α → σ → Prop}
  {f : α → Program Op Answer β} {post : β → σ → Prop}

theorem Safe.bind {s : σ} (h : terms.Safe i mid p s) (hs : terms.invariant s)
    (hactive : terms.active i s)
    (hf : ∀ value, terms.Triple i (mid value) (f value) post) : terms.Safe i post (p >>= f) s := by
  induction p generalizing s with
  | done value => exact hf value s hs hactive h
  | call op next ih =>
    intro s' hrely hs' hactive' answer s'' heffect
    obtain ⟨hinvariant, hgoes, hguarantee, hnext⟩ := h s' hrely hs' hactive' answer s'' heffect
    exact ⟨hinvariant, hgoes, hguarantee, ih answer hnext hinvariant hgoes⟩

/-- One program after another. -/
theorem Triple.bind (h : terms.Triple i pre p mid)
    (hf : ∀ value, terms.Triple i (mid value) (f value) post) :
    terms.Triple i pre (p >>= f) post :=
  fun s hs hactive hpre => (h s hs hactive hpre).bind hs hactive hf

end Sequence

theorem Triple.done {pre : σ → Prop} {value : α} {post : α → σ → Prop}
    (h : ∀ s, terms.invariant s → pre s → post value s) :
    terms.Triple i pre (.done value) post :=
  fun s hs _ hpre => h s hs hpre

/-- A weaker promise about what is returned. -/
theorem Triple.mono {pre : σ → Prop} {p : Program Op Answer α} {post post' : α → σ → Prop}
    (h : terms.Triple i pre p post) (hpost : ∀ value s, terms.invariant s → post value s →
      post' value s) : terms.Triple i pre p post' := by
  have hbind : terms.Triple i pre (p >>= .done) post' :=
    h.bind fun value => .done (hpost value)
  have hself : ∀ q : Program Op Answer α, (q >>= .done) = q := by
    intro q
    induction q with
    | done value => rfl
    | call op next ih => exact congrArg (Program.call op) (funext ih)
  rwa [hself] at hbind

/-- A stronger assertion to begin with. -/
theorem Triple.weaken {pre pre' : σ → Prop} {p : Program Op Answer α} {post : α → σ → Prop}
    (h : terms.Triple i pre p post) (hpre : ∀ s, terms.invariant s → pre' s → pre s) :
    terms.Triple i pre' p post :=
  fun s hs hactive h' => h s hs hactive (hpre s hs h')

theorem Triple.of_exists {γ : Sort*} {pre : γ → σ → Prop} {p : Program Op Answer α}
    {post : α → σ → Prop} (h : ∀ c, terms.Triple i (pre c) p post) :
    terms.Triple i (fun s => ∃ c, pre c s) p post :=
  fun s hs hactive ⟨c, hc⟩ => h c s hs hactive hc

/-- A fact that does not depend on the state is as good as a hypothesis. -/
theorem Triple.of_fact {fact : Prop} {pre : σ → Prop} {p : Program Op Answer α}
    {post : α → σ → Prop} (h : fact → terms.Triple i pre p post) :
    terms.Triple i (fun s => fact ∧ pre s) p post :=
  fun s hs hactive ⟨hfact, hpre⟩ => h hfact s hs hactive hpre

/-- One operation, from a stable assertion. -/
theorem Triple.perform {pre : σ → Prop} {op : Op} {post : Answer op → σ → Prop}
    (hstable : terms.Stable i pre)
    (h : ∀ s answer s', terms.invariant s → terms.active i s → pre s →
      terms.effect i s op answer s' →
        terms.invariant s' ∧ terms.active i s' ∧ terms.guarantee i s s' ∧ post answer s') :
    terms.Triple i pre (.perform op) post :=
  fun s hs _ hpre s' hrely hs' hactive' answer s'' heffect =>
    h s' answer s'' hs' hactive' (hstable s s' hs hs' hactive' hrely hpre) heffect

end Terms

section Pools

variable [DecidableEq ι]

/-- The terms fit each other and the rules of a pool. -/
structure TermsFit (terms : Terms σ ι Op Answer) (rules : Rules σ ι Op Answer) : Prop where
  rely_refl : ∀ i s, terms.rely i s s
  rely_trans : ∀ i s s' s'', terms.rely i s s' → terms.rely i s' s'' → terms.rely i s s''
  effect : ∀ i s op answer s', rules.effect i s op answer s' →
    terms.active i s ∧ terms.effect i s op answer s'
  entry : ∀ i s p, rules.entry i s p →
    terms.active i s ∧ terms.Triple i (fun _ => True) p fun _ _ => True
  compatible : ∀ i j s s', i ≠ j → terms.guarantee i s s' → terms.rely j s s'
  environment : ∀ s s', rules.environment s s' → terms.invariant s →
    terms.invariant s' ∧ ∀ i, terms.rely i s s'

/-- The invariant holds, and what is left of every program is safe. -/
structure PoolHolds (terms : Terms σ ι Op Answer) (c : Pool σ ι Op Answer) : Prop where
  invariant : terms.invariant c.shared
  safe : ∀ i, terms.Safe i (fun _ _ => True) (c.programs i) c.shared

variable {terms : Terms σ ι Op Answer} {rules : Rules σ ι Op Answer}
  {c c' : Pool σ ι Op Answer}

/-- What is left of a program stays safe whatever the others do. -/
theorem TermsFit.safe_of_rely (h : TermsFit terms rules) {i : ι} {p : Program Op Answer Unit} {s s' : σ}
    (hp : terms.Safe i (fun _ _ => True) p s) (hrely : terms.rely i s s') :
    terms.Safe i (fun _ _ => True) p s' := by
  cases p with
  | done value => trivial
  | call op next =>
    intro s'' hrely' hs hactive answer s''' heffect
    exact hp s'' (h.rely_trans i s s' s'' hrely hrely') hs hactive answer s''' heffect

/-- Every step of a pool keeps the invariant, and every program safe. -/
theorem PoolHolds.step (hfits : TermsFit terms rules) (h : PoolHolds terms c)
    (hstep : PoolStep rules c c') : PoolHolds terms c' := by
  cases hstep with
  | @start i p hidle hentry =>
    refine ⟨h.invariant, fun j => ?_⟩
    by_cases hj : j = i
    · subst hj
      obtain ⟨hactive, htriple⟩ := hfits.entry _ _ _ hentry
      simpa using htriple c.shared h.invariant hactive trivial
    · simpa [hj] using h.safe j
  | @operate i op next answer s hcall heffect =>
    have hsafe := h.safe i
    rw [hcall] at hsafe
    obtain ⟨hactive, heffect⟩ := hfits.effect _ _ _ _ _ heffect
    obtain ⟨hinvariant, -, hguarantee, hnext⟩ :=
      hsafe c.shared (hfits.rely_refl i _) h.invariant hactive answer s heffect
    refine ⟨hinvariant, fun j => ?_⟩
    by_cases hj : j = i
    · subst hj
      simpa using hnext
    · have hrely := hfits.compatible i j _ _ (Ne.symm hj) hguarantee
      simpa [hj] using hfits.safe_of_rely (h.safe j) hrely
  | environment henvironment =>
    obtain ⟨hinvariant, hrely⟩ := hfits.environment _ _ henvironment h.invariant
    exact ⟨hinvariant, fun j => hfits.safe_of_rely (h.safe j) (hrely j)⟩

/-- The invariant holds in every pool that is reached. -/
theorem PoolHolds.of_reflTransGen (hfits : TermsFit terms rules) (h : PoolHolds terms c)
    (hsteps : Relation.ReflTransGen (PoolStep rules) c c') : PoolHolds terms c' := by
  induction hsteps with
  | refl => exact h
  | tail _ hstep ih => exact ih.step hfits hstep

end Pools

end Concurrency
