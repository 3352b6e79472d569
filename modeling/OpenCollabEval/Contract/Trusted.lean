import OpenCollabEval.Contract.Plan

/-!
# Trusted plans

What the structural contract guarantees of a plan it accepts. `validatedTestPlanKind_iff` spells the
contract out as a list of facts, from which the properties of plans are read.
-/

open Python

namespace OpenCollabEval

/-- What a trusted plan with commands consists of. -/
structure TrustedPlan (env : Env) (plan : Obj) (adapter : Str) (parts : PlanParts) : Prop where
  keys : plan.keysAre planKeys = true
  schema : (plan.get "schema").eqStr planSchema = true
  commands : stringList (plan.get "commands") = some parts.commands
  declared : stringList (plan.get "declared_targets") = some parts.declaredTargets
  batches : (plan.get "target_batches").asList.bind targetBatchList = some parts.targetBatches
  proofs : (plan.get "proofs").asList.bind proofList = some parts.proofs
  dependencies : (plan.get "runtime_dependencies").asList = some parts.runtimeDependencies
  coverage : plan.get "coverage" = parts.coverage
  someCommand : parts.commands ≠ []
  coverageVerified : (plan.get "coverage_verified").isTrue = true
  someTarget : parts.declaredTargets ≠ []
  distinctTargets : parts.declaredTargets.Nodup
  oneBatchEach : parts.commands.length = parts.targetBatches.length
  oneProofEach : parts.commands.length = parts.proofs.length
  batchesCover : parts.targetBatches.flatten = parts.declaredTargets
  adapterName : plan.get "adapter" = .str adapter
  adapterCovers : ∃ coverage, adapterCoverage.lookup adapter = some coverage ∧
    (adapter ≠ lit "pytest" → parts.coverage.eqStr coverage = true)
  validDependencies : validRuntimeDependencies parts.runtimeDependencies = .ok true
  runnable : ∀ command ∈ parts.commands, isRunnableTestCommand command = true
  valid : validAdapterPlan env adapter parts = .ok true

/-- The shape that the parts of a plan have. -/
theorem planParts_eq_some_iff {plan : Obj} {commands declared : List Str}
    {batches proofs deps : List Json} {parts : PlanParts} :
    planParts plan commands declared batches proofs deps = some parts ↔
      parts.coverage = plan.get "coverage" ∧ parts.commands = commands ∧
        parts.declaredTargets = declared ∧ parts.runtimeDependencies = deps ∧
        targetBatchList batches = some parts.targetBatches ∧
        proofList proofs = some parts.proofs ∧
        (plan.get "coverage_verified").isTrue = true ∧ declared ≠ [] ∧ declared.Nodup ∧
        commands.length = parts.targetBatches.length ∧ commands.length = parts.proofs.length ∧
        parts.targetBatches.flatten = declared := by
  rcases hbatches : targetBatchList batches with _ | targetBatches
  · simp [planParts, hbatches]
  rcases hproofs : proofList proofs with _ | targetProofs
  · simp [planParts, hbatches, hproofs]
  simp only [planParts, hbatches, hproofs, Option.bind_eq_bind, Option.bind_some]
  constructor
  · intro h
    split at h
    · simp at h
    next hshape =>
    cases h
    simpa [and_assoc] using hshape
  · rintro ⟨hcoverage, rfl, rfl, rfl, hb, hp, hverified, hsome, hnodup, hlength, hlength', hflat⟩
    cases hb
    cases hp
    simp [← hcoverage, hverified, hsome, hnodup, hlength, hflat]
    grind

/-- A plan with commands is trusted exactly when it is a trusted plan of its adapter. -/
theorem validatedTestPlanKind_iff {env : Env} {plan : Obj} {kind : Str} :
    validatedTestPlanKind env (.dict plan) true = .ok (some kind) ↔
      ∃ parts, TrustedPlan env plan kind parts := by
  simp only [validatedTestPlanKind]
  constructor
  · intro h
    split at h
    · simp at h
    next hkeys =>
    rcases hcommands : stringList (plan.get "commands") with _ | commands
    · simp [hcommands] at h
    rcases hdeclared : stringList (plan.get "declared_targets") with _ | declared
    · simp [hcommands, hdeclared] at h
    rcases hbatches : (plan.get "target_batches").asList with _ | batches
    · simp [hcommands, hdeclared, hbatches] at h
    rcases hproofs : (plan.get "proofs").asList with _ | proofs
    · simp [hcommands, hdeclared, hbatches, hproofs] at h
    rcases hdeps : (plan.get "runtime_dependencies").asList with _ | deps
    · simp [hcommands, hdeclared, hbatches, hproofs, hdeps] at h
    simp only [hcommands, hdeclared, hbatches, hproofs, hdeps] at h
    split at h
    · simp at h
    next hempty =>
    obtain ⟨known, hknown, h⟩ := bind_eq_ok_iff.mp h
    split at h
    · simp at h
    rcases hadapter : (plan.get "adapter").asStr with _ | adapter
    · simp [hadapter] at h
    rcases hcoverage : adapterCoverage.lookup adapter with _ | coverage
    · simp [hadapter, hcoverage] at h
    simp only [hadapter, hcoverage] at h
    split at h
    · simp at h
    next hagrees =>
    rcases hparts : planParts plan commands declared batches proofs deps with _ | parts
    · simp [hparts] at h
    simp only [hparts] at h
    obtain ⟨depsOk, hdepsOk, h⟩ := bind_eq_ok_iff.mp h
    split at h
    · simp at h
    next hrunnable =>
    obtain ⟨valid, hvalid, h⟩ := bind_eq_ok_iff.mp h
    split at h
    next hvalidTrue =>
      cases h
      obtain ⟨hc, rfl, rfl, rfl, hb, hp, hverified, hsome, hnodup, hlength, hlength', hflat⟩ :=
        planParts_eq_some_iff.mp hparts
      have hname : plan.get "adapter" = .str kind := by
        revert hadapter; cases plan.get "adapter" <;> simp [Json.asStr]
      simp only [Bool.or_eq_true, Bool.not_eq_true', not_or, Bool.not_eq_false] at hkeys hrunnable
      refine ⟨parts, hkeys.1, hkeys.2, hcommands, hdeclared, ?_, ?_, hdeps, hc.symm,
        by simpa using hempty, hverified, hsome, hnodup, hlength, hlength', hflat, hname,
        ⟨coverage, hcoverage, ?_⟩, ?_, ?_, ?_⟩
      · simp [hbatches, hb]
      · simp [hproofs, hp]
      · intro hne
        simpa [hne, hc] using hagrees
      · simpa [hrunnable.1] using hdepsOk
      · simpa using hrunnable.2
      · rw [hvalid, hvalidTrue]
    · simp at h
  · rintro ⟨parts, h⟩
    obtain ⟨batches, hbatches, hb⟩ := Option.bind_eq_some_iff.mp h.batches
    obtain ⟨proofs, hproofs, hp⟩ := Option.bind_eq_some_iff.mp h.proofs
    obtain ⟨coverage, hcoverage, hagrees⟩ := h.adapterCovers
    have hparts : planParts plan parts.commands parts.declaredTargets batches proofs
        parts.runtimeDependencies = some parts :=
      planParts_eq_some_iff.mpr ⟨h.coverage.symm, rfl, rfl, rfl, hb, hp, h.coverageVerified,
        h.someTarget, h.distinctTargets, h.oneBatchEach, h.oneProofEach, h.batchesCover⟩
    have hknown : kind ∈ adapterCoverage.map (·.1) := by
      obtain ⟨before, after, hlist, -⟩ := List.lookup_eq_some_iff.mp hcoverage
      simp [hlist]
    have hagrees' : (kind != lit "pytest" && !(plan.get "coverage").eqStr coverage) = false := by
      by_cases hk : kind = lit "pytest"
      · simp [hk]
      · simp [h.coverage, hagrees hk]
    have hrunnable : ¬∃ command ∈ parts.commands, isRunnableTestCommand command = false := by
      rintro ⟨command, hcommand, hnot⟩
      simp [h.runnable command hcommand] at hnot
    simp [h.keys, h.schema, h.commands, h.declared, hbatches, hproofs, h.dependencies,
      h.someCommand, hknown, h.adapterName, Json.asStr, hcoverage, hagrees', hparts,
      h.validDependencies, h.valid, hrunnable, -List.mem_map]

/-- Without the demand for commands, a trusted plan may also have none. -/
theorem validatedTestPlanKind_false {env : Env} {plan : Obj} {kind : Str}
    (h : validatedTestPlanKind env (.dict plan) false = .ok (some kind)) :
    stringList (plan.get "commands") = some [] ∨
      validatedTestPlanKind env (.dict plan) true = .ok (some kind) := by
  rcases hcommands : stringList (plan.get "commands") with _ | commands
  · simp [validatedTestPlanKind, hcommands] at h
  · cases commands with
    | nil => exact .inl rfl
    | cons command commands => exact .inr (by simpa [validatedTestPlanKind, hcommands] using h)

end OpenCollabEval
