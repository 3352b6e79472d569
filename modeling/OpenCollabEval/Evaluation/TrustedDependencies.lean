import OpenCollabEval.Evaluation.RuntimeDependencies
import OpenCollabEval.Contract.Trusted

/-!
# Dependencies of trusted plans

Which runtime dependencies a plan may declare once it is trusted: the files and directories of one
JavaScript runner, in their current or their original shape, or none.
-/

open Python

namespace OpenCollabEval

/-- The roots that a plan may declare as files. -/
def fileRootNames : List Str :=
  lits ["package.json", "config.json", "build/cache-buster", "build/active_plugins.json"]

/-- The roots that a plan may declare as directories. -/
def directoryRootNames : List Str := lits ["node_modules", "build/public"]

/-- The kind under which a root is declared. -/
def dependencyKind (root : Str) : Str := if root ∈ fileRootNames then "file" else "directory"

/-- A declaration that a trusted plan may make: its root has the kind of that name, and a file
requires itself. -/
structure KnownSpec (spec : DependencySpec) : Prop where
  root : spec.root ∈ fileRootNames ∨ spec.root ∈ directoryRootNames
  isBool : ∃ b, spec.candidateProtected = .bool b
  kind : spec.kind = dependencyKind spec.root
  file : spec.root ∈ fileRootNames → spec.requiredPaths = [spec.root]

/-- No directory root has the name of a file. -/
theorem not_file_of_directory {root : Str} (h : root ∈ directoryRootNames) :
    root ∉ fileRootNames := by
  simp only [directoryRootNames, lits, List.map_cons, List.map_nil, List.mem_cons,
    List.not_mem_nil, or_false] at h
  rcases h with rfl | rfl <;> simp [fileRootNames, lits]

/-- A document declares a dependency, in the current shape or in the original one. -/
structure Declares (item : Obj) (spec : DependencySpec) : Prop where
  root : item.get "root" = .str spec.root
  requiredPaths : item.get "required_paths" = Json.strs spec.requiredPaths
  shape : (item.get "kind" = .str spec.kind ∧
      ∃ b, item.get "candidate_protected" = .bool b ∧ spec.candidateProtected = .bool b ∧
        item.has "candidate_protected" = true) ∨
    (item.get "kind" = .null ∧ item.has "candidate_protected" = false ∧
      spec.kind = "directory" ∧ spec.candidateProtected = .bool true)

/-- The keys of a declaration of the original shape. -/
def originalKeys : List Str := ["root", "required_paths"]

/-- The keys of a declaration. -/
def declarationKeys : List Str := ["root", "required_paths", "kind", "candidate_protected"]

/-- What a valid declaration looks like. -/
theorem validRuntimeDependency_shape {item : Json}
    (h : validRuntimeDependency item = .ok true) :
    ∃ o : Obj, item = .dict o ∧ (o.keysAre originalKeys = true ∨
      o.keysAre declarationKeys = true ∧ ∃ b, o.get "candidate_protected" = .bool b) := by
  cases item with
  | dict o =>
    refine ⟨o, rfl, ?_⟩
    by_cases hlegacy : Obj.keysAre o originalKeys = true
    · exact .inl hlegacy
    by_cases hcurrent : Obj.keysAre o declarationKeys = true
    · refine .inr ⟨hcurrent, ?_⟩
      rw [Bool.not_eq_true] at hlegacy
      simp only [originalKeys, declarationKeys] at hlegacy hcurrent
      simp only [validRuntimeDependency, hlegacy, hcurrent, Bool.not_false, Bool.not_true,
        Bool.and_false, Bool.false_eq_true, if_false] at h
      obtain ⟨root, -, h⟩ := bind_eq_ok_iff.mp h
      split at h
      · simp at h
      rcases hrequired : (Obj.get o "required_paths").asList with _ | required
      · simp [hrequired] at h
      simp only [hrequired] at h
      split at h
      · simp at h
      obtain ⟨known, -, h⟩ := bind_eq_ok_iff.mp h
      split at h
      · simp at h
      cases hprotected : Obj.get o "candidate_protected" <;> simp [hprotected] at h ⊢
    · simp only [originalKeys, declarationKeys, Bool.not_eq_true] at hlegacy hcurrent
      simp [validRuntimeDependency, hlegacy, hcurrent] at h
  | _ => simp [validRuntimeDependency] at h

/-- Every declaration of a valid list is valid. -/
theorem validRuntimeDependencyList_all {items : List Json}
    (h : validRuntimeDependencyList items = .ok true) :
    ∀ item ∈ items, validRuntimeDependency item = .ok true := by
  induction items with
  | nil => simp
  | cons item rest ih =>
    obtain ⟨valid, hvalid, h⟩ := bind_eq_ok_iff.mp h
    split at h
    next htrue =>
      rw [htrue] at hvalid
      intro other hother
      rcases List.mem_cons.mp hother with rfl | hother
      · exact hvalid
      · exact ih h other hother
    next => simp at h

/-- A document with the keys of the original shape has no others. -/
theorem not_has_of_originalKeys {o : Obj} {key : Str} (h : o.keysAre originalKeys = true)
    (hkey : key ∉ originalKeys) : o.has key = false := by
  have hnone := Obj.lookup_of_keysAre h hkey
  simp [Obj.has, hnone]

/-- A valid document that equals a declaration of the current shape makes that declaration. -/
theorem declares_of_current {item : Json} {root path kind : Str} {b : Bool}
    (hvalid : validRuntimeDependency item = .ok true)
    (h : item.pyEq (runtimeDependency root path kind b) = true) :
    ∃ o, item = .dict o ∧ Declares o ⟨root, [path], kind, .bool b⟩ := by
  obtain ⟨o, rfl, hshape⟩ := validRuntimeDependency_shape hvalid
  have hget := Obj.get_of_pyEq h
  have hhas : o.has "candidate_protected" = true := by
    rw [Obj.has_eq_of_pyEq h]
    simp [Obj.has, List.lookup_cons]
  rcases hshape with hlegacy | ⟨-, b', hb⟩
  · rw [not_has_of_originalKeys hlegacy (by simp [originalKeys])] at hhas
    simp at hhas
  have hsame := hget "candidate_protected"
  simp only [hb, Obj.get_cons, lit_inj, reduceIte, Json.pyEq_bool_bool, String.reduceEq] at hsame
  refine ⟨o, rfl, by simpa using hget "root", ?_,
    .inl ⟨by simpa using hget "kind", b', hb, by rw [hsame], hhas⟩⟩
  rw [← Json.pyEq_strs_right]
  simpa using hget "required_paths"

/-- A valid document that equals a declaration of the original shape declares a protected
directory. -/
theorem declares_of_original {item : Json} {root path : Str}
    (hvalid : validRuntimeDependency item = .ok true)
    (h : item.pyEq (.dict [("root", .str root), ("required_paths", Json.strs [path])]) = true) :
    ∃ o, item = .dict o ∧ Declares o ⟨root, [path], "directory", .bool true⟩ := by
  obtain ⟨o, rfl, -⟩ := validRuntimeDependency_shape hvalid
  have hget := Obj.get_of_pyEq h
  have hnone (key : Str) (hkey : key ∉ originalKeys) : o.has key = false := by
    rw [Obj.has_eq_of_pyEq h]
    simp only [originalKeys, List.mem_cons, List.not_mem_nil, or_false, not_or] at hkey
    simp [Obj.has, List.lookup_cons, beq_false_of_ne hkey.1, beq_false_of_ne hkey.2]
  refine ⟨o, rfl, by simpa using hget "root", ?_, .inr ⟨?_, ?_, rfl, rfl⟩⟩
  · rw [← Json.pyEq_strs_right]
    simpa using hget "required_paths"
  · exact Obj.get_of_not_has (hnone _ (by simp [originalKeys]))
  · exact hnone _ (by simp [originalKeys])

/-- A declaration as the source writes it is a known one. -/
theorem javascriptRuntimeDependencies_known {adapter : Str} {item : Json}
    (h : item ∈ javascriptRuntimeDependencies adapter) :
    ∃ root path kind b, item = runtimeDependency root path kind b ∧
      KnownSpec ⟨root, [path], kind, .bool b⟩ := by
  have hdirectory (root path : Str) (hroot : root ∈ directoryRootNames) :
      KnownSpec ⟨root, [path], "directory", .bool true⟩ := by
    have h := not_file_of_directory hroot
    exact ⟨.inr hroot, ⟨true, rfl⟩, by simp [dependencyKind, h], fun hfile => absurd hfile h⟩
  have hfile (root : Str) (b : Bool) (h : root ∈ fileRootNames) :
      KnownSpec ⟨root, [root], "file", .bool b⟩ :=
    ⟨.inl h, ⟨b, rfl⟩, by simp [dependencyKind, h], fun _ => rfl⟩
  have hmember : item = runtimeDependency "node_modules" (javascriptRunner adapter) "directory" true ∨
      item = runtimeDependency "package.json" "package.json" "file" false ∨
      item = runtimeDependency "config.json" "config.json" "file" false ∨
      item = runtimeDependency "build/public" "build/public/templates" "directory" true ∨
      item = runtimeDependency "build/cache-buster" "build/cache-buster" "file" true ∨
      item = runtimeDependency "build/active_plugins.json" "build/active_plugins.json" "file" true := by
    unfold javascriptRuntimeDependencies at h
    split at h
    · simpa only [List.cons_append, List.nil_append, List.mem_cons, List.not_mem_nil,
        or_false] using h
    · simp only [List.append_nil, List.mem_cons, List.not_mem_nil, or_false] at h
      rcases h with h | h | h
      · exact .inl h
      · exact .inr (.inl h)
      · exact .inr (.inr (.inl h))
  rcases hmember with rfl | rfl | rfl | rfl | rfl | rfl
  · exact ⟨"node_modules", javascriptRunner adapter, "directory", true, rfl,
      hdirectory _ _ (by simp [directoryRootNames, lits])⟩
  · exact ⟨"package.json", "package.json", "file", false, rfl,
      hfile _ _ (by simp [fileRootNames, lits])⟩
  · exact ⟨"config.json", "config.json", "file", false, rfl,
      hfile _ _ (by simp [fileRootNames, lits])⟩
  · exact ⟨"build/public", "build/public/templates", "directory", true, rfl,
      hdirectory _ _ (by simp [directoryRootNames, lits])⟩
  · exact ⟨"build/cache-buster", "build/cache-buster", "file", true, rfl,
      hfile _ _ (by simp [fileRootNames, lits])⟩
  · exact ⟨"build/active_plugins.json", "build/active_plugins.json", "file", true, rfl,
      hfile _ _ (by simp [fileRootNames, lits])⟩

/-- Every item of a list equals one of an equal list. -/
theorem exists_pyEq_of_pyEqList {items others : List Json}
    (h : Json.pyEqList items others = true) :
    ∀ item ∈ items, ∃ other ∈ others, item.pyEq other = true := by
  induction items generalizing others with
  | nil => simp
  | cons item rest ih =>
    cases others with
    | nil => simp [Json.pyEqList] at h
    | cons other others =>
      simp only [Json.pyEqList, Bool.and_eq_true] at h
      intro found hfound
      rcases List.mem_cons.mp hfound with rfl | hfound
      · exact ⟨other, by simp, h.1⟩
      · obtain ⟨match', hmatch, heq⟩ := ih h.2 found hfound
        exact ⟨match', by simp [hmatch], heq⟩

/-- A list of documents declares known dependencies. -/
def DeclaresKnown (items : List Json) : Prop :=
  ∀ item ∈ items, ∃ o spec, item = .dict o ∧ Declares o spec ∧ KnownSpec spec

/-- The dependencies of a trusted JavaScript plan are known. -/
theorem declaresKnown_of_shape {adapter : Str} {items : List Json}
    (hvalid : validRuntimeDependencyList items = .ok true)
    (h : [javascriptRuntimeDependencies adapter, previousJavascriptRuntimeDependencies adapter,
      legacyJavascriptRuntimeDependencies adapter].any (Json.pyEqList items) = true) :
    DeclaresKnown items := by
  intro item hitem
  have hitemValid := validRuntimeDependencyList_all hvalid item hitem
  have hcurrent : Json.pyEqList items (javascriptRuntimeDependencies adapter) = true ∨
      Json.pyEqList items (previousJavascriptRuntimeDependencies adapter) = true →
      ∃ other ∈ javascriptRuntimeDependencies adapter, item.pyEq other = true := by
    rintro (h | h)
    · exact exists_pyEq_of_pyEqList h item hitem
    · obtain ⟨other, hother, heq⟩ := exists_pyEq_of_pyEqList h item hitem
      exact ⟨other, List.mem_of_mem_take hother, heq⟩
  simp only [List.any_cons, List.any_nil, Bool.or_false, Bool.or_eq_true, ← or_assoc] at h
  rcases h with h | h
  · obtain ⟨other, hother, heq⟩ := hcurrent h
    obtain ⟨root, path, kind, b, rfl, hknown⟩ := javascriptRuntimeDependencies_known hother
    obtain ⟨o, rfl, hdeclares⟩ := declares_of_current hitemValid heq
    exact ⟨o, _, rfl, hdeclares, hknown⟩
  · obtain ⟨other, hother, heq⟩ := exists_pyEq_of_pyEqList h item hitem
    simp only [legacyJavascriptRuntimeDependencies, List.mem_singleton] at hother
    subst hother
    obtain ⟨o, rfl, hdeclares⟩ := declares_of_original hitemValid heq
    refine ⟨o, _, rfl, hdeclares, ⟨.inr ?_, ⟨true, rfl⟩, ?_, ?_⟩⟩ <;>
      simp [directoryRootNames, dependencyKind, fileRootNames, lits]

/-- A trusted JavaScript plan lists the dependencies of its runner. -/
theorem dependencies_of_validJavascriptPlan {env : Env} {adapter : Str} {parts : PlanParts}
    (h : validJavascriptPlan env adapter parts = .ok true) :
    [javascriptRuntimeDependencies adapter, previousJavascriptRuntimeDependencies adapter,
      legacyJavascriptRuntimeDependencies adapter].any
        (Json.pyEqList parts.runtimeDependencies) = true := by
  unfold validJavascriptPlan at h
  split at h
  next =>
    split at h
    · simp at h
    split at h
    next =>
      obtain ⟨paths, -, h⟩ := bind_eq_ok_iff.mp h
      obtain ⟨-, h⟩ := guard_eq_ok_true_iff.mp h
      obtain ⟨bindings, -, h⟩ := bind_eq_ok_iff.mp h
      obtain ⟨-, h⟩ := guard_eq_ok_true_iff.mp h
      obtain ⟨hdeps, -⟩ := guard_eq_ok_true_iff.mp h
      rwa [Bool.not_eq_false'] at hdeps
    next => simp at h
  next => simp at h

/-- A plan without commands is trusted only as the empty plan. -/
theorem pyEq_emptyPlan_of_trusted {env : Env} {plan : Obj} {kind : Str}
    (hcommands : stringList (plan.get "commands") = some [])
    (h : validatedTestPlanKind env (.dict plan) false = .ok (some kind)) :
    (Json.dict plan).pyEq (.dict emptyPlan) = true := by
  simp only [validatedTestPlanKind, hcommands] at h
  split at h
  · simp at h
  rcases hdeclared : stringList (plan.get "declared_targets") with _ | declared
  · simp [hdeclared] at h
  rcases hbatches : (plan.get "target_batches").asList with _ | batches
  · simp [hdeclared, hbatches] at h
  rcases hproofs : (plan.get "proofs").asList with _ | proofs
  · simp [hdeclared, hbatches, hproofs] at h
  rcases hdeps : (plan.get "runtime_dependencies").asList with _ | deps
  · simp [hdeclared, hbatches, hproofs, hdeps] at h
  by_contra hne
  simp [hdeclared, hbatches, hproofs, hdeps, hne] at h

/-- A trusted plan declares known dependencies. -/
theorem trusted_declaresKnown {env : Env} {plan : Obj} {kind : Str}
    (h : validatedTestPlanKind env (.dict plan) false = .ok (some kind)) :
    ∃ items, plan.get "runtime_dependencies" = .list items ∧ DeclaresKnown items := by
  rcases validatedTestPlanKind_false h with hnil | h
  · have hget := Obj.get_of_pyEq (pyEq_emptyPlan_of_trusted hnil h) "runtime_dependencies"
    refine ⟨[], ?_, by simp [DeclaresKnown]⟩
    have hempty := (Json.pyEq_strs_right (plan.get "runtime_dependencies") []).mp
      (by simpa [emptyPlan, Json.strs] using hget)
    simpa [Json.strs] using hempty
  · obtain ⟨parts, hparts⟩ := validatedTestPlanKind_iff.mp h
    have hitems : plan.get "runtime_dependencies" = .list parts.runtimeDependencies := by
      have hlist := hparts.dependencies
      cases hget : plan.get "runtime_dependencies" <;> simp_all [Json.asList]
    refine ⟨_, hitems, ?_⟩
    have hvalid := hparts.validDependencies
    simp only [validRuntimeDependencies] at hvalid
    split at hvalid
    · simp at hvalid
    have hadapter := hparts.valid
    by_cases hempty : parts.runtimeDependencies.isEmpty = true
    · rw [List.isEmpty_iff.mp hempty]
      simp [DeclaresKnown]
    -- only the JavaScript adapters accept a plan with dependencies
    · simp only [validAdapterPlan, hempty] at hadapter
      split at hadapter
      · cases hadapter
      split at hadapter
      · cases hadapter
      split at hadapter
      · cases hadapter
      exact declaresKnown_of_shape hvalid (dependencies_of_validJavascriptPlan hadapter)

/-- A declaration in its current shape. -/
theorem normalizeDependency_eq {env : Env} {item : Obj} {spec : DependencySpec}
    (hdeclares : Declares item spec) (hknown : KnownSpec spec) :
    normalizeDependency env item = .ok spec := by
  obtain ⟨root, requiredPaths, kind, candidateProtected⟩ := spec
  have hroot := hdeclares.root
  have hrequired := hdeclares.requiredPaths
  have hkind : kind ≠ [] := by
    have := hknown.kind
    simp only [dependencyKind] at this
    split at this <;> simp [this, lit]
  have htexts : (requiredPaths.map Json.str).map env.str = requiredPaths := by
    simp [Function.comp_def]
  simp only [normalizeDependency, hroot, hrequired, Json.strs, iterOrEmpty, ok_bind, htexts,
    Runtime.strOrEmpty_str]
  rcases hdeclares.shape with ⟨hkind', b, hb, hspec, hhas⟩ | ⟨hkind', hhas, hkindEq, hspec⟩
  · have hgetOr : Obj.getOr item "candidate_protected" (.bool true) = .bool b := by
      rw [Obj.getOr, Obj.lookup_eq_some_of_has hhas, hb]
      rfl
    simp_all [Json.truthy]
  · have hgetOr : Obj.getOr item "candidate_protected" (.bool true) = .bool true := by
      have hnone : item.lookup (lit "candidate_protected") = none := by simpa [Obj.has] using hhas
      rw [Obj.getOr, hnone]
      rfl
    simp_all [Json.truthy]

end OpenCollabEval
