import OpenCollabEval.Evaluation.DependencyReaders

/-!
# The runtime dependency store

The container puts the declared dependencies of a repository away (`stash`), builds a clean tree, and
puts them back (`restore`). The report of `restore` is what the evaluator reads.

The repository is seen through a `RepositoryView`. Moving a root changes what is seen of the next
one, so every root is looked at through a view of its own; the results hold for all of them.
-/

open Python

namespace OpenCollabEval

/-- What is seen of a directory tree: of each path below it, whether it exists, may be executed, is a
link, a directory or a file, is ignored by git, stays below another path, and its content. -/
structure RepositoryView where
  pathExists : Str → Bool
  executable : Str → Bool
  isSymlink : Str → Bool
  isDir : Str → Bool
  isFile : Str → Bool
  ignored : Str → Bool
  resolvesWithin : Str → Str → Bool
  content : Str → List Nat

/-- What is seen while one root is restored: the store, and the repository before and after the
move. -/
structure RestoreView where
  store : RepositoryView
  before : RepositoryView
  after : RepositoryView

/-- The document of a declaration. -/
def declarationEntries (spec : DependencySpec) : Obj :=
  [("root", .str spec.root), ("required_paths", Json.strs spec.requiredPaths),
    ("kind", .str spec.kind), ("candidate_protected", spec.candidateProtected)]

/-- The document that the container reads its declarations from. -/
def specDocument (specs : List DependencySpec) : List Json :=
  specs.map fun spec => .dict (declarationEntries spec)

section Store

variable (env : Env)

/-- A safe relative path. -/
def relativePath (value : Json) : Except PyErr PosixPath := do
  let path := PosixPath.ofStr (env.strOrEmpty value)
  ensure (!path.parts.isEmpty && !path.isAbsolute && !path.parts.contains (lit ".."))
  return path

/-- One declaration of the document. -/
def loadSpec (item : Json) : Except PyErr DependencySpec := do
  let item ← orValueError item.asDict
  ensure (Obj.keysAre item declarationKeys)
  let root ← relativePath env (Obj.get item "root")
  let required ← orValueError (Obj.get item "required_paths").asList
  ensure (!required.isEmpty && required.length ≤ 16)
  ensure (← (Obj.get item "kind").inStrSet ["directory", "file"])
  let kind ← orValueError (Obj.get item "kind").asStr
  ensure (Obj.get item "candidate_protected" matches .bool _)
  let paths ← required.mapM (relativePath env)
  ensure (paths.all fun path => path == root || path.below root)
  return ⟨root.asPosix, paths.map PosixPath.asPosix, kind, Obj.get item "candidate_protected"⟩

/-- The declarations of the document. -/
def loadSpecs (document : Json) : Except PyErr (List DependencySpec) := do
  let items ← orValueError document.asList
  ensure (items.length ≤ 16)
  items.mapM (loadSpec env)

/-- Join a declaration to the group of its root, which has to be of the same kind and protection. -/
def addToGroup (groups : List DependencySpec) (spec : DependencySpec) :
    Except PyErr (List DependencySpec) :=
  match groups.find? (·.root == spec.root) with
  | none => .ok (groups ++ [spec])
  | some existing =>
    if existing.kind != spec.kind || !existing.candidateProtected.pyEq spec.candidateProtected then
      .error .valueError
    else .ok (groups.map fun group =>
      if group.root == spec.root then
        { group with requiredPaths := group.requiredPaths ++ spec.requiredPaths }
      else group)

/-- The declarations, one group for each root. -/
def groupSpecs (specs : List DependencySpec) : Except PyErr (List DependencySpec) :=
  specs.foldlM addToGroup []

/-- The name of a root in the store. -/
def storedName (index : Nat) : Str :=
  lit "root-" ++ (if index < 10 then lit "0" else []) ++ natStr index

/-- The manifest entry of a root. -/
def manifestEntry (index : Nat) (group : DependencySpec) (present : List Str) (digest : Str) : Obj :=
  [("root", .str group.root), ("stored", .str (storedName index)),
    ("required_paths", Json.strs present), ("kind", .str group.kind),
    ("candidate_protected", group.candidateProtected), ("content_sha256", .str digest)]

/-- Put one root away: `none` when it is left where it is. -/
def stashGroup (view : RepositoryView) (index : Nat) (group : DependencySpec) :
    Except PyErr (Option Obj) :=
  let root := group.root
  let present := group.requiredPaths.filter fun name =>
    view.pathExists name && (name == root || view.executable name)
  let directory := group.kind == lit "directory"
  let file := group.kind == lit "file"
  if present.isEmpty then .ok none
  else if view.isSymlink root || (directory && (!view.isDir root || !view.ignored root)) ||
      (file && view.isDir root) then .error .valueError
  else if file && view.isFile root && !view.ignored root then .ok none
  else if directory then
    if present.any (!view.resolvesWithin · root) then .error .valueError
    else .ok (some (manifestEntry index group present []))
  else if view.isFile root && present == [root] then
    .ok (some (manifestEntry index group present (env.sha256 (view.content root))))
  else .error .valueError

/-- Put the groups away, the first of them with the given index. -/
def stashGroups (views : Nat → RepositoryView) :
    Nat → List DependencySpec → Except PyErr (List Obj)
  | _, [] => .ok []
  | index, group :: groups => do
    let entry ← stashGroup env (views index) index group
    let entries ← stashGroups views (index + 1) groups
    return entry.toList ++ entries

/-- `stash`: the manifest of what was put away. -/
def stash (document : Json) (views : Nat → RepositoryView) : Except PyErr Obj := do
  let specs ← loadSpecs env document
  let groups ← groupSpecs specs
  let entries ← stashGroups env views 0 groups
  return .of [("schema", "opencollab.eval_runtime_dependencies.v1"), ("phase", "stashed"),
    ("spec_sha256", .str (specSha256 env (specDocument specs))),
    ("entries", .list (entries.map .dict))]

/-- A manifest entry may be moved back. -/
def restorable (view : RestoreView) (root stored : Str) (item : Obj) : Except PyErr Bool := do
  let kind := item.get "kind"
  let storedTypeValid :=
    if kind.eqStr "directory" then view.store.isDir stored else view.store.isFile stored
  let known ← kind.inStrSet ["directory", "file"]
  return known && (item.get "candidate_protected" matches .bool _) &&
    (match (item.get "content_sha256").asStr with
      | some digest =>
        !(kind.eqStr "directory" && !digest.isEmpty) && !(kind.eqStr "file" && !isLowerSha256 digest)
      | none => false) &&
    !view.before.pathExists root && !view.before.isSymlink root && !view.store.isSymlink stored &&
    storedTypeValid

/-- Put one root back. -/
def restoreEntry (view : RestoreView) (item : Json) : Except PyErr Obj :=
  match item with
  | .dict item => do
    let root := (← relativePath env (Obj.get item "root")).asPosix
    let stored := (← relativePath env (Obj.get item "stored")).asPosix
    ensure (← restorable view root stored item)
    ensure ((Obj.get item "kind").eqStr "directory" ||
      (Obj.get item "content_sha256").eqStr (env.sha256 (view.after.content root)))
    let paths ← (← iterOrEmpty (Obj.get item "required_paths")).mapM (relativePath env)
    let required := paths.map PosixPath.asPosix
    ensure (!required.isEmpty && required.all fun name =>
      view.after.pathExists name && (name == root || view.after.executable name))
    return [("root", .str root), ("required_paths", Json.strs required),
      ("kind", Obj.get item "kind"), ("candidate_protected", Obj.get item "candidate_protected"),
      ("content_sha256", Obj.get item "content_sha256")]
  | _ => .error .typeError

/-- Put the entries back, the first of them with the given index. -/
def restoreEntries (views : Nat → RestoreView) : Nat → List Json → Except PyErr (List Obj)
  | _, [] => .ok []
  | index, item :: items => do
    let entry ← restoreEntry env (views index) item
    let entries ← restoreEntries views (index + 1) items
    return entry :: entries

/-- `restore`: the report of what was put back. -/
def restore (manifest : Obj) (views : Nat → RestoreView) : Except PyErr Obj :=
  if !(manifest.get "schema").eqStr "opencollab.eval_runtime_dependencies.v1" ||
      !(manifest.get "phase").eqStr "stashed" then .error .valueError
  else do
    let entries ← restoreEntries env views 0 (← iterOrEmpty (manifest.get "entries"))
    return .of [("schema", "opencollab.eval_runtime_dependencies.v1"), ("phase", "restored"),
      ("source", "pinned_image_runtime_with_trusted_public_preparation"),
      ("solver_visible", .bool false), ("spec_sha256", manifest.get "spec_sha256"),
      ("entries", .list (entries.map .dict))]

end Store

section Declarations

variable {env : Env}

/-- Two declarations of the same root, kind and protection. -/
structure SameDeclaration (a b : DependencySpec) : Prop where
  root : a.root = b.root
  kind : a.kind = b.kind
  candidateProtected : a.candidateProtected = b.candidateProtected

theorem SameDeclaration.symm {a b : DependencySpec} (h : SameDeclaration a b) :
    SameDeclaration b a := ⟨h.root.symm, h.kind.symm, h.candidateProtected.symm⟩

theorem SameDeclaration.trans {a b c : DependencySpec} (h : SameDeclaration a b)
    (h' : SameDeclaration b c) : SameDeclaration a c :=
  ⟨h.root.trans h'.root, h.kind.trans h'.kind, h.candidateProtected.trans h'.candidateProtected⟩

/-- A known root is the text of its path. -/
theorem asPosix_of_known {spec : DependencySpec} (h : KnownSpec spec) :
    (PosixPath.ofStr spec.root).asPosix = spec.root := by
  rcases h.root with hroot | hroot <;>
    simp only [fileRootNames, directoryRootNames, lits, List.map_cons, List.map_nil, List.mem_cons,
      List.not_mem_nil, or_false] at hroot
  · rcases hroot with hroot | hroot | hroot | hroot <;> rw [hroot] <;> decide
  · rcases hroot with hroot | hroot <;> rw [hroot] <;> decide

/-- A safe path is the path of its text. -/
theorem relativePath_eq {text : Str} {path : PosixPath}
    (h : relativePath env (.str text) = .ok path) : path = PosixPath.ofStr text := by
  obtain ⟨-, -, h⟩ := bind_eq_ok_iff.mp h
  simpa using h.symm

/-- A declaration is read back from its document. -/
theorem loadSpec_same {spec loaded : DependencySpec} (hknown : KnownSpec spec)
    (h : loadSpec env (.dict (declarationEntries spec)) = .ok loaded) :
    SameDeclaration spec loaded := by
  obtain ⟨item, hitem, h⟩ := bind_eq_ok_iff.mp h
  obtain rfl : declarationEntries spec = item := by simpa using hitem
  obtain ⟨-, -, h⟩ := bind_eq_ok_iff.mp h
  obtain ⟨root, hroot, h⟩ := bind_eq_ok_iff.mp h
  obtain ⟨required, -, h⟩ := bind_eq_ok_iff.mp h
  obtain ⟨-, -, h⟩ := bind_eq_ok_iff.mp h
  obtain ⟨known, -, h⟩ := bind_eq_ok_iff.mp h
  obtain ⟨-, -, h⟩ := bind_eq_ok_iff.mp h
  obtain ⟨kind, hkind, h⟩ := bind_eq_ok_iff.mp h
  obtain ⟨-, -, h⟩ := bind_eq_ok_iff.mp h
  obtain ⟨paths, -, h⟩ := bind_eq_ok_iff.mp h
  obtain ⟨-, -, h⟩ := bind_eq_ok_iff.mp h
  cases h
  have hpath := relativePath_eq (by simpa [declarationEntries] using hroot)
  refine ⟨?_, ?_, by simp [declarationEntries]⟩
  · rw [hpath, asPosix_of_known hknown]
  · simpa [declarationEntries] using hkind

/-- The declarations that the container loads. -/
theorem loadSpecs_same {specs loaded : List DependencySpec} (hknown : ∀ spec ∈ specs, KnownSpec spec)
    (h : loadSpecs env (.list (specDocument specs)) = .ok loaded) :
    List.Forall₂ SameDeclaration specs loaded := by
  obtain ⟨items, hitems, h⟩ := bind_eq_ok_iff.mp h
  obtain ⟨-, -, h⟩ := bind_eq_ok_iff.mp h
  obtain rfl : specDocument specs = items := by simpa using hitems
  have hpairs := forall₂_of_mapM_eq_ok h
  rw [specDocument, List.forall₂_map_left_iff] at hpairs
  exact ((List.forall₂_and_left _ _).mpr ⟨hknown, hpairs⟩).imp fun _ _ hpair =>
    loadSpec_same hpair.1 hpair.2

/-- The groups that some declarations form: each has a group, and every group is declared as all
declarations of its root are. -/
structure Grouped (specs groups : List DependencySpec) : Prop where
  declared : ∀ group ∈ groups, ∃ spec ∈ specs, SameDeclaration group spec
  same : ∀ spec ∈ specs, ∀ group ∈ groups, group.root = spec.root → SameDeclaration group spec
  complete : ∀ spec ∈ specs, ∃ group ∈ groups, group.root = spec.root

/-- Joining a declaration keeps the groups. -/
theorem Grouped.addToGroup {specs groups result : List DependencySpec} {spec : DependencySpec}
    (h : Grouped specs groups) (hbool : ∃ b, spec.candidateProtected = .bool b)
    (hbools : ∀ other ∈ specs, ∃ b, other.candidateProtected = .bool b)
    (hadd : OpenCollabEval.addToGroup groups spec = .ok result) :
    Grouped (specs ++ [spec]) result := by
  unfold OpenCollabEval.addToGroup at hadd
  rcases hfind : groups.find? (·.root == spec.root) with _ | existing
  · simp only [hfind] at hadd
    cases hadd
    have hnew : ∀ group ∈ groups, group.root ≠ spec.root := by
      simpa using List.find?_eq_none.mp hfind
    refine ⟨?_, ?_, ?_⟩
    · intro group hgroup
      rcases List.mem_append.mp hgroup with hgroup | hgroup
      · obtain ⟨other, hother, hsame⟩ := h.declared group hgroup
        exact ⟨other, by simp [hother], hsame⟩
      · obtain rfl : group = spec := by simpa using hgroup
        exact ⟨group, by simp, rfl, rfl, rfl⟩
    · intro other hother group hgroup hroot
      rcases List.mem_append.mp hgroup with hold | hold
      · rcases List.mem_append.mp hother with hotherOld | hotherNew
        · exact h.same other hotherOld group hold hroot
        · obtain rfl : other = spec := by simpa using hotherNew
          exact absurd hroot (hnew group hold)
      · obtain rfl : group = spec := by simpa using hold
        rcases List.mem_append.mp hother with hotherOld | hotherNew
        · obtain ⟨found, hfound, hfoundRoot⟩ := h.complete other hotherOld
          exact absurd (hfoundRoot.trans hroot.symm) (hnew found hfound)
        · obtain rfl : other = group := by simpa using hotherNew
          exact ⟨rfl, rfl, rfl⟩
    · intro other hother
      rcases List.mem_append.mp hother with hother | hother
      · obtain ⟨group, hgroup, hroot⟩ := h.complete other hother
        exact ⟨group, by simp [hgroup], hroot⟩
      · obtain rfl : other = spec := by simpa using hother
        exact ⟨other, by simp, rfl⟩
  · simp only [hfind] at hadd
    split at hadd
    · simp at hadd
    next hagrees =>
    cases hadd
    simp only [Bool.or_eq_true, bne_iff_ne, Bool.not_eq_true', not_or, not_not,
      Bool.not_eq_false] at hagrees
    have hexisting : existing ∈ groups := List.mem_of_find?_eq_some hfind
    have hexistingRoot : existing.root = spec.root := by simpa using List.find?_some hfind
    obtain ⟨declared, hdeclared, hsame⟩ := h.declared existing hexisting
    have hspec : SameDeclaration existing spec := by
      obtain ⟨b, hb⟩ := hbool
      obtain ⟨b', hb'⟩ := hbools declared hdeclared
      refine ⟨hexistingRoot, hagrees.1, ?_⟩
      have hequal := hagrees.2
      rw [hsame.candidateProtected, hb, hb', Json.pyEq_bool_bool] at hequal
      rw [hsame.candidateProtected, hb, hb', hequal]
    -- a group keeps what it declares when paths are added to it
    have hkept : ∀ group ∈ groups.map (fun group => if group.root == spec.root then
        { group with requiredPaths := group.requiredPaths ++ spec.requiredPaths } else group),
        ∃ before ∈ groups, SameDeclaration group before := by
      intro group hgroup
      obtain ⟨before, hbefore, rfl⟩ := List.mem_map.mp hgroup
      refine ⟨before, hbefore, ?_⟩
      split <;> exact ⟨rfl, rfl, rfl⟩
    refine ⟨?_, ?_, ?_⟩
    · intro group hgroup
      obtain ⟨before, hbefore, hgroupSame⟩ := hkept group hgroup
      obtain ⟨other, hother, hotherSame⟩ := h.declared before hbefore
      exact ⟨other, by simp [hother], hgroupSame.trans hotherSame⟩
    · intro other hother group hgroup hroot
      obtain ⟨before, hbefore, hgroupSame⟩ := hkept group hgroup
      have hbeforeRoot : before.root = other.root := hgroupSame.root.symm.trans hroot
      rcases List.mem_append.mp hother with hotherOld | hotherNew
      · exact hgroupSame.trans (h.same other hotherOld before hbefore hbeforeRoot)
      · obtain rfl : other = spec := by simpa using hotherNew
        have hbeforeDeclared : SameDeclaration before declared := h.same declared hdeclared before
          hbefore (hbeforeRoot.trans (hexistingRoot.symm.trans hsame.root))
        exact hgroupSame.trans (hbeforeDeclared.trans (hsame.symm.trans hspec))
    · intro other hother
      have hgroup : ∃ before ∈ groups, before.root = other.root := by
        rcases List.mem_append.mp hother with hotherOld | hotherNew
        · exact h.complete other hotherOld
        · obtain rfl : other = spec := by simpa using hotherNew
          exact ⟨existing, hexisting, hexistingRoot⟩
      obtain ⟨before, hbefore, hroot⟩ := hgroup
      refine ⟨_, List.mem_map.mpr ⟨before, hbefore, rfl⟩, ?_⟩
      split <;> exact hroot

/-- The groups of a document. -/
theorem grouped_of_groupSpecs {specs groups : List DependencySpec}
    (hbools : ∀ spec ∈ specs, ∃ b, spec.candidateProtected = .bool b)
    (h : groupSpecs specs = .ok groups) : Grouped specs groups := by
  have hfold (rest done start : List DependencySpec) (hstart : Grouped done start)
      (hdone : ∀ spec ∈ done ++ rest, ∃ b, spec.candidateProtected = .bool b)
      (hrest : rest.foldlM OpenCollabEval.addToGroup start = .ok groups) :
      Grouped (done ++ rest) groups := by
    induction rest generalizing done start with
    | nil =>
      cases hrest
      simpa using hstart
    | cons spec rest ih =>
      rw [List.foldlM_cons] at hrest
      obtain ⟨next, hnext, hrest⟩ := bind_eq_ok_iff.mp hrest
      have hadded := hstart.addToGroup (hdone spec (by simp))
        (fun other hother => hdone other (by simp [hother])) hnext
      simpa using ih (done ++ [spec]) next hadded (by simpa using hdone) hrest
  exact hfold specs [] [] ⟨by simp, by simp, by simp⟩ (by simpa using hbools) h

/-- What is put away of a root says what its group says. -/
theorem manifestEntry_of_stashGroup {view : RepositoryView} {index : Nat} {group : DependencySpec}
    {entry : Obj} (h : stashGroup env view index group = .ok (some entry)) :
    ∃ present digest, entry = manifestEntry index group present digest := by
  unfold stashGroup at h
  simp only at h
  split_ifs at h
  all_goals first
    | cases h; exact ⟨_, _, rfl⟩
    | simp at h

/-- Everything that is put away belongs to a group. -/
theorem manifestEntries_of_stashGroups {views : Nat → RepositoryView} {index : Nat}
    {groups : List DependencySpec} {entries : List Obj}
    (h : stashGroups env views index groups = .ok entries) :
    ∀ entry ∈ entries, ∃ group ∈ groups, ∃ index present digest,
      entry = manifestEntry index group present digest := by
  induction groups generalizing index entries with
  | nil =>
    cases h
    simp
  | cons group groups ih =>
    obtain ⟨first, hfirst, h⟩ := bind_eq_ok_iff.mp h
    obtain ⟨rest, hrest, h⟩ := bind_eq_ok_iff.mp h
    cases h
    intro entry hentry
    rcases List.mem_append.mp hentry with hentry | hentry
    · obtain rfl : first = some entry := by simpa using hentry
      obtain ⟨present, digest, rfl⟩ := manifestEntry_of_stashGroup hfirst
      exact ⟨group, by simp, _, present, digest, rfl⟩
    · obtain ⟨other, hother, hstored⟩ := ih hrest entry hentry
      exact ⟨other, by simp [hother], hstored⟩

/-- An entry of a report says what a group says. -/
structure ReportsGroup (entry : Obj) (group : DependencySpec) : Prop where
  root : entry.get "root" = .str group.root
  kind : entry.get "kind" = .str group.kind
  candidateProtected : entry.get "candidate_protected" = group.candidateProtected

/-- What is put back of a root says what its group says. -/
theorem reportsGroup_of_restoreEntry {view : RestoreView} {index : Nat} {group : DependencySpec}
    {present : List Str} {digest : Str} {entry : Obj}
    (hroot : (PosixPath.ofStr group.root).asPosix = group.root)
    (h : restoreEntry env view (.dict (manifestEntry index group present digest)) = .ok entry) :
    ReportsGroup entry group := by
  obtain ⟨root, hpath, h⟩ := bind_eq_ok_iff.mp h
  obtain ⟨stored, -, h⟩ := bind_eq_ok_iff.mp h
  obtain ⟨valid, -, h⟩ := bind_eq_ok_iff.mp h
  obtain ⟨-, -, h⟩ := bind_eq_ok_iff.mp h
  obtain ⟨-, -, h⟩ := bind_eq_ok_iff.mp h
  obtain ⟨items, -, h⟩ := bind_eq_ok_iff.mp h
  obtain ⟨paths, -, h⟩ := bind_eq_ok_iff.mp h
  obtain ⟨-, -, h⟩ := bind_eq_ok_iff.mp h
  cases h
  have htext := relativePath_eq (by simpa [manifestEntry] using hpath)
  refine ⟨?_, by simp [manifestEntry], by simp [manifestEntry]⟩
  simp [htext, hroot]

/-- Everything that is put back was put away. -/
theorem mem_of_restoreEntries {views : Nat → RestoreView} {index : Nat} {items : List Json}
    {entries : List Obj} (h : restoreEntries env views index items = .ok entries) :
    ∀ entry ∈ entries, ∃ item ∈ items, ∃ view, restoreEntry env view item = .ok entry := by
  induction items generalizing index entries with
  | nil =>
    cases h
    simp
  | cons item items ih =>
    obtain ⟨first, hfirst, h⟩ := bind_eq_ok_iff.mp h
    obtain ⟨rest, hrest, h⟩ := bind_eq_ok_iff.mp h
    cases h
    intro entry hentry
    rcases List.mem_cons.mp hentry with rfl | hentry
    · exact ⟨item, by simp, _, hfirst⟩
    · obtain ⟨other, hother, hstored⟩ := ih hrest entry hentry
      exact ⟨other, by simp [hother], hstored⟩

end Declarations

section Run

variable {env : Env} {specs : List DependencySpec} {manifest report : Obj}
  {stashViews : Nat → RepositoryView} {restoreViews : Nat → RestoreView}

/-- The roots that a report says were put back. -/
def RestoresRoot (report : Obj) (root : Str) : Prop :=
  ∃ items o, report.get "entries" = .list items ∧ .dict o ∈ items ∧ Obj.get o "root" = .str root

/-- Every entry of a report says what all declarations of its root say. -/
theorem reportsGroup_of_run (hknown : ∀ spec ∈ specs, KnownSpec spec)
    (hstash : stash env (.list (specDocument specs)) stashViews = .ok manifest)
    (hrestore : restore env manifest restoreViews = .ok report) :
    ∃ entries : List Obj, report.get "entries" = .list (entries.map .dict) ∧
      ∀ entry ∈ entries, ∃ spec ∈ specs, ReportsGroup entry spec ∧
        ∀ other ∈ specs, other.root = spec.root → SameDeclaration other spec := by
  obtain ⟨loaded, hloaded, hstash⟩ := bind_eq_ok_iff.mp hstash
  obtain ⟨groups, hgroups, hstash⟩ := bind_eq_ok_iff.mp hstash
  obtain ⟨stored, hstored, hstash⟩ := bind_eq_ok_iff.mp hstash
  cases hstash
  have hpairs := loadSpecs_same hknown hloaded
  have hgrouped : Grouped loaded groups := by
    refine grouped_of_groupSpecs (fun spec hspec => ?_) hgroups
    obtain ⟨declared, hdeclared, hsame⟩ := exists_left_of_forall₂ hpairs spec hspec
    obtain ⟨b, hb⟩ := (hknown declared hdeclared).isBool
    exact ⟨b, hsame.candidateProtected ▸ hb⟩
  unfold restore at hrestore
  split at hrestore
  · simp at hrestore
  obtain ⟨items, hitems, hrestore⟩ := bind_eq_ok_iff.mp hrestore
  obtain ⟨entries, hentries, hrestore⟩ := bind_eq_ok_iff.mp hrestore
  cases hrestore
  obtain rfl : stored.map .dict = items := by simpa [iterOrEmpty] using hitems
  refine ⟨entries, by simp, fun entry hentry => ?_⟩
  obtain ⟨_, hitem, view, hback⟩ := mem_of_restoreEntries hentries entry hentry
  obtain ⟨away, haway, rfl⟩ := List.mem_map.mp hitem
  obtain ⟨group, hgroup, index, present, digest, rfl⟩ :=
    manifestEntries_of_stashGroups hstored away haway
  obtain ⟨spec', hspec', hgroupSame⟩ := hgrouped.declared group hgroup
  obtain ⟨spec, hspec, hspecSame⟩ := exists_left_of_forall₂ hpairs spec' hspec'
  have hsame : SameDeclaration group spec := hgroupSame.trans hspecSame.symm
  have hroot : (PosixPath.ofStr group.root).asPosix = group.root := by
    rw [hsame.root, asPosix_of_known (hknown spec hspec)]
  have hreports := reportsGroup_of_restoreEntry hroot hback
  refine ⟨spec, hspec, ⟨?_, ?_, ?_⟩, fun other hother hotherRoot => ?_⟩
  · rw [hreports.root, hsame.root]
  · rw [hreports.kind, hsame.kind]
  · rw [hreports.candidateProtected, hsame.candidateProtected]
  · obtain ⟨other', hother', hotherSame⟩ := exists_right_of_forall₂ hpairs other hother
    have hgroupOther := hgrouped.same other' hother' group hgroup
      (hsame.root.trans (hotherRoot.symm.trans hotherSame.root))
    exact hotherSame.trans (hgroupOther.symm.trans hsame)

/-- What is put back is unprotected exactly when no file that is put back was declared protected. -/
theorem filesUnprotected_of_run (hknown : ∀ spec ∈ specs, KnownSpec spec)
    (hstash : stash env (.list (specDocument specs)) stashViews = .ok manifest)
    (hrestore : restore env manifest restoreViews = .ok report) :
    FilesUnprotected report ↔
      ∀ spec ∈ specs, spec.kind = lit "file" → RestoresRoot report spec.root →
        spec.candidateProtected = .bool false := by
  obtain ⟨entries, hwritten, hreports⟩ := reportsGroup_of_run hknown hstash hrestore
  have hisFalse {spec : DependencySpec} (hspec : spec ∈ specs) :
      spec.candidateProtected.isFalse = true ↔ spec.candidateProtected = .bool false := by
    obtain ⟨b, hb⟩ := (hknown spec hspec).isBool
    cases b <;> simp [hb, Json.isFalse]
  constructor
  · rintro hunprotected spec hspec hkind ⟨items, o, hitems, ho, hroot⟩
    have ho' := ho
    obtain rfl : entries.map .dict = items := by simpa [hwritten] using hitems
    obtain ⟨_, hentry, heq⟩ := List.mem_map.mp ho
    cases heq
    obtain ⟨declared, hdeclared, hentrySays, hsame⟩ := hreports o hentry
    have hspecRoot : spec.root = declared.root := by
      have htext : (Json.str spec.root) = .str declared.root := by rw [← hroot, hentrySays.root]
      simpa using htext
    have hspecSame := hsame spec hspec hspecRoot
    rw [hspecSame.candidateProtected, ← hisFalse hdeclared, ← hentrySays.candidateProtected]
    refine hunprotected _ hwritten o ho' ?_
    rw [hentrySays.kind, Json.eqStr_iff, ← hspecSame.kind, hkind]
  · intro hdeclared items hitems o ho hkind
    have ho' := ho
    obtain rfl : entries.map .dict = items := by simpa [hwritten] using hitems
    obtain ⟨_, hentry, heq⟩ := List.mem_map.mp ho
    cases heq
    obtain ⟨spec, hspec, hentrySays, -⟩ := hreports o hentry
    rw [hentrySays.kind, Json.eqStr_iff] at hkind
    rw [hentrySays.candidateProtected, hisFalse hspec]
    refine hdeclared spec hspec (by simpa using hkind) ⟨_, o, hwritten, ho', hentrySays.root⟩

end Run

end OpenCollabEval
