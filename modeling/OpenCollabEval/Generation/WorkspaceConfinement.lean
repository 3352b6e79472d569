import OpenCollabEval.Generation.WorkspaceArchive
import Mathlib.Algebra.GroupWithZero.Nat
import OpenCollabEval.Python.Error

/-!
# Confinement of workspace extraction

An extraction that returns keeps to its root exactly when every hard link target does, once the
symlinks among its directories are followed: the parents of a destination are checked to be
directories, those of a hard link target are not.
-/

open Python Posix

namespace OpenCollabEval

/-- The contents of the file members of an archive. -/
def fileContents (archive : List Member) : List (List Nat) :=
  archive.filterMap fun m =>
    match m.kind with
    | .file size (some bytes) => some (bytes.take size.toNat)
    | _ => none

/-- A root directory of a host with nothing in it. -/
structure EmptyRoot (host : FileTree) (root : List Str) : Prop where
  names : FileTree.dotdot ∉ root
  ancestors : ∀ q, q <+: root → host q = some .directory
  empty : ∀ path, path ≠ [] → host (root ++ path) = none

/-- A file system in which what is under the root is in directories. -/
structure Rooted (root : List Str) (w : Workspace) : Prop where
  names : FileTree.dotdot ∉ root
  ancestors : ∀ q, q <+: root → w.tree q = some .directory
  closed : ∀ dir name, root <+: dir → w.tree (dir ++ [name]) ≠ none → w.tree dir = some .directory

/-- A workspace that keeps to its root, with the contents that files may have. -/
structure Confined (root : List Str) (contents : List (List Nat)) (w : Workspace) : Prop
    extends Rooted root w where
  contents : ∀ place c, root <+: place → w.tree place = some (.file c) → c ∈ contents
  inside : ∀ e ∈ w.events, ∀ place ∈ e.places, root <+: place
  distinct : (w.events.filterMap FileEvent.made).Nodup
  present : ∀ place ∈ w.events.filterMap FileEvent.made, w.tree place ≠ none

variable {root : List Str} {contents : List (List Nat)} {w w' : Workspace}

/-- A host with an empty root is where every extraction starts. -/
theorem EmptyRoot.confined {host : FileTree} (h : EmptyRoot host root) :
    Confined root contents ⟨host, []⟩ where
  names := h.names
  ancestors := h.ancestors
  closed := by
    rintro dir name ⟨path, rfl⟩ hsome
    rw [List.append_assoc] at hsome
    exact absurd (h.empty _ (by simp)) hsome
  contents := by
    rintro place c ⟨path, rfl⟩ hfile
    change host _ = _ at hfile
    rcases path with _ | ⟨name, path⟩
    · rw [List.append_nil, h.ancestors root List.prefix_rfl] at hfile
      cases hfile
    · rw [h.empty _ (by simp)] at hfile
      cases hfile
  inside := by simp
  distinct := by simp
  present := by simp

/-- The directories above a directory under the root are directories. -/
theorem Rooted.directories (h : Rooted root w) {path : List Str}
    (hdir : w.tree (root ++ path) = some .directory) :
    ∀ q, q <+: root ++ path → w.tree q = some .directory := by
  induction path using List.reverseRecOn with
  | nil => simpa using h.ancestors
  | append_singleton path name ih =>
    intro q hq
    rw [← List.append_assoc, List.prefix_concat_iff] at hq
    rcases hq with rfl | hq
    · simpa using hdir
    · refine ih (h.closed (root ++ path) name (List.prefix_append _ _) ?_) q hq
      rw [List.append_assoc, hdir]
      simp

/-- A name under a directory of the root is where its path says. -/
theorem Rooted.locate (h : Rooted root w) {path : List Str} {name : Str}
    (hnames : FileTree.dotdot ∉ path) (hdir : w.tree (root ++ path) = some .directory) :
    w.tree.locate (root ++ path ++ [name]) = some (root ++ path ++ [name]) :=
  FileTree.locate_of_directories name (by simp [h.names, hnames]) (h.directories hdir)

/-- A new object in a directory under the root is in a directory. -/
theorem Rooted.add (h : Rooted root w) {dir : List Str} {name : Str} {node : Node}
    {events : List FileEvent} (hroot : root <+: dir) (hdir : w.tree dir = some .directory)
    (hfree : w.tree (dir ++ [name]) = none) :
    Rooted root ⟨w.tree.insert (dir ++ [name]) node, events⟩ where
  names := h.names
  ancestors := fun q hq => by
    have hne : q ≠ dir ++ [name] := by
      rintro rfl
      have hlen := (hq.trans hroot).length_le
      rw [List.length_append, List.length_singleton] at hlen
      omega
    exact (FileTree.insert_of_ne node hne).trans (h.ancestors q hq)
  closed := fun p n hp hsome => by
    by_cases heq : p ++ [n] = dir ++ [name]
    · obtain ⟨rfl, -⟩ := List.append_inj' heq rfl
      exact (FileTree.insert_of_ne node (by simp)).trans hdir
    · have hold : w.tree (p ++ [n]) ≠ none := by
        rwa [← FileTree.insert_of_ne (t := w.tree) node heq]
      have hp' := h.closed p n hp hold
      have hne : p ≠ dir ++ [name] := by
        rintro rfl
        simp [hfree] at hp'
      exact (FileTree.insert_of_ne node hne).trans hp'

/-- A new object in a directory under the root keeps a workspace to its root. -/
theorem Confined.add (h : Confined root contents w) {dir : List Str} {name : Str} {node : Node}
    {e : FileEvent} (hroot : root <+: dir) (hdir : w.tree dir = some .directory)
    (hfree : w.tree (dir ++ [name]) = none) (hnode : ∀ c, node = .file c → c ∈ contents)
    (hplaces : ∀ place ∈ e.places, root <+: place) (hmade : e.made = some (dir ++ [name])) :
    Confined root contents ⟨w.tree.insert (dir ++ [name]) node, w.events ++ [e]⟩ where
  toRooted := h.toRooted.add hroot hdir hfree
  contents := fun place c hplace hfile => by
    by_cases heq : place = dir ++ [name]
    · subst heq
      exact hnode c (by simpa using hfile)
    · exact h.contents place c hplace ((FileTree.insert_of_ne node heq).symm.trans hfile)
  inside := fun e' he' => by
    rcases List.mem_append.mp he' with hold | hnew
    · exact h.inside e' hold
    · obtain rfl := List.mem_singleton.mp hnew
      exact hplaces
  distinct := by
    rw [List.filterMap_append, List.nodup_append]
    refine ⟨h.distinct, by simp [hmade], ?_⟩
    rintro place hold place' hnew rfl
    have hplace : place = dir ++ [name] := by simpa [hmade, eq_comm] using hnew
    exact h.present place hold (hplace ▸ hfree)
  present := fun place hplace => by
    by_cases heq : place = dir ++ [name]
    · simp [heq]
    · refine fun hnone => h.present place ?_
        ((FileTree.insert_of_ne node heq).symm.trans hnone)
      simpa [List.filterMap_append, hmade, heq] using hplace

/-- What making an object in a directory under the root does. -/
theorem Confined.create_eq_ok (h : Confined root contents w) {path : List Str} {name : Str}
    {node : Node} (hnames : FileTree.dotdot ∉ path)
    (hdir : w.tree (root ++ path) = some .directory)
    (hnode : ∀ c, node = .file c → c ∈ contents)
    (hok : w.create (root ++ path ++ [name]) node = .ok w') :
    Confined root contents w' ∧ w.tree.Extends w'.tree ∧
      w'.tree (root ++ path ++ [name]) = some node := by
  rw [Workspace.create, h.locate hnames hdir] at hok
  dsimp only at hok
  split at hok
  · cases hok
  next hfree =>
    have hfree : w.tree (root ++ path ++ [name]) = none := by simpa using hfree
    cases hok
    exact ⟨h.add (List.prefix_append _ _) hdir hfree hnode (by simp [FileEvent.places]) rfl,
      FileTree.extends_insert node hfree, FileTree.insert_self _ _⟩

/-- A name under a directory of the root is looked up where its path says. -/
theorem Rooted.lstat (h : Rooted root w) {path : List Str} {name : Str}
    (hnames : FileTree.dotdot ∉ path) (hdir : w.tree (root ++ path) = some .directory) :
    w.tree.lstat (root ++ path ++ [name]) = w.tree (root ++ path ++ [name]) := by
  rw [FileTree.lstat, h.locate hnames hdir]
  rfl

/-- The parents of a destination are directories under the root. -/
theorem Confined.safeParent_eq_ok (h : Confined root contents w) {path parts : List Str}
    (hnames : FileTree.dotdot ∉ path ++ parts) (hparts : parts ≠ [])
    (hdir : w.tree (root ++ path) = some .directory)
    (hok : safeParent w (root ++ path) parts = .ok w') :
    Confined root contents w' ∧ w.tree.Extends w'.tree ∧
      w'.tree (root ++ path ++ parts.dropLast) = some .directory := by
  induction parts generalizing w path with
  | nil => exact absurd rfl hparts
  | cons part rest ih =>
    rcases rest with _ | ⟨next, rest⟩
    · cases hok
      exact ⟨h, FileTree.Extends.refl, by simpa using hdir⟩
    have hpath : FileTree.dotdot ∉ path := fun hmem => hnames (by simp [hmem])
    have hnext : FileTree.dotdot ∉ (path ++ [part]) ++ (next :: rest) := by simpa using hnames
    rw [safeParent, h.lstat hpath hdir] at hok
    rcases hnode : w.tree (root ++ path ++ [part]) with _ | node
    · rw [hnode] at hok
      obtain ⟨w₁, hcreate, hok⟩ := bind_eq_ok_iff.mp hok
      obtain ⟨h₁, hextends, hmade⟩ := h.create_eq_ok hpath hdir (by simp) hcreate
      rw [List.append_assoc] at hok hmade
      obtain ⟨h', hextends', hlast⟩ := ih h₁ hnext (by simp) hmade hok
      exact ⟨h', hextends.trans hextends', by simpa using hlast⟩
    · rw [hnode] at hok
      cases node with
      | directory =>
        rw [List.append_assoc] at hok hnode
        obtain ⟨h', hextends', hlast⟩ := ih h hnext (by simp) hnode hok
        exact ⟨h', hextends', by simpa using hlast⟩
      | file c => cases hok
      | symlink target => cases hok
      | special => cases hok

/-- The parents of a destination that are there already stay as they are. -/
theorem Rooted.safeParent_eq_self (h : Rooted root w) {path parts : List Str}
    (hnames : FileTree.dotdot ∉ path ++ parts)
    (hdir : w.tree (root ++ path ++ parts.dropLast) = some .directory) :
    safeParent w (root ++ path) parts = .ok w := by
  induction parts generalizing path with
  | nil => rfl
  | cons part rest ih =>
    rcases rest with _ | ⟨next, rest⟩
    · rfl
    have hpath : FileTree.dotdot ∉ path := fun hmem => hnames (by simp [hmem])
    rw [List.append_assoc] at hdir
    have hall := h.directories hdir
    have hparent := hall (root ++ path) (by simp)
    have hpart := hall (root ++ path ++ [part]) (by simp)
    rw [safeParent, h.lstat hpath hparent, hpart, List.append_assoc]
    exact ih (by simpa using hnames) (by simpa using hdir)

/-- The names of a member have no `..`. -/
theorem dotdot_not_mem_memberParts {name : Str} {parts : List Str}
    (h : memberParts name = .ok parts) : FileTree.dotdot ∉ parts := by
  unfold memberParts at h
  split at h
  · cases h
  · dsimp only at h
    split at h
    · cases h
    split at h
    · cases h
    next hnot =>
      cases h
      simpa using hnot

/-- What holds of an extraction after some members. -/
structure Extraction.Inv (root : List Str) (contents : List (List Nat)) (st : Extraction) :
    Prop where
  confined : Confined root contents st.workspace
  modes : ∀ entry ∈ st.directoryModes, FileTree.dotdot ∉ entry.1 ∧
    st.workspace.tree (root ++ entry.1) = some .directory
  pending : ∀ entry ∈ st.pending, entry.1 ≠ [] ∧ FileTree.dotdot ∉ entry.1 ∧ entry.2 ≠ [] ∧
    st.workspace.tree (root ++ entry.1.dropLast) = some .directory
  bounded : st.extracted ≤ maxWorkspaceExtractedBytes

/-- A workspace that grows within its root keeps what holds of an extraction. -/
theorem Extraction.Inv.grow {st : Extraction} (h : st.Inv root contents)
    (hconfined : Confined root contents w) (hextends : st.workspace.tree.Extends w.tree) :
    ({ st with workspace := w } : Extraction).Inv root contents where
  confined := hconfined
  modes := fun entry hentry =>
    ⟨(h.modes entry hentry).1, hextends _ _ (h.modes entry hentry).2⟩
  pending := fun entry hentry =>
    ⟨(h.pending entry hentry).1, (h.pending entry hentry).2.1, (h.pending entry hentry).2.2.1,
      hextends _ _ (h.pending entry hentry).2.2.2⟩
  bounded := h.bounded

theorem mem_setMode {modes : List (List Str × Nat)} {parts : List Str} {mode : Nat}
    {entry : List Str × Nat} (h : entry ∈ setMode modes parts mode) :
    entry ∈ modes ∨ entry.1 = parts := by
  unfold setMode at h
  split at h
  · obtain ⟨old, hold, heq⟩ := List.mem_map.mp h
    split at heq
    · exact .inr (heq ▸ rfl)
    · exact .inl (heq ▸ hold)
  · rcases List.mem_append.mp h with hold | hnew
    · exact .inl hold
    · exact .inr (by rw [List.mem_singleton.mp hnew])

/-- What a file member that is extracted comes to. -/
theorem extractFile_eq_ok {extracted total : Nat} {parts : List Str} {size : Int}
    {payload : Option (List Nat)}
    (hok : extractFile root w extracted parts size payload = .ok (w', total)) :
    ∃ bytes, payload = some bytes ∧ (bytes.take size.toNat).length = size.toNat ∧
      total = extracted + size.toNat ∧ total ≤ maxWorkspaceExtractedBytes ∧
      w.create (root ++ parts) (.file (bytes.take size.toNat)) = .ok w' := by
  unfold extractFile at hok
  split at hok
  · cases hok
  dsimp only at hok
  split at hok
  · cases hok
  next htotal =>
    cases payload with
    | none => cases hok
    | some bytes =>
      obtain ⟨w₁, hcreate, hok⟩ := bind_eq_ok_iff.mp hok
      split at hok
      · cases hok
      next hlength =>
        cases hok
        exact ⟨bytes, rfl, by simp; omega, rfl, by omega, hcreate⟩

/-- A member at its destination keeps what holds of an extraction. -/
theorem Extraction.Inv.extractAt {st st' : Extraction} {parent : List Str} {name : Str}
    {m : Member} (h : st.Inv root contents)
    (hcontents : ∀ c ∈ fileContents [m], c ∈ contents)
    (hnames : FileTree.dotdot ∉ parent ++ [name])
    (hdir : st.workspace.tree (root ++ parent) = some .directory)
    (hok : extractAt root st st.workspace (parent ++ [name]) m = .ok st') :
    st'.Inv root contents ∧ st.workspace.tree.Extends st'.workspace.tree ∧
      st'.extracted = st.extracted + ((fileContents [m]).map List.length).sum := by
  have hparent : FileTree.dotdot ∉ parent := fun hmem => hnames (by simp [hmem])
  have hpath : root ++ (parent ++ [name]) = root ++ parent ++ [name] := by simp
  have hlstat := @Rooted.lstat _ _ h.confined.toRooted _ name hparent hdir
  obtain ⟨mname, mode, kind⟩ := m
  cases kind with
  | directory =>
    obtain ⟨w, hw, hok⟩ := bind_eq_ok_iff.mp hok
    rw [extractDirectory, hpath, hlstat] at hw
    have hmade : Confined root contents w ∧ st.workspace.tree.Extends w.tree ∧
        w.tree (root ++ parent ++ [name]) = some .directory := by
      rcases hnode : st.workspace.tree (root ++ parent ++ [name]) with _ | node
      · rw [hnode] at hw
        exact h.confined.create_eq_ok hparent hdir (by simp) hw
      · rw [hnode] at hw
        cases node with
        | directory => cases hw; exact ⟨h.confined, FileTree.Extends.refl, hnode⟩
        | file c => cases hw
        | symlink target => cases hw
        | special => cases hw
    obtain ⟨hconfined, hextends, hnode⟩ := hmade
    cases hok
    have hgrown := h.grow hconfined hextends
    refine ⟨⟨hconfined, fun entry hentry => ?_, hgrown.pending, h.bounded⟩, hextends,
      by simp [fileContents]⟩
    rcases mem_setMode hentry with hold | hnew
    · exact hgrown.modes entry hold
    · rw [hnew, hpath]
      exact ⟨hnames, hnode⟩
  | symlink linkname =>
    simp only [OpenCollabEval.extractAt] at hok
    split at hok
    · cases hok
    split at hok
    · cases hok
    split at hok
    · cases hok
    obtain ⟨w, hw, hok⟩ := bind_eq_ok_iff.mp hok
    rw [hpath] at hw
    obtain ⟨hconfined, hextends, -⟩ := h.confined.create_eq_ok hparent hdir (by simp) hw
    cases hok
    exact ⟨h.grow hconfined hextends, hextends, by simp [fileContents]⟩
  | hardlink linkname =>
    simp only [OpenCollabEval.extractAt] at hok
    split at hok
    · cases hok
    obtain ⟨targetParts, htarget, hok⟩ := bind_eq_ok_iff.mp hok
    split at hok
    · cases hok
    next hne =>
      cases hok
      refine ⟨⟨h.confined, h.modes, fun entry hentry => ?_, h.bounded⟩, FileTree.Extends.refl,
        by simp [fileContents]⟩
      rcases List.mem_append.mp hentry with hold | hnew
      · exact h.pending entry hold
      · obtain rfl := List.mem_singleton.mp hnew
        exact ⟨by simp, hnames, by simpa using hne, by simpa using hdir⟩
  | file size payload =>
    simp only [OpenCollabEval.extractAt] at hok
    split at hok
    · cases hok
    obtain ⟨⟨w, total⟩, hw, hst⟩ := bind_eq_ok_iff.mp hok
    obtain ⟨bytes, rfl, hlength, htotal, hbounded, hcreate⟩ := extractFile_eq_ok hw
    rw [hpath] at hcreate
    obtain ⟨hconfined, hextends, -⟩ := h.confined.create_eq_ok hparent hdir
      (fun c hc => hcontents c (by cases hc; simp [fileContents])) hcreate
    cases hst
    have hgrown := h.grow hconfined hextends
    refine ⟨⟨hconfined, hgrown.modes, hgrown.pending, hbounded⟩, hextends, ?_⟩
    simp [fileContents, htotal, hlength]
  | special =>
    simp only [OpenCollabEval.extractAt] at hok
    split at hok
    · cases hok
    obtain ⟨w, hw, hok⟩ := bind_eq_ok_iff.mp hok
    rw [hpath] at hw
    obtain ⟨hconfined, hextends, -⟩ := h.confined.create_eq_ok hparent hdir (by simp) hw
    cases hok
    exact ⟨h.grow hconfined hextends, hextends, by simp [fileContents]⟩

/-- A member keeps what holds of an extraction. -/
theorem Extraction.Inv.extractMember {st st' : Extraction} {m : Member} (h : st.Inv root contents)
    (hcontents : ∀ c ∈ fileContents [m], c ∈ contents)
    (hok : extractMember root st m = .ok st') :
    st'.Inv root contents ∧ st.workspace.tree.Extends st'.workspace.tree ∧
      st'.extracted = st.extracted + ((fileContents [m]).map List.length).sum := by
  obtain ⟨parts, hparts, hok⟩ := bind_eq_ok_iff.mp hok
  have hnames := dotdot_not_mem_memberParts hparts
  split at hok
  next hempty =>
    obtain ⟨mname, mode, kind⟩ := m
    cases kind with
    | directory =>
      cases hok
      exact ⟨h, FileTree.Extends.refl, by simp [fileContents]⟩
    | symlink linkname => cases hok
    | hardlink linkname => cases hok
    | file size payload => cases hok
    | special => cases hok
  next hne =>
    obtain ⟨w, hsafe, hok⟩ := bind_eq_ok_iff.mp hok
    have hparts : parts ≠ [] := by simpa using hne
    have hroot : st.workspace.tree (root ++ []) = some .directory := by
      simpa using h.confined.ancestors root List.prefix_rfl
    rw [← List.append_nil root] at hsafe
    obtain ⟨hconfined, hextends, hdir⟩ :=
      h.confined.safeParent_eq_ok (by simpa using hnames) hparts hroot hsafe
    obtain ⟨parent, name, rfl⟩ : ∃ parent name, parts = parent ++ [name] :=
      ⟨_, _, (List.dropLast_append_getLast hparts).symm⟩
    have hgrown := h.grow hconfined hextends
    obtain ⟨hinv, hextends', htotal⟩ := hgrown.extractAt hcontents hnames
      (by simpa using hdir) hok
    exact ⟨hinv, hextends.trans hextends', htotal⟩

theorem fileContents_cons (m : Member) (rest : List Member) :
    fileContents (m :: rest) = fileContents [m] ++ fileContents rest := by
  rw [← List.singleton_append, fileContents, List.filterMap_append]
  rfl

/-- Members keep what holds of an extraction. -/
theorem Extraction.Inv.extractMembers {st st' : Extraction} {archive : List Member}
    (h : st.Inv root contents) (hcontents : ∀ c ∈ fileContents archive, c ∈ contents)
    (hok : archive.foldlM (OpenCollabEval.extractMember root) st = .ok st') :
    st'.Inv root contents ∧ st.workspace.tree.Extends st'.workspace.tree ∧
      st'.extracted = st.extracted + ((fileContents archive).map List.length).sum := by
  induction archive generalizing st with
  | nil =>
    cases hok
    exact ⟨h, FileTree.Extends.refl, by simp [fileContents]⟩
  | cons m rest ih =>
    rw [fileContents_cons] at hcontents ⊢
    rw [List.foldlM_cons] at hok
    obtain ⟨st₁, hfirst, hrest⟩ := bind_eq_ok_iff.mp hok
    obtain ⟨h₁, hextends, htotal⟩ :=
      h.extractMember (fun c hc => hcontents c (List.mem_append_left _ hc)) hfirst
    obtain ⟨h', hextends', htotal'⟩ :=
      ih h₁ (fun c hc => hcontents c (List.mem_append_right _ hc)) hrest
    refine ⟨h', hextends.trans hextends', ?_⟩
    rw [htotal', htotal, List.map_append, List.sum_append]
    omega

/-- A workspace after some hard links were made over the tree `base`. -/
structure LinkedOver (root : List Str) (base : FileTree) (w : Workspace) : Prop
    extends Rooted root w where
  grown : base.Extends w.tree
  passable : ∀ path node, w.tree path = some node → node.passable = true →
    base path = some node

/-- A hard link whose destination is in a directory of the root. -/
structure LinkEntry (root : List Str) (base : FileTree) (entry : List Str × List Str) : Prop where
  nonempty : entry.1 ≠ []
  names : FileTree.dotdot ∉ entry.1
  target : entry.2 ≠ []
  parent : base (root ++ entry.1.dropLast) = some .directory

/-- The hard links that were made, in their order. -/
inductive Links (root : List Str) (base : FileTree) :
    Workspace → List (List Str × List Str) → Workspace → Prop where
  | nil (w : Workspace) : Links root base w [] w
  | cons {w w' : Workspace} {entry : List Str × List Str} {rest : List (List Str × List Str)}
      {source : List Str} {content : List Nat}
      (located : base.locate (root ++ entry.2) = some source)
      (found : w.tree source = some (.file content))
      (free : w.tree (root ++ entry.1) = none)
      (links : Links root base ⟨w.tree.insert (root ++ entry.1) (.file content),
        w.events ++ [.linked source (root ++ entry.1)]⟩ rest w') :
      Links root base w (entry :: rest) w'

theorem Links.append {base : FileTree} {w w' w'' : Workspace}
    {first second : List (List Str × List Str)} (h : Links root base w first w')
    (h' : Links root base w' second w'') : Links root base w (first ++ second) w'' := by
  induction h with
  | nil w => exact h'
  | cons located found free links ih => exact .cons located found free (ih h')

/-- A hard link keeps a workspace over its base. -/
theorem LinkedOver.add {base : FileTree} {entry : List Str × List Str} {content : List Nat}
    {events : List FileEvent} (h : LinkedOver root base w) (hentry : LinkEntry root base entry)
    (hfree : w.tree (root ++ entry.1) = none) :
    LinkedOver root base ⟨w.tree.insert (root ++ entry.1) (.file content), events⟩ := by
  have hparent := h.grown _ _ hentry.parent
  have hsplit : root ++ entry.1 =
      (root ++ entry.1.dropLast) ++ [entry.1.getLast hentry.nonempty] := by
    rw [List.append_assoc, List.dropLast_append_getLast]
  rw [hsplit] at hfree ⊢
  exact
    { toRooted := h.toRooted.add (List.prefix_append _ _) hparent hfree
      grown := h.grown.trans (FileTree.extends_insert _ hfree)
      passable := fun path node hnode hpass => by
        by_cases heq : path = root ++ entry.1.dropLast ++ [entry.1.getLast hentry.nonempty]
        · subst heq
          obtain rfl : Node.file content = node := by simpa using hnode
          simp [Node.passable] at hpass
        · exact h.passable path node ((FileTree.insert_of_ne _ heq).symm.trans hnode) hpass }

/-- What is found under a path is found there in the base. -/
theorem LinkedOver.locate_base {base : FileTree} (h : LinkedOver root base w)
    {path place : List Str} (hlocate : w.tree.locate path = some place) :
    base.locate path = some place := by
  simp only [FileTree.locate, Option.bind_eq_bind, Option.bind_eq_some_iff] at hlocate ⊢
  obtain ⟨name, hname, dir, hdir, hplace⟩ := hlocate
  exact ⟨name, hname, dir, FileTree.resolve_of_agree h.passable hdir, hplace⟩

/-- One hard link is deferred, or made. -/
theorem LinkedOver.materializeOne {base : FileTree} {entry : List Str × List Str} {made : Bool}
    (h : LinkedOver root base w) (hentry : LinkEntry root base entry)
    (hok : materializeOne root w entry = .ok (w', made)) :
    LinkedOver root base w' ∧ Links root base w (if made then [entry] else []) w' := by
  have hself := @Rooted.safeParent_eq_self _ _ h.toRooted [] entry.1
    (by simpa using hentry.names) (by simpa using h.grown _ _ hentry.parent)
  rw [List.append_nil] at hself
  rw [OpenCollabEval.materializeOne, hself] at hok
  simp only [ok_bind] at hok
  split at hok
  · cases hok
    exact ⟨h, .nil _⟩
  next content hlstat =>
    obtain ⟨w₂, hlink, hok⟩ := bind_eq_ok_iff.mp hok
    cases hok
    have hdest : w.tree.locate (root ++ entry.1) = some (root ++ entry.1) := by
      have hlocate := @Rooted.locate _ _ h.toRooted entry.1.dropLast
        (entry.1.getLast hentry.nonempty)
        (fun hmem => hentry.names (List.dropLast_subset _ hmem))
        (h.grown _ _ hentry.parent)
      rwa [List.append_assoc, List.dropLast_append_getLast] at hlocate
    unfold Workspace.link at hlink
    rw [hdest] at hlink
    rcases hsource : w.tree.locate (root ++ entry.2) with _ | source
    · rw [hsource] at hlink
      cases hlink
    rw [hsource] at hlink
    dsimp only at hlink
    split at hlink
    next content hfile =>
      split at hlink
      · cases hlink
      next hfree =>
        have hfree : w.tree (root ++ entry.1) = none := by simpa using hfree
        cases hlink
        exact ⟨h.add hentry hfree, .cons (h.locate_base hsource) hfile hfree (.nil _)⟩
    · cases hlink
  · cases hok

/-- A pass makes some of the hard links and defers the others. -/
theorem LinkedOver.materializePass {base : FileTree} {entries deferred : List (List Str × List Str)}
    {progress : Bool} (h : LinkedOver root base w)
    (hentries : ∀ entry ∈ entries, LinkEntry root base entry)
    (hok : materializePass root w entries = .ok (w', deferred, progress)) :
    LinkedOver root base w' ∧ ∃ made, (made ++ deferred).Perm entries ∧
      Links root base w made w' := by
  induction entries generalizing w w' deferred progress with
  | nil =>
    cases hok
    exact ⟨h, [], List.Perm.refl _, .nil _⟩
  | cons entry rest ih =>
    obtain ⟨⟨w₁, one⟩, hone, hok⟩ := bind_eq_ok_iff.mp hok
    obtain ⟨⟨w₂, others, progressed⟩, hrest, hok⟩ := bind_eq_ok_iff.mp hok
    obtain ⟨h₁, hlinks⟩ := h.materializeOne (hentries entry (by simp)) hone
    obtain ⟨h₂, made, hperm, hlinks'⟩ := ih h₁ (fun e he => hentries e (by simp [he])) hrest
    cases hok
    cases one with
    | true => exact ⟨h₂, entry :: made, hperm.cons entry, by simpa using hlinks.append hlinks'⟩
    | false =>
      refine ⟨h₂, made, ?_, by simpa using hlinks.append hlinks'⟩
      exact List.perm_middle.trans (hperm.cons entry)

/-- Hard links that all could be made were made in some order. -/
theorem LinkedOver.materializeHardlinks {base : FileTree} {fuel : Nat}
    {entries : List (List Str × List Str)} (h : LinkedOver root base w)
    (hentries : ∀ entry ∈ entries, LinkEntry root base entry)
    (hok : materializeHardlinks root fuel w entries = .ok w') :
    ∃ order, order.Perm entries ∧ Links root base w order w' := by
  induction fuel generalizing w entries with
  | zero =>
    cases entries with
    | nil => cases hok; exact ⟨[], List.Perm.refl _, .nil _⟩
    | cons entry rest => cases hok
  | succ fuel ih =>
    cases entries with
    | nil => cases hok; exact ⟨[], List.Perm.refl _, .nil _⟩
    | cons entry rest =>
      obtain ⟨⟨w₁, deferred, progress⟩, hpass, hok⟩ := bind_eq_ok_iff.mp hok
      obtain ⟨h₁, made, hperm, hlinks⟩ := h.materializePass hentries hpass
      dsimp only at hok
      split at hok
      · cases hok
      obtain ⟨order, horder, hlinks'⟩ := ih h₁
        (fun e he => hentries e (hperm.mem_iff.mp (List.mem_append_right _ he))) hok
      exact ⟨made ++ order, (horder.append_left made).trans hperm, hlinks.append hlinks'⟩

/-- A pass that makes progress defers fewer hard links than it was given. -/
theorem length_materializePass {entries deferred : List (List Str × List Str)} {progress : Bool}
    (hok : materializePass root w entries = .ok (w', deferred, progress)) :
    deferred.length ≤ entries.length ∧ (progress = true → deferred.length < entries.length) := by
  induction entries generalizing w w' deferred progress with
  | nil => cases hok; simp
  | cons entry rest ih =>
    obtain ⟨⟨w₁, one⟩, hone, hok⟩ := bind_eq_ok_iff.mp hok
    obtain ⟨⟨w₂, others, progressed⟩, hrest, hok⟩ := bind_eq_ok_iff.mp hok
    have hlength := ih hrest
    cases hok
    cases one with
    | true => exact ⟨by simp; omega, by simp; omega⟩
    | false => exact ⟨by simp; omega, by simpa using hlength.2⟩

/-- More passes than hard links change nothing. -/
theorem materializeHardlinks_of_length_le {fuel : Nat} {entries : List (List Str × List Str)}
    (h : entries.length ≤ fuel) :
    materializeHardlinks root (fuel + 1) w entries = materializeHardlinks root fuel w entries := by
  induction fuel generalizing w entries with
  | zero =>
    obtain rfl := List.length_eq_zero_iff.mp (Nat.le_zero.mp h)
    rfl
  | succ fuel ih =>
    cases entries with
    | nil => rfl
    | cons entry rest =>
      simp only [OpenCollabEval.materializeHardlinks]
      rcases hpass : materializePass root w (entry :: rest) with e | ⟨w₁, deferred, progress⟩
      · rfl
      · obtain ⟨hle, hlt⟩ := length_materializePass hpass
        simp only [ok_bind]
        split
        · rfl
        next hgo =>
          refine ih ?_
          cases deferred with
          | nil => simp
          | cons e others =>
            have := hlt (by simpa using hgo)
            omega

/-- What the kernel finds under the target of a hard link. -/
theorem LinkEntry.locate {base : FileTree} {entry : List Str × List Str} {source : List Str}
    (h : LinkEntry root base entry) :
    base.locate (root ++ entry.2) = some source ↔
      ∃ dir, base.resolve (root ++ entry.2.dropLast) = some dir ∧
        dir ++ [entry.2.getLast h.target] = source := by
  have hlast : (root ++ entry.2).getLast? = some (entry.2.getLast h.target) := by
    rw [List.getLast?_append, List.getLast?_eq_some_getLast h.target]
    rfl
  have hinit : (root ++ entry.2).dropLast = root ++ entry.2.dropLast :=
    List.dropLast_append_of_ne_nil h.target
  simp [FileTree.locate, hlast, hinit, Option.bind_eq_some_iff]

/-- Hard links that were made are among the events, each with what was found under its target. -/
theorem Links.linked {base : FileTree} {order : List (List Str × List Str)}
    (h : Links root base w order w') (hover : LinkedOver root base w)
    (hentries : ∀ entry ∈ order, LinkEntry root base entry) :
    (∀ e ∈ w.events, e ∈ w'.events) ∧ ∀ entry ∈ order, ∃ source, source ≠ root ∧
      base.locate (root ++ entry.2) = some source ∧
      FileEvent.linked source (root ++ entry.1) ∈ w'.events := by
  induction h with
  | nil w => simp
  | cons located found free links ih =>
    obtain ⟨hevents, hlinked⟩ := ih (hover.add (hentries _ (by simp)) free)
      fun entry hentry => hentries entry (by simp [hentry])
    refine ⟨fun e he => hevents e (List.mem_append_left _ he), fun entry hentry => ?_⟩
    rcases List.mem_cons.mp hentry with rfl | hrest
    · refine ⟨_, ?_, located, hevents _ (List.mem_append_right _ (by simp))⟩
      rintro rfl
      rw [hover.ancestors _ List.prefix_rfl] at found
      cases found
    · exact hlinked entry hrest

/-- Hard links leave what was there. -/
theorem Links.extends {base : FileTree} {order : List (List Str × List Str)}
    (h : Links root base w order w') (hover : LinkedOver root base w)
    (hentries : ∀ entry ∈ order, LinkEntry root base entry) : base.Extends w'.tree := by
  induction h with
  | nil w => exact hover.grown
  | cons located found free links ih =>
    exact ih (hover.add (hentries _ (by simp)) free) fun e he => hentries e (by simp [he])

/-- Hard links whose targets are under the root keep a workspace to its root. -/
theorem Links.confined {base : FileTree} {order : List (List Str × List Str)}
    (h : Links root base w order w') (hover : LinkedOver root base w)
    (hconfined : Confined root contents w)
    (hentries : ∀ entry ∈ order, LinkEntry root base entry)
    (hinside : ∀ entry ∈ order, ∀ source, base.locate (root ++ entry.2) = some source →
      root <+: source) :
    Confined root contents w' ∧ LinkedOver root base w' := by
  induction h with
  | nil w => exact ⟨hconfined, hover⟩
  | @cons w w' entry rest source content located found free links ih =>
    have hentry := hentries entry (by simp)
    have hsource := hinside entry (by simp) source located
    refine ih (hover.add hentry free) ?_ (fun e he => hentries e (by simp [he]))
      fun e he => hinside e (by simp [he])
    have hsplit : root ++ entry.1 =
        (root ++ entry.1.dropLast) ++ [entry.1.getLast hentry.nonempty] := by
      rw [List.append_assoc, List.dropLast_append_getLast]
    rw [hsplit] at free ⊢
    refine hconfined.add (List.prefix_append _ _) (hover.grown _ _ hentry.parent) free ?_ ?_ rfl
    · rintro c hc
      cases hc
      exact hconfined.contents source content hsource found
    · intro place hplace
      rcases List.mem_cons.mp hplace with rfl | hplace
      · exact hsource
      · rw [List.mem_singleton.mp hplace, List.append_assoc]
        exact List.prefix_append _ _

/-- A restored mode changes no node. -/
theorem restoreMode_eq_ok {entry : List Str × Nat} (hok : restoreMode root w entry = .ok w') :
    w'.tree = w.tree ∧ (∀ e ∈ w.events, e ∈ w'.events) ∧
      (Confined root contents w → FileTree.dotdot ∉ entry.1 →
        w.tree (root ++ entry.1) = some .directory → Confined root contents w') := by
  unfold restoreMode at hok
  split at hok
  · cases hok
    exact ⟨rfl, fun _ he => he, fun h _ _ => h⟩
  split at hok
  · unfold Workspace.chmod at hok
    split at hok
    · cases hok
    next place hplace =>
      cases hok
      refine ⟨rfl, fun e he => List.mem_append_left _ he, fun h hnames hdir => ?_⟩
      have hself := @FileTree.resolve_of_directories w.tree (root ++ entry.1)
        (by simp [h.names, hnames]) (h.directories hdir)
      obtain rfl : root ++ entry.1 = place := Option.some.inj (hself.symm.trans hplace)
      refine ⟨⟨h.names, h.ancestors, h.closed⟩, h.contents, ?_, ?_, ?_⟩
      · intro e he
        rcases List.mem_append.mp he with hold | hnew
        · exact h.inside e hold
        · obtain rfl := List.mem_singleton.mp hnew
          simp [FileEvent.places]
      · simpa [List.filterMap_append, List.filterMap_cons, FileEvent.made] using h.distinct
      · simpa [List.filterMap_append, List.filterMap_cons, FileEvent.made] using h.present
  · cases hok
  · cases hok

/-- Restored modes change no node. -/
theorem restoreModes_eq_ok {entries : List (List Str × Nat)}
    (hok : entries.foldlM (restoreMode root) w = .ok w') :
    w'.tree = w.tree ∧ (∀ e ∈ w.events, e ∈ w'.events) ∧
      (Confined root contents w → (∀ entry ∈ entries, FileTree.dotdot ∉ entry.1 ∧
        w.tree (root ++ entry.1) = some .directory) → Confined root contents w') := by
  induction entries generalizing w with
  | nil =>
    cases hok
    exact ⟨rfl, fun _ he => he, fun h _ => h⟩
  | cons entry rest ih =>
    rw [List.foldlM_cons] at hok
    obtain ⟨w₁, hfirst, hrest⟩ := bind_eq_ok_iff.mp hok
    obtain ⟨htree, hevents, hkeeps⟩ := @restoreMode_eq_ok _ contents _ _ _ hfirst
    obtain ⟨htree', hevents', hkeeps'⟩ := ih hrest
    refine ⟨htree'.trans htree, fun e he => hevents' e (hevents e he), fun h hentries => ?_⟩
    have hone := hentries entry (by simp)
    refine hkeeps' (hkeeps h hone.1 hone.2) fun e he => ?_
    rw [htree]
    exact hentries e (by simp [he])

/-- An extraction that kept to its root, replaced nothing and stayed within its bound. -/
structure ExtractionConfined (root : List Str) (host : FileTree) (archive : List Member)
    (final : Workspace) : Prop where
  inside : ∀ e ∈ final.events, ∀ place ∈ e.places, root <+: place
  contents : ∀ place c, root <+: place → final.tree place = some (.file c) →
    c ∈ fileContents archive
  distinct : (final.events.filterMap FileEvent.made).Nodup
  kept : ∀ before after st, archive = before ++ after →
    extractMembers root host before = .ok st → st.workspace.tree.Extends final.tree
  bounded : ((fileContents archive).map List.length).sum ≤ maxWorkspaceExtractedBytes

/-- The symlinks among the directories of the hard link targets do not lead out of the root. -/
def TargetsInside (root : List Str) (st : Extraction) : Prop :=
  ∀ entry ∈ st.pending, ∀ dir,
    st.workspace.tree.resolve (root ++ entry.2.dropLast) = some dir → root <+: dir

/-- The members of an archive are extracted within an empty root. -/
theorem EmptyRoot.extractMembers {host : FileTree} {archive : List Member} {st : Extraction}
    (h : EmptyRoot host root) (hcontents : ∀ c ∈ fileContents archive, c ∈ contents)
    (hok : extractMembers root host archive = .ok st) :
    st.Inv root contents ∧ st.extracted = ((fileContents archive).map List.length).sum := by
  have hstart : (⟨⟨host, []⟩, 0, [], []⟩ : Extraction).Inv root contents :=
    ⟨h.confined, by simp, by simp, by simp⟩
  obtain ⟨hinv, -, htotal⟩ := hstart.extractMembers hcontents hok
  exact ⟨hinv, by simpa using htotal⟩

/-- The hard links and modes that follow the members. -/
theorem Extraction.Inv.finish {st : Extraction} {final : Workspace}
    (h : st.Inv root contents) (hok : finishExtraction root st = .ok final) :
    st.workspace.tree.Extends final.tree ∧
      (TargetsInside root st → Confined root contents final) ∧
      ∀ entry ∈ st.pending, ∃ source, source ≠ root ∧
        st.workspace.tree.locate (root ++ entry.2) = some source ∧
        FileEvent.linked source (root ++ entry.1) ∈ final.events := by
  obtain ⟨linked, hlinks, hmodes⟩ := bind_eq_ok_iff.mp hok
  have hover : LinkedOver root st.workspace.tree st.workspace :=
    { toRooted := h.confined.toRooted
      grown := FileTree.Extends.refl
      passable := fun _ _ hnode _ => hnode }
  have hentries : ∀ entry ∈ st.pending, LinkEntry root st.workspace.tree entry :=
    fun entry hentry => by
      obtain ⟨hne, hnames, htarget, hparent⟩ := h.pending entry hentry
      exact ⟨hne, hnames, htarget, hparent⟩
  obtain ⟨order, hperm, hrun⟩ := hover.materializeHardlinks hentries hlinks
  have horder : ∀ entry ∈ order, LinkEntry root st.workspace.tree entry :=
    fun entry hentry => hentries entry (hperm.mem_iff.mp hentry)
  obtain ⟨htree, hevents, hkeeps⟩ := @restoreModes_eq_ok _ contents _ _ _ hmodes
  have hgrown := hrun.extends hover horder
  refine ⟨fun path node hnode => by rw [htree]; exact hgrown path node hnode, fun hinside => ?_,
    fun entry hentry => ?_⟩
  · have hsources : ∀ entry ∈ order, ∀ source,
        st.workspace.tree.locate (root ++ entry.2) = some source → root <+: source := by
      intro entry hentry source hsource
      obtain ⟨dir, hdir, rfl⟩ := (horder entry hentry).locate.mp hsource
      exact (hinside entry (hperm.mem_iff.mp hentry) dir hdir).trans (List.prefix_append _ _)
    obtain ⟨hconfined, -⟩ := hrun.confined hover h.confined horder hsources
    refine hkeeps hconfined fun entry hentry => ?_
    have hmode := h.modes entry ((List.mergeSort_perm _ _).mem_iff.mp hentry)
    exact ⟨hmode.1, hgrown _ _ hmode.2⟩
  · obtain ⟨source, hne, hlocate, hevent⟩ :=
      (hrun.linked hover horder).2 entry (hperm.mem_iff.mpr hentry)
    exact ⟨source, hne, hlocate, hevents _ hevent⟩

/-- An extraction that returns is confined to its empty root exactly when no symlink among the
directories of a hard link target leads out of the root. -/
theorem extraction_confined_iff {host : FileTree} {archive : List Member} {st : Extraction}
    {final : Workspace} (hroot : EmptyRoot host root)
    (hmembers : extractMembers root host archive = .ok st)
    (hok : finishExtraction root st = .ok final) :
    ExtractionConfined root host archive final ↔ TargetsInside root st := by
  obtain ⟨hinv, htotal⟩ := @EmptyRoot.extractMembers _ (fileContents archive) _ _ _ hroot
    (fun _ hc => hc) hmembers
  obtain ⟨hgrown, hconfined, hlinked⟩ := hinv.finish hok
  constructor
  · intro h entry hentry dir hdir
    obtain ⟨source, hne, hlocate, hevent⟩ := hlinked entry hentry
    obtain ⟨hnonempty, hnames, htarget, hparent⟩ := hinv.pending entry hentry
    have hentry' : LinkEntry root st.workspace.tree entry := ⟨hnonempty, hnames, htarget, hparent⟩
    obtain ⟨dir', hdir', hsource⟩ := hentry'.locate.mp hlocate
    obtain rfl : dir' = dir := Option.some.inj (hdir'.symm.trans hdir)
    have hinside := h.inside _ hevent source (by simp [FileEvent.places])
    -- the root itself is a directory, so what was linked lies below it
    rw [← hsource, List.prefix_concat_iff] at hinside
    rcases hinside with heq | hinside
    · exact absurd (hsource.symm.trans heq.symm) hne
    · exact hinside
  · intro h
    have hfinal := hconfined h
    refine ⟨hfinal.inside, hfinal.contents, hfinal.distinct, ?_, htotal ▸ hinv.bounded⟩
    rintro before after st₀ rfl hbefore
    obtain ⟨hinv₀, -⟩ := @EmptyRoot.extractMembers _ (fileContents (before ++ after)) _ _ _ hroot
      (fun c hc => by rw [fileContents, List.filterMap_append]; exact List.mem_append_left _ hc)
      hbefore
    have hrest : after.foldlM (OpenCollabEval.extractMember root) st₀ = .ok st := by
      unfold extractMembers at hmembers hbefore
      rw [List.foldlM_append, hbefore] at hmembers
      exact hmembers
    obtain ⟨-, hextends, -⟩ := hinv₀.extractMembers
      (fun c hc => by rw [fileContents, List.filterMap_append]; exact List.mem_append_right _ hc)
      hrest
    exact hextends.trans hgrown

/-- A host with a root directory `r` and a file `h/p` outside it. -/
def sampleHost : FileTree := fun path =>
  if path = [] ∨ path = lits ["r"] ∨ path = lits ["h"] then some .directory
  else if path = lits ["h", "p"] then some (.file (lit "secret")) else none

theorem sampleHost_emptyRoot : EmptyRoot sampleHost (lits ["r"]) where
  names := by decide
  ancestors := by
    intro q hq
    rcases List.prefix_cons_iff.mp hq with rfl | ⟨t, rfl, ht⟩
    · rfl
    · rw [List.prefix_nil.mp ht]
      rfl
  empty := by
    intro path hpath
    obtain ⟨name, rest, rfl⟩ := List.exists_cons_of_ne_nil hpath
    simp [sampleHost, lits, lit]

/-- A symlink `d` out of the root, and a hard link through it. -/
def leakingArchive : List Member :=
  [⟨"d", 0o777, .symlink "/h"⟩, ⟨"x", 0o644, .hardlink "d/p"⟩]

/-- A directory with a file, and a hard link to it. -/
def plainArchive : List Member :=
  [⟨"d", 0o755, .directory⟩, ⟨"d/f", 0o644, .file 1 (some (lit "a"))⟩,
    ⟨"x", 0o644, .hardlink "d/f"⟩]

/-- A hard link through a symlink puts a file of the host under the root. -/
theorem extraction_confined_fails_through_symlink :
    EmptyRoot sampleHost (lits ["r"]) ∧ fileContents leakingArchive = [] ∧
    ((extractMembers (lits ["r"]) sampleHost leakingArchive >>=
      finishExtraction (lits ["r"])).toOption.map fun final =>
        final.tree (lits ["r", "x"])) = some (some (.file (lit "secret"))) :=
  ⟨sampleHost_emptyRoot, by decide +kernel, by decide +kernel⟩

/-- An archive without symlinks is extracted within its root. -/
theorem extraction_confined_without_symlinks :
    ∃ st final, extractMembers (lits ["r"]) sampleHost plainArchive = .ok st ∧
      finishExtraction (lits ["r"]) st = .ok final ∧
      ExtractionConfined (lits ["r"]) sampleHost plainArchive final := by
  have hrun : (extractMembers (lits ["r"]) sampleHost plainArchive >>=
      finishExtraction (lits ["r"])).isOk = true := by decide +kernel
  rcases hmembers : extractMembers (lits ["r"]) sampleHost plainArchive with e | st
  · rw [hmembers] at hrun
    cases hrun
  rcases hfinal : finishExtraction (lits ["r"]) st with e | final
  · rw [hmembers, ok_bind, hfinal] at hrun
    cases hrun
  refine ⟨st, final, rfl, hfinal, ?_⟩
  have htargets : ((extractMembers (lits ["r"]) sampleHost plainArchive).toOption.map fun st =>
      (st.pending.map (·.2), st.workspace.tree.resolve (lits ["r", "d"]))) =
        some ([lits ["d", "f"]], some (lits ["r", "d"])) := by decide +kernel
  rw [hmembers] at htargets
  obtain ⟨hpending, hresolve⟩ := Prod.mk.inj (Option.some.inj htargets)
  refine (extraction_confined_iff sampleHost_emptyRoot hmembers hfinal).mpr ?_
  intro entry hentry dir hdir
  have htarget : entry.2 = lits ["d", "f"] := by
    have hmem := List.mem_map_of_mem (f := fun e : List Str × List Str => e.2) hentry
    simpa [hpending] using hmem
  rw [htarget] at hdir
  obtain rfl : lits ["r", "d"] = dir := Option.some.inj (hresolve.symm.trans hdir)
  exact ⟨lits ["d"], rfl⟩

end OpenCollabEval
