import OpenCollabEval.Python.Path

/-!
# File trees

A file system as a map from physical paths (no symlinks, no `..`) to nodes, and the resolution of a
path by the kernel: directories are entered, symlinks are followed, at most forty of them in one
path.
-/

namespace Posix

open Python

/-- What a directory entry is. -/
inductive Node where
  | directory
  | file (content : List Nat)
  | symlink (target : Str)
  | special
  deriving DecidableEq

/-- A node that path resolution goes through. -/
def Node.passable : Node → Bool
  | .directory | .symlink _ => true
  | _ => false

/-- The nodes of a file system by their physical path. -/
abbrev FileTree := List Str → Option Node

namespace FileTree

variable (t : FileTree)

/-- The entry of the parent directory. -/
def dotdot : Str := lit ".."

/-- Walk through directories; `follow` goes on at a symlink, from its directory with its target and
the names that are left. -/
def walk (follow : List Str → Str → List Str → Option (List Str)) :
    List Str → List Str → Option (List Str)
  | dir, [] => some dir
  | dir, name :: rest =>
    if name = dotdot then walk follow dir.dropLast rest
    else
      match t (dir ++ [name]) with
      | some .directory => walk follow (dir ++ [name]) rest
      | some (.symlink target) => follow dir target rest
      | _ => none

/-- The directory that names lead to from `dir`, through at most `links` symlinks. -/
def resolveFrom : Nat → List Str → List Str → Option (List Str)
  | 0 => walk t fun _ _ _ => none
  | links + 1 => walk t fun dir target rest =>
    let path := PosixPath.ofStr target
    resolveFrom links (if path.isAbsolute then [] else dir) (path.components ++ rest)

/-- The physical path of the directory at a path. -/
def resolve (path : List Str) : Option (List Str) := resolveFrom t 40 [] path

/-- The physical path at which a path has its last name: the symlinks before it are followed. -/
def locate (path : List Str) : Option (List Str) := do
  let name ← path.getLast?
  let dir ← t.resolve path.dropLast
  some (dir ++ [name])

/-- `lstat`, without the error that it ends in when there is nothing. -/
def lstat (path : List Str) : Option Node := do
  let place ← t.locate path
  t place

/-- A tree with one more node. -/
def insert (place : List Str) (node : Node) : FileTree :=
  fun path => if path = place then some node else t path

/-- The second tree has all nodes of the first. -/
def Extends (t t' : FileTree) : Prop := ∀ path node, t path = some node → t' path = some node

variable {t} {t' : FileTree}

@[simp]
theorem insert_self (place : List Str) (node : Node) : t.insert place node place = some node := by
  simp [insert]

theorem insert_of_ne {place path : List Str} (node : Node) (h : path ≠ place) :
    t.insert place node path = t path := by
  simp [insert, h]

theorem Extends.refl : t.Extends t := fun _ _ h => h

theorem Extends.trans {t'' : FileTree} (h : t.Extends t') (h' : t'.Extends t'') :
    t.Extends t'' := fun path node hnode => h' path node (h path node hnode)

/-- A node at a free place leaves the others. -/
theorem extends_insert {place : List Str} (node : Node) (hfree : t place = none) :
    t.Extends (t.insert place node) := by
  intro path old hold
  have hne : path ≠ place := by
    rintro rfl
    simp [hfree] at hold
  rw [insert_of_ne node hne, hold]

/-- Two trees that agree on what a walk goes through have the same walks. -/
theorem walk_of_agree {follow follow' : List Str → Str → List Str → Option (List Str)}
    (h : ∀ path node, t path = some node → node.passable = true → t' path = some node)
    (hfollow : ∀ dir target rest place, follow dir target rest = some place →
      follow' dir target rest = some place) {dir names place : List Str}
    (hwalk : walk t follow dir names = some place) : walk t' follow' dir names = some place := by
  induction names generalizing dir with
  | nil => exact hwalk
  | cons name rest ih =>
    rw [walk] at hwalk ⊢
    split at hwalk
    next hname => rw [if_pos hname]; exact ih hwalk
    next hname =>
      rw [if_neg hname]
      split at hwalk
      next hnode => rw [h _ _ hnode rfl]; exact ih hwalk
      next target hnode => rw [h _ _ hnode rfl]; exact hfollow _ _ _ _ hwalk
      · simp at hwalk

theorem resolveFrom_of_agree
    (h : ∀ path node, t path = some node → node.passable = true → t' path = some node)
    {links : Nat} {dir names place : List Str}
    (hresolve : t.resolveFrom links dir names = some place) :
    t'.resolveFrom links dir names = some place := by
  induction links generalizing dir names place with
  | zero => exact walk_of_agree h (by simp) hresolve
  | succ links ih => exact walk_of_agree h (fun _ _ _ _ hfollow => ih hfollow) hresolve

/-- A path resolves alike in two trees that agree on directories and symlinks. -/
theorem resolve_of_agree
    (h : ∀ path node, t path = some node → node.passable = true → t' path = some node)
    {path place : List Str} (hresolve : t.resolve path = some place) :
    t'.resolve path = some place := resolveFrom_of_agree h hresolve

theorem walk_of_directories {follow : List Str → Str → List Str → Option (List Str)}
    {dir names : List Str} (hnames : dotdot ∉ names)
    (h : ∀ path, path <+: names → path ≠ [] → t (dir ++ path) = some .directory) :
    walk t follow dir names = some (dir ++ names) := by
  induction names generalizing dir with
  | nil => simp [walk]
  | cons name rest ih =>
    have hne : name ≠ dotdot := fun heq => hnames (by simp [heq])
    have hnode := h [name] (by simp) (by simp)
    rw [walk, if_neg hne, hnode]
    dsimp only
    rw [ih (fun hmem => hnames (by simp [hmem])) fun path hpath _ => by
      have := h (name :: path) (by simpa using hpath) (by simp)
      simpa using this]
    simp

/-- A path of real directories is its own physical path. -/
theorem resolve_of_directories {path : List Str} (hnames : dotdot ∉ path)
    (h : ∀ q, q <+: path → t q = some .directory) : t.resolve path = some path := by
  have hwalk : ∀ follow, walk t follow [] path = some path := fun follow =>
    walk_of_directories hnames fun q hq _ => h q hq
  exact hwalk _

/-- A name in a path of real directories is where the path says. -/
theorem locate_of_directories {dir : List Str} (name : Str) (hnames : dotdot ∉ dir)
    (h : ∀ q, q <+: dir → t q = some .directory) :
    t.locate (dir ++ [name]) = some (dir ++ [name]) := by
  simp [locate, resolve_of_directories hnames h]

end FileTree

end Posix
