import Mathlib.Logic.Function.Basic
import OpenCollabEval.Python.Text

/-!
# A directory with hard links

The names of one directory and the inodes they lead to. Several names may lead to one inode. When no
name leads to an inode any more, its number may be used again: a new file gets any number that is
free. What tells a file from the files that had its number before is its serial number, which no
system call shows.

A call that fails leaves the directory as it was.
-/

namespace Posix

open Python

/-- What an inode is. -/
inductive InodeKind where
  | regular
  | directory
  | other
  deriving DecidableEq

/-- An inode. -/
structure Inode where
  serial : Nat
  kind : InodeKind
  content : List Nat

/-- The names of a directory, and the inodes. -/
structure LinkDirectory (ι : Type) where
  names : List (Str × ι)
  inodes : ι → Inode

/-- Why a link is not made. -/
inductive LinkError where
  | fileExists
  | other

namespace LinkDirectory

variable {ι : Type} (d : LinkDirectory ι)

/-- The number of the inode at a name. -/
def lookup (name : Str) : Option ι := d.names.lookup name

/-- A name leads to the inode. -/
def Live (i : ι) : Prop := ∃ name, d.lookup name = some i

/-- No name leads to the inode. -/
def isFree [DecidableEq ι] (i : ι) : Bool := d.names.all fun entry => d.lookup entry.1 != some i

/-- A name leads to an inode, wherever it led before. -/
def put (name : Str) (i : ι) : LinkDirectory ι :=
  { d with names := (name, i) :: d.names.filter (·.1 != name) }

/-- A name is gone. -/
def remove (name : Str) : LinkDirectory ι := { d with names := d.names.filter (·.1 != name) }

/-- An inode number stands for another inode. -/
def setInode [DecidableEq ι] (i : ι) (inode : Inode) : LinkDirectory ι :=
  { d with inodes := Function.update d.inodes i inode }

/-- `rename` of a file. Two names of one file stay as they are, and a file replaces no directory. -/
def rename [DecidableEq ι] (source target : Str) : Option (LinkDirectory ι) :=
  match d.lookup source with
  | none => none
  | some i =>
    match d.lookup target with
    | none => some ((d.remove source).put target i)
    | some j =>
      if j = i then some d
      else if (d.inodes j).kind = .directory then none
      else some ((d.remove source).put target i)

/-- `link`. A directory has one name only. -/
def link (source target : Str) : Except LinkError (LinkDirectory ι) :=
  match d.lookup source with
  | none => .error .other
  | some i =>
    if (d.lookup target).isSome then .error .fileExists
    else if (d.inodes i).kind = .directory then .error .other
    else .ok (d.put target i)

/-- `unlink`. -/
def unlink (name : Str) : Option (LinkDirectory ι) :=
  match d.lookup name with
  | none => none
  | some i => if (d.inodes i).kind = .directory then none else some (d.remove name)

/-- `open` with `O_CREAT | O_EXCL`: an empty file with a number that is free. -/
def create [DecidableEq ι] (name : Str) (i : ι) (serial : Nat) : Option (LinkDirectory ι) :=
  if (d.lookup name).isSome then none else some ((d.setInode i ⟨serial, .regular, []⟩).put name i)

/-- `write` to a file that was opened, after what is in it. -/
def append [DecidableEq ι] (i : ι) (bytes : List Nat) : LinkDirectory ι :=
  d.setInode i { d.inodes i with content := (d.inodes i).content ++ bytes }

/-- The files that have a name are told apart by their serial numbers, and none has a later one. -/
structure Numbered (serials : Nat) : Prop where
  lt : ∀ i, d.Live i → (d.inodes i).serial < serials
  injective : ∀ i j, d.Live i → d.Live j → (d.inodes i).serial = (d.inodes j).serial → i = j

variable {d} {d' : LinkDirectory ι} {name other source target : Str} {i j : ι}

@[simp]
theorem lookup_put_self (i : ι) : (d.put name i).lookup name = some i := by
  simp [put, lookup]

theorem lookup_filter_of_ne (h : other ≠ name) :
    (d.names.filter (·.1 != name)).lookup other = d.names.lookup other := by
  induction d.names with
  | nil => rfl
  | cons entry rest ih =>
    obtain ⟨key, value⟩ := entry
    by_cases hkey : key = name
    · subst hkey
      rw [List.filter_cons_of_neg (by simp), ih, List.lookup_cons, beq_eq_false_iff_ne.mpr h]
    · rw [List.filter_cons_of_pos (by simpa using hkey), List.lookup_cons, List.lookup_cons, ih]

theorem lookup_put_of_ne (h : other ≠ name) (i : ι) :
    (d.put name i).lookup other = d.lookup other := by
  rw [lookup, put, List.lookup_cons, beq_eq_false_iff_ne.mpr h]
  exact lookup_filter_of_ne h

@[simp]
theorem lookup_remove_self : (d.remove name).lookup name = none := by
  rw [lookup, remove, List.lookup_eq_none_iff]
  intro entry hentry
  have hne : entry.1 ≠ name := by simpa using (List.mem_filter.mp hentry).2
  exact bne_iff_ne.mpr hne.symm

theorem lookup_remove_of_ne (h : other ≠ name) : (d.remove name).lookup other = d.lookup other :=
  lookup_filter_of_ne h

@[simp]
theorem inodes_put (i : ι) : (d.put name i).inodes = d.inodes := rfl

@[simp]
theorem inodes_remove : (d.remove name).inodes = d.inodes := rfl

/-- What a name leads to after a change of one name. -/
theorem lookup_put_eq_some (h : (d.put name i).lookup other = some j) :
    (other = name ∧ j = i) ∨ (other ≠ name ∧ d.lookup other = some j) := by
  by_cases hname : other = name
  · subst hname
    rw [lookup_put_self] at h
    exact .inl ⟨rfl, (Option.some.inj h).symm⟩
  · exact .inr ⟨hname, by rwa [lookup_put_of_ne hname] at h⟩

/-- What a name leads to after a removal. -/
theorem lookup_remove_eq_some (h : (d.remove name).lookup other = some j) :
    other ≠ name ∧ d.lookup other = some j := by
  by_cases hname : other = name
  · subst hname
    rw [lookup_remove_self] at h
    cases h
  · exact ⟨hname, by rwa [lookup_remove_of_ne hname] at h⟩

theorem link_eq_ok (h : d.link source target = .ok d') :
    ∃ i, d.lookup source = some i ∧ d.lookup target = none ∧ d' = d.put target i := by
  rw [link] at h
  cases hsource : d.lookup source with
  | none => simp [hsource] at h
  | some i =>
    rw [hsource] at h
    dsimp only at h
    split_ifs at h with hexists
    cases h
    exact ⟨i, rfl, by simpa using hexists, rfl⟩

theorem unlink_eq_some (h : d.unlink name = some d') : d' = d.remove name := by
  rw [unlink] at h
  cases hname : d.lookup name with
  | none => simp [hname] at h
  | some i =>
    rw [hname] at h
    dsimp only at h
    split_ifs at h
    exact (Option.some.inj h).symm

theorem Live.of_remove (h : (d.remove name).Live j) : d.Live j := by
  obtain ⟨other, hother⟩ := h
  exact ⟨other, (lookup_remove_eq_some hother).2⟩

/-- A second name of a file makes no other file live. -/
theorem Live.of_put (hi : d.Live i) (h : (d.put name i).Live j) : d.Live j := by
  obtain ⟨other, hother⟩ := h
  rcases lookup_put_eq_some hother with ⟨-, rfl⟩ | ⟨-, hother⟩
  · exact hi
  · exact ⟨other, hother⟩

/-- The numbering stays when no file gets live and none is renumbered. -/
theorem Numbered.mono {serials : Nat} (h : d.Numbered serials)
    (hlive : ∀ j, d'.Live j → d.Live j ∧ (d'.inodes j).serial = (d.inodes j).serial) :
    d'.Numbered serials := by
  constructor
  · intro i hi
    rw [(hlive i hi).2]
    exact h.lt i (hlive i hi).1
  · intro i j hi hj hserial
    rw [(hlive i hi).2, (hlive j hj).2] at hserial
    exact h.injective i j (hlive i hi).1 (hlive j hj).1 hserial

section Inodes

variable [DecidableEq ι]

theorem isFree_iff : d.isFree i = true ↔ ¬d.Live i := by
  rw [isFree, List.all_eq_true]
  constructor
  · rintro hall ⟨name, hname⟩
    obtain ⟨before, after, hsplit, -⟩ := List.lookup_eq_some_iff.mp hname
    have hentry := hall (name, i) (by simp [hsplit])
    simp [hname] at hentry
  · intro hlive entry _
    rw [bne_iff_ne]
    exact fun hentry => hlive ⟨entry.1, hentry⟩

@[simp]
theorem lookup_setInode (inode : Inode) : (d.setInode i inode).lookup name = d.lookup name := rfl

@[simp]
theorem lookup_append (bytes : List Nat) : (d.append i bytes).lookup name = d.lookup name := rfl

theorem inodes_setInode_self (inode : Inode) : (d.setInode i inode).inodes i = inode :=
  Function.update_self ..

theorem inodes_setInode_of_ne (h : j ≠ i) (inode : Inode) :
    (d.setInode i inode).inodes j = d.inodes j :=
  Function.update_of_ne h ..

/-- A file that is renamed has its new name afterwards. It keeps the old one only when the two were
names of one file before, and nothing is changed then. -/
theorem rename_eq_some (h : d.rename source target = some d') :
    ∃ i, d.lookup source = some i ∧
      ((d' = d ∧ d.lookup target = some i) ∨ d' = (d.remove source).put target i) := by
  rw [rename] at h
  cases hsource : d.lookup source with
  | none => simp [hsource] at h
  | some i =>
    refine ⟨i, rfl, ?_⟩
    rw [hsource] at h
    cases htarget : d.lookup target with
    | none =>
      rw [htarget] at h
      exact .inr (Option.some.inj h).symm
    | some j =>
      rw [htarget] at h
      dsimp only at h
      split_ifs at h with hsame
      · exact .inl ⟨(Option.some.inj h).symm, hsame ▸ rfl⟩
      · exact .inr (Option.some.inj h).symm

theorem create_eq_some {serial : Nat} (h : d.create name i serial = some d') :
    d.lookup name = none ∧ d' = (d.setInode i ⟨serial, .regular, []⟩).put name i := by
  rw [create] at h
  split_ifs at h with hexists
  exact ⟨by simpa using hexists, (Option.some.inj h).symm⟩

/-- A renamed file was live. -/
theorem Live.of_rename (h : d.rename source target = some d') (hj : d'.Live j) :
    d.Live j ∧ d'.inodes j = d.inodes j := by
  obtain ⟨i, hsource, ⟨rfl, -⟩ | rfl⟩ := rename_eq_some h
  · exact ⟨hj, rfl⟩
  · obtain ⟨other, hother⟩ := hj
    refine ⟨?_, rfl⟩
    rcases lookup_put_eq_some hother with ⟨-, rfl⟩ | ⟨-, hother⟩
    · exact ⟨source, hsource⟩
    · exact Live.of_remove ⟨other, hother⟩

/-- What is live after a new file got a name. -/
theorem Live.of_new {inode : Inode} (h : ((d.setInode i inode).put name i).Live j) :
    j = i ∨ d.Live j := by
  obtain ⟨other, hother⟩ := h
  rcases lookup_put_eq_some hother with ⟨-, rfl⟩ | ⟨-, hother⟩
  · exact .inl rfl
  · exact .inr ⟨other, hother⟩

/-- A new file with the next serial number. -/
theorem Numbered.new {serials : Nat} {inode : Inode} (h : d.Numbered serials)
    (hserial : inode.serial = serials) :
    ((d.setInode i inode).put name i).Numbered (serials + 1) := by
  have hold (j : ι) (hj : j ≠ i) : ((d.setInode i inode).put name i).inodes j = d.inodes j :=
    inodes_setInode_of_ne hj inode
  have hnew : ((d.setInode i inode).put name i).inodes i = inode := inodes_setInode_self inode
  have hbelow (j : ι) (hj : ((d.setInode i inode).put name i).Live j) (hne : j ≠ i) :
      (d.inodes j).serial < serials := h.lt j (hj.of_new.resolve_left hne)
  constructor
  · intro j hj
    by_cases hji : j = i
    · rw [hji, hnew, hserial]
      exact Nat.lt_succ_self _
    · rw [hold j hji]
      exact Nat.lt_succ_of_lt (hbelow j hj hji)
  · intro j k hj hk hjk
    by_cases hji : j = i <;> by_cases hki : k = i
    · rw [hji, hki]
    · have hlt := hbelow k hk hki
      rw [hji, hnew, hold k hki] at hjk
      omega
    · have hlt := hbelow j hj hji
      rw [hki, hnew, hold j hji] at hjk
      omega
    · rw [hold j hji, hold k hki] at hjk
      exact h.injective j k (hj.of_new.resolve_left hji) (hk.of_new.resolve_left hki) hjk

@[simp]
theorem serial_append (bytes : List Nat) :
    ((d.append i bytes).inodes j).serial = (d.inodes j).serial := by
  by_cases hj : j = i
  · rw [hj, append, inodes_setInode_self]
  · rw [append, inodes_setInode_of_ne hj]

@[simp]
theorem kind_append (bytes : List Nat) :
    ((d.append i bytes).inodes j).kind = (d.inodes j).kind := by
  by_cases hj : j = i
  · rw [hj, append, inodes_setInode_self]
  · rw [append, inodes_setInode_of_ne hj]

end Inodes

end LinkDirectory

end Posix
