import OpenCollabEval.Batches.CellFamily
import OpenCollabEval.Python.JsonDocument
import OpenCollabEval.Order.Connected
import Mathlib.Data.List.Nodup

/-!
# The whole cell, or a `SpecError`

The search follows relations in both directions, so what it has seen when its stack is empty is a
connected component. A member that `parent_of` rejects stops it, and every member of the component is
reached before the stack is empty; hence the search fails exactly when the component has such a member.
The second pass fails exactly when a chain of parents does not end.
-/

open Python Relation

namespace OpenCollabEval

variable {specs : Obj} {name member : Str}

/-- A batch names another one as the batch that it retries or replaces. -/
def Related (specs : Obj) (member other : Str) : Prop := other ∈ relations (specs.get member)

/-- A spec sets both relations, or sets one that names no batch. -/
def MalformedRelation (spec : Obj) : Prop :=
  (Obj.get spec "retry_of" ≠ .null ∧ Obj.get spec "replaces" ≠ .null) ∨
    (Obj.get spec "retry_of" ≠ .null ∧ relationName (Obj.get spec "retry_of") = none) ∨
    (Obj.get spec "replaces" ≠ .null ∧
      relationName (replacedBatch (Obj.get spec "replaces")) = none)

/-- A name has no record with an object spec, a malformed relation, or a relation to itself. -/
def LocallyFaulty (specs : Obj) (member : Str) : Prop :=
  (specs.get member).asDict = none ∨
    (∃ spec, specs.get member = .dict spec ∧ MalformedRelation spec) ∨ Related specs member member

/-- A name that lies on a cycle of relations or leads into one. -/
def LeadsToCycle (specs : Obj) (member : Str) : Prop :=
  ∃ other, ReflTransGen (Related specs) member other ∧ TransGen (Related specs) other other

/-- A name that no cell may hold. -/
def Faulty (specs : Obj) (member : Str) : Prop :=
  LocallyFaulty specs member ∨ LeadsToCycle specs member

/-- The names that are connected to a batch through relations in either direction. -/
def InCell (specs : Obj) (name member : Str) : Prop := EqvGen (Related specs) name member

section Parents

theorem pointedParent_eq_ok_iff {parent : Str} {found : Option Str} :
    pointedParent member parent = .ok found ↔ parent ≠ member ∧ found = some parent := by
  unfold pointedParent
  split_ifs with h
  · simp [h]
  · simp [h, eq_comm]

theorem pointedParent_eq_error {parent : Str} {e : CellError}
    (h : pointedParent member parent = .error e) : parent = member ∧ ∃ fault, e = .specError fault := by
  unfold pointedParent at h
  split_ifs at h with hself
  cases h
  exact ⟨hself, _, rfl⟩

/-- What `parent_of` does with the two relations of a dict. -/
theorem parentOf_cases (spec : Obj) :
    (¬MalformedRelation spec ∧ relations (.dict spec) = [] ∧
        parentOf member (.dict spec) = .ok none) ∨
      (¬MalformedRelation spec ∧ ∃ named, relations (.dict spec) = [named] ∧
        parentOf member (.dict spec) = pointedParent member named) ∨
      (MalformedRelation spec ∧ ∃ fault, parentOf member (.dict spec) = .error (.specError fault)) := by
  rw [parentOf]
  split
  · next hreplaces hretry =>
    refine .inl ⟨by simp [MalformedRelation, hreplaces, hretry], ?_, rfl⟩
    rw [relations, hreplaces, hretry]
    rfl
  · next _ _ hreplaces hretry =>
    rcases hname : relationName (Obj.get spec "retry_of") with _ | named
    · exact .inr (.inr ⟨.inr (.inl ⟨hretry, hname⟩), _, rfl⟩)
    · refine .inr (.inl ⟨by simp [MalformedRelation, hreplaces, hname], named, ?_, rfl⟩)
      rw [relations, hreplaces, List.filterMap_cons, hname]
      rfl
  · next _ _ hretry hreplaces =>
    rcases hname : relationName (replacedBatch (Obj.get spec "replaces")) with _ | named
    · exact .inr (.inr ⟨.inr (.inr ⟨hreplaces, hname⟩), _, rfl⟩)
    · refine .inr (.inl ⟨by simp [MalformedRelation, hretry, hname], named, ?_, rfl⟩)
      rw [relations, hretry]
      simp only [List.filterMap_cons, hname]
      rfl
  · next hreplaces hretry _ => exact .inr (.inr ⟨.inl ⟨hretry, hreplaces⟩, _, rfl⟩)

/-- A member whose parent `parent_of` finds names that parent only, and has no fault of its own. -/
theorem of_parentOf_eq_ok {spec : Json} {parent : Option Str} (h : parentOf member spec = .ok parent) :
    relations spec = parent.toList ∧ member ∉ relations spec ∧
      ∃ o, spec = .dict o ∧ ¬MalformedRelation o := by
  cases spec with
  | dict spec =>
    rcases @parentOf_cases member spec with ⟨hsound, hnames, hcase⟩ | ⟨hsound, named, hnames, hcase⟩ |
      ⟨-, fault, hcase⟩
    · rw [hcase] at h
      cases h
      exact ⟨hnames, by simp [hnames], spec, rfl, hsound⟩
    · obtain ⟨hself, rfl⟩ := pointedParent_eq_ok_iff.mp (hcase ▸ h)
      exact ⟨hnames, by simpa [hnames] using hself.symm, spec, rfl, hsound⟩
    · rw [hcase] at h
      cases h
  | _ => cases h

/-- `parent_of` raises a `SpecError`, and only for a fault of the member. -/
theorem of_parentOf_eq_error {spec : Json} {e : CellError} (h : parentOf member spec = .error e) :
    (∃ fault, e = .specError fault) ∧ (spec.asDict = none ∨
      (∃ o, spec = .dict o ∧ MalformedRelation o) ∨ member ∈ relations spec) := by
  cases spec with
  | dict spec =>
    rcases @parentOf_cases member spec with ⟨-, -, hcase⟩ | ⟨-, named, hnames, hcase⟩ |
      ⟨hmalformed, fault, hcase⟩
    · rw [hcase] at h
      cases h
    · obtain ⟨rfl, hfault⟩ := pointedParent_eq_error (hcase ▸ h)
      exact ⟨hfault, .inr (.inr (by simp [hnames]))⟩
    · rw [hcase] at h
      cases h
      exact ⟨⟨_, rfl⟩, .inr (.inl ⟨spec, rfl, hmalformed⟩)⟩
  | _ =>
    cases h
    exact ⟨⟨_, rfl⟩, .inl rfl⟩

/-- A member whose parent `parent_of` finds has no fault of its own. -/
theorem not_locallyFaulty {parent : Option Str}
    (h : parentOf member (specs.get member) = .ok parent) : ¬LocallyFaulty specs member := by
  obtain ⟨-, hself, o, ho, hsound⟩ := of_parentOf_eq_ok h
  rintro (hnone | ⟨o', ho', hmalformed⟩ | hrelated)
  · rw [ho] at hnone
    cases hnone
  · rw [ho] at ho'
    cases ho'
    exact hsound hmalformed
  · exact hself hrelated

/-- A member on which `parent_of` raises has a fault of its own. -/
theorem locallyFaulty_of_parentOf_eq_error {e : CellError}
    (h : parentOf member (specs.get member) = .error e) : LocallyFaulty specs member :=
  (of_parentOf_eq_error h).2

end Parents

section Search

/-- The children of a member are the batches that name it. -/
theorem mem_childrenOf (hspecs : (specs.map (·.1)).Nodup) {other : Str} :
    other ∈ childrenOf specs member ↔ Related specs other member := by
  have hmem : other ∈ childrenOf specs member ↔
      ∃ spec, specs.lookup other = some spec ∧ member ∈ relations spec := by
    simp only [Obj.lookup_eq_some_iff_mem hspecs]
    simp only [childrenOf, List.mem_flatMap, List.mem_map, List.mem_filter, beq_iff_eq]
    constructor
    · rintro ⟨⟨key, spec⟩, hentry, named, ⟨hnamed, rfl⟩, rfl⟩
      exact ⟨spec, hentry, hnamed⟩
    · rintro ⟨spec, hentry, hnamed⟩
      exact ⟨(other, spec), hentry, member, ⟨hnamed, rfl⟩, rfl⟩
  rw [hmem, Related, Obj.get]
  rcases specs.lookup other with _ | spec
  · simp [relations]
  · simp

/-- What the first pass keeps: the family has no fault of its own, and whatever is connected to it is in
the family or on the stack. -/
structure SearchInv (specs : Obj) (name : Str) (family ready : List Str) : Prop where
  distinct : family.Nodup
  start : name ∈ family ∨ name ∈ ready
  inCell : ∀ m, m ∈ family ∨ m ∈ ready → InCell specs name m
  sound : ∀ m ∈ family, ∃ parent, parentOf m (specs.get m) = .ok parent
  closed : ∀ m ∈ family, ∀ other, Related specs m other ∨ Related specs other m →
    other ∈ family ∨ other ∈ ready

/-- The stack of the first pass starts with the name alone. -/
theorem searchInv_start : SearchInv specs name [] [name] where
  distinct := List.nodup_nil
  start := .inr (by simp)
  inCell m hm := by
    obtain rfl : m = name := by simpa using hm
    exact .refl m
  sound := by simp
  closed := by simp

/-- A member that was seen before is dropped from the stack. -/
theorem SearchInv.drop {family ready : List Str} (h : SearchInv specs name family (member :: ready))
    (hseen : member ∈ family) : SearchInv specs name family ready where
  distinct := h.distinct
  start := by
    rcases h.start with hstart | hstart
    · exact .inl hstart
    · rcases List.mem_cons.mp hstart with rfl | hstart
      · exact .inl hseen
      · exact .inr hstart
  inCell m hm := h.inCell m (hm.imp_right (List.mem_cons_of_mem _))
  sound := h.sound
  closed m hm other hother := by
    rcases h.closed m hm other hother with hclosed | hclosed
    · exact .inl hclosed
    · rcases List.mem_cons.mp hclosed with rfl | hclosed
      · exact .inl hseen
      · exact .inr hclosed

/-- A new member brings its parent and its children onto the stack. -/
theorem SearchInv.add {family ready : List Str} {parent : Option Str}
    (h : SearchInv specs name family (member :: ready)) (hspecs : (specs.map (·.1)).Nodup)
    (hnew : member ∉ family) (hparent : parentOf member (specs.get member) = .ok parent) :
    SearchInv specs name (family ++ [member])
      ((childrenOf specs member).reverse ++ parent.toList ++ ready) := by
  obtain ⟨hnames, -⟩ := of_parentOf_eq_ok hparent
  -- the new entries of the stack are the neighbours of the member
  have hneighbour (other : Str) : Related specs member other ∨ Related specs other member ↔
      other ∈ (childrenOf specs member).reverse ++ parent.toList := by
    rw [List.mem_append, List.mem_reverse, mem_childrenOf hspecs, ← hnames, or_comm]
    rfl
  have hmember : InCell specs name member := h.inCell member (.inr (by simp))
  constructor
  · rw [List.nodup_append]
    exact ⟨h.distinct, by simp, by simpa using fun m hm => ne_of_mem_of_not_mem hm hnew⟩
  · rcases h.start with hstart | hstart
    · exact .inl (by simp [hstart])
    · rcases List.mem_cons.mp hstart with rfl | hstart
      · exact .inl (by simp)
      · exact .inr (by simp [hstart])
  · intro m hm
    have hcases : (m ∈ family ∨ m ∈ member :: ready) ∨
        m ∈ (childrenOf specs member).reverse ++ parent.toList := by
      simp only [List.mem_append, List.mem_cons, List.not_mem_nil, or_false] at hm ⊢
      tauto
    rcases hcases with hold | hfresh
    · exact h.inCell m hold
    · rcases (hneighbour m).mpr hfresh with hout | hin
      · exact hmember.trans _ _ _ (.rel _ _ hout)
      · exact hmember.trans _ _ _ (.symm _ _ (.rel _ _ hin))
  · intro m hm
    rcases List.mem_append.mp hm with hm | hm
    · exact h.sound m hm
    · obtain rfl : m = member := by simpa using hm
      exact ⟨parent, hparent⟩
  · intro m hm other hother
    rcases List.mem_append.mp hm with hm | hm
    · have hclosed := h.closed m hm other hother
      simp only [List.mem_append, List.mem_cons, List.not_mem_nil, or_false] at hclosed ⊢
      tauto
    · obtain rfl : m = member := by simpa using hm
      exact .inr (List.mem_append_left _ ((hneighbour other).mp hother))

/-- The first pass ends with a whole component without faults of its own, or with a `SpecError` about
a member of it. -/
theorem searchCell_spec (hspecs : (specs.map (·.1)).Nodup) {family ready : List Str}
    (h : SearchInv specs name family ready) :
    (∃ found, searchCell specs family ready = .ok found ∧ SearchInv specs name found []) ∨
      ∃ fault, searchCell specs family ready = .error (.specError fault) ∧
        ∃ m, InCell specs name m ∧ LocallyFaulty specs m := by
  fun_induction searchCell specs family ready with
  | case1 family => exact .inl ⟨family, rfl, h⟩
  | case2 family member ready hseen ih => exact ih (h.drop (by simpa using hseen))
  | case3 family member ready hseen hspec | case4 family member ready hseen hspec =>
    refine .inr ⟨_, rfl, member, h.inCell member (.inr (by simp)), .inl ?_⟩
    rw [Obj.get, hspec]
    rfl
  | case5 family member ready hseen spec _ hspec e herror =>
    have hget : specs.get member = spec := by rw [Obj.get, hspec, Option.getD_some]
    obtain ⟨fault, rfl⟩ := (of_parentOf_eq_error herror).1
    exact .inr ⟨fault, rfl, member, h.inCell member (.inr (by simp)),
      locallyFaulty_of_parentOf_eq_error (hget ▸ herror)⟩
  | case6 family member ready hseen spec _ hspec parent hparent ih =>
    have hget : specs.get member = spec := by rw [Obj.get, hspec, Option.getD_some]
    exact ih (h.add hspecs (by simpa using hseen) (hget ▸ hparent))

end Search

section Chains

variable {family : List Str}

/-- An empty stack leaves a whole component. -/
theorem SearchInv.mem_iff (h : SearchInv specs name family []) (m : Str) :
    m ∈ family ↔ InCell specs name m := by
  have hstart : name ∈ family := by simpa using h.start
  have hclosed (a b : Str) (hab : Related specs a b) : a ∈ family ↔ b ∈ family :=
    ⟨fun ha => by simpa using h.closed a ha b (.inl hab),
      fun hb => by simpa using h.closed b hb a (.inr hab)⟩
  refine ⟨fun hm => h.inCell m (.inl hm), fun hm => ?_⟩
  exact (mem_iff_of_eqvGen (s := {m | m ∈ family}) hclosed hm).mp hstart

/-- The chain of a member ends, or a cycle was found. -/
theorem walkChain_spec (h : SearchInv specs name family []) {done chain : List Str}
    {cursor : Option Str} (hdone : ∀ m ∈ done, Grounded (Related specs) m)
    (hcursor : ∀ c ∈ cursor, c ∈ family)
    (hends : (∀ c ∈ cursor, Grounded (Related specs) c) → ∀ m ∈ chain, Grounded (Related specs) m)
    (hpath : ∀ m ∈ chain, ∀ c ∈ cursor, TransGen (Related specs) m c) :
    (∃ found, walkChain specs done chain cursor = .ok found ∧ chain ⊆ found ∧
        (∀ m ∈ found, Grounded (Related specs) m) ∧ ∀ c ∈ cursor, c ∈ done ∨ c ∈ found) ∨
      ∃ fault, walkChain specs done chain cursor = .error (.specError fault) ∧
        ∃ c ∈ family, TransGen (Related specs) c c := by
  fun_induction walkChain specs done chain cursor with
  | case1 chain => exact .inl ⟨chain, rfl, List.Subset.refl _, hends (by simp), by simp⟩
  | case2 chain cursor hmem =>
    have hmem : cursor ∈ done := by simpa using hmem
    exact .inl ⟨chain, rfl, List.Subset.refl _, hends (by simpa using hdone cursor hmem),
      by simpa using .inl hmem⟩
  | case3 chain cursor _ hmem =>
    exact .inr ⟨_, rfl, cursor, hcursor cursor rfl, hpath cursor (by simpa using hmem) cursor rfl⟩
  | case4 chain cursor _ _ hspec =>
    -- every member of the family has a spec
    obtain ⟨parent, hparent⟩ := h.sound cursor (hcursor cursor rfl)
    rw [Obj.get, hspec] at hparent
    cases hparent
  | case5 chain cursor _ _ spec hspec e herror =>
    obtain ⟨parent, hparent⟩ := h.sound cursor (hcursor cursor rfl)
    rw [Obj.get, hspec, Option.getD_some, herror] at hparent
    cases hparent
  | case6 chain cursor _ _ spec hspec parent hparent ih =>
    have hget : specs.get cursor = spec := by rw [Obj.get, hspec, Option.getD_some]
    have hnext (c : Str) : Related specs cursor c ↔ c ∈ parent := by
      rw [Related, hget, (of_parentOf_eq_ok hparent).1, Option.mem_toList, Option.mem_def]
    have hfamily (c : Str) (hc : c ∈ parent) : c ∈ family := by
      simpa using h.closed cursor (hcursor cursor rfl) c (.inl ((hnext c).mpr hc))
    have hgrounded (hroot : ∀ c ∈ parent, Grounded (Related specs) c) : Grounded (Related specs) cursor :=
      grounded_of_next fun c hc => hroot c ((hnext c).mp hc)
    have hends' (hroot : ∀ c ∈ parent, Grounded (Related specs) c) :
        ∀ m ∈ chain ++ [cursor], Grounded (Related specs) m := by
      intro m hm
      rcases List.mem_append.mp hm with hm | hm
      · exact hends (by simpa using hgrounded hroot) m hm
      · obtain rfl : m = cursor := by simpa using hm
        exact hgrounded hroot
    have hpath' : ∀ m ∈ chain ++ [cursor], ∀ c ∈ parent, TransGen (Related specs) m c := by
      intro m hm c hc
      have hstep : Related specs cursor c := (hnext c).mpr hc
      rcases List.mem_append.mp hm with hm | hm
      · exact (hpath m hm cursor rfl).tail hstep
      · obtain rfl : m = cursor := by simpa using hm
        exact .single hstep
    rcases ih hfamily hends' hpath' with ⟨found, hfound, hsub, hall, -⟩ | hfault
    · refine .inl ⟨found, hfound, fun m hm => hsub (by simp [hm]), hall, ?_⟩
      rintro c ⟨⟩
      exact .inr (hsub (by simp))
    · exact .inr hfault

/-- The second pass accepts members all of whose chains end, and otherwise meets a cycle. -/
theorem checkChains_spec (h : SearchInv specs name family []) {done members : List Str}
    (hdone : ∀ m ∈ done, Grounded (Related specs) m) (hmembers : ∀ m ∈ members, m ∈ family) :
    (checkChains specs done members = .ok () ∧ ∀ m ∈ members, Grounded (Related specs) m) ∨
      ∃ fault, checkChains specs done members = .error (.specError fault) ∧
        ∃ c ∈ family, TransGen (Related specs) c c := by
  induction members generalizing done with
  | nil => exact .inl ⟨rfl, by simp⟩
  | cons member rest ih =>
    have hmember : ∀ c ∈ some member, c ∈ family := by simpa using hmembers member (by simp)
    rcases @walkChain_spec _ _ _ h done [] (some member) hdone hmember (by simp) (by simp) with
      ⟨chain, hchain, -, hgrounded, hcovered⟩ | ⟨fault, hfault, hcycle⟩
    · have hdone' : ∀ m ∈ done ++ chain, Grounded (Related specs) m := by
        intro m hm
        exact (List.mem_append.mp hm).elim (hdone m) (hgrounded m)
      rw [checkChains, hchain, ok_bind]
      rcases ih hdone' (fun m hm => hmembers m (by simp [hm])) with ⟨hok, hrest⟩ | hfault
      · refine .inl ⟨hok, ?_⟩
        rw [List.forall_mem_cons]
        exact ⟨(hcovered member rfl).elim (hdone member) (hgrounded member), hrest⟩
      · exact .inr hfault
    · refine .inr ⟨fault, ?_, hcycle⟩
      rw [checkChains, hfault, error_bind]

end Chains

/-- Both passes over some specs return the cell without repetitions when no name of it is faulty, and
raise a `SpecError` when one is. -/
theorem cellFamily_spec (hspecs : (specs.map (·.1)).Nodup) (name : Str) :
    ((∃ family, cellFamily specs name = .ok family ∧ family.Nodup ∧
        ∀ m, m ∈ family ↔ InCell specs name m) ∧ ∀ m, InCell specs name m → ¬Faulty specs m) ∨
      ∃ fault, cellFamily specs name = .error (.specError fault) ∧
        ∃ m, InCell specs name m ∧ Faulty specs m := by
  rcases searchCell_spec hspecs (@searchInv_start specs name) with ⟨family, hfound, h⟩ | ⟨fault, hfault, m, hm, hlocal⟩
  · have hmem := h.mem_iff
    rcases @checkChains_spec _ _ _ h [] family (by simp) (fun _ hm => hm) with
      ⟨hok, hgrounded⟩ | ⟨fault, hfault, c, hc, hcycle⟩
    · refine .inl ⟨⟨family, ?_, h.distinct, hmem⟩, ?_⟩
      · rw [cellFamily, hfound, ok_bind, hok]
        rfl
      · rintro m hm (hlocal | ⟨c, hreach, hcycle⟩)
        · obtain ⟨parent, hparent⟩ := h.sound m ((hmem m).mpr hm)
          exact not_locallyFaulty hparent hlocal
        · exact ((hgrounded m ((hmem m).mpr hm)).reach hreach).not_transGen hcycle
    · refine .inr ⟨fault, ?_, c, (hmem c).mp hc, .inr ⟨c, .refl, hcycle⟩⟩
      rw [cellFamily, hfound, ok_bind, hfault]
      rfl
  · refine .inr ⟨fault, ?_, m, hm, .inl hlocal⟩
    rw [cellFamily, hfault]
    rfl

section Records

variable {depth : Nat} {root : List LaunchRecord}

/-- No record of a directory is nested so deeply that reading it ends in a `RecursionError`. -/
def ReadableRecords (depth : Nat) (root : List LaunchRecord) : Prop :=
  ∀ launch ∈ root, ∀ text, launch.text = some text → loads depth text ≠ .error .recursionError

/-- Setting a key keeps the keys distinct. -/
theorem nodup_keys_set {o : Obj} (h : (o.map (·.1)).Nodup) (key : Str) (value : Json) :
    ((o.set key value).map (·.1)).Nodup := by
  rcases hkey : o.has key with _ | _
  · have hfresh : key ∉ o.map (·.1) := by
      rw [← Obj.has_iff_mem, hkey]
      exact Bool.false_ne_true
    rw [Obj.set, hkey]
    simp only [Bool.false_eq_true, if_false, List.map_append, List.map_cons, List.map_nil]
    exact List.nodup_append.mpr ⟨h, by simp, by simpa using fun k hk => ne_of_mem_of_not_mem hk hfresh⟩
  · rw [Obj.keys_set hkey]
    exact h

theorem readRecord_returns (h : ReadableRecords depth root) {launch : LaunchRecord}
    (hlaunch : launch ∈ root) : Returns (launch.read depth) := by
  unfold LaunchRecord.read
  split
  · exact ⟨_, rfl⟩
  · next text htext =>
    split
    · exact ⟨_, rfl⟩
    · next herror => exact absurd herror (h launch hlaunch text htext)
    · exact ⟨_, rfl⟩

/-- Reading the records of a readable directory returns a dict. -/
theorem readBatchRecords_returns (h : ReadableRecords depth root) :
    ∃ records, readBatchRecords depth root = .ok records ∧ (records.map (·.1)).Nodup := by
  have hfold (records : Obj) (hrecords : (records.map (·.1)).Nodup) (rest : List LaunchRecord)
      (hrest : ∀ launch ∈ rest, launch ∈ root) :
      ∃ found, rest.foldlM (addRecord depth) records = .ok found ∧ (found.map (·.1)).Nodup := by
    induction rest generalizing records with
    | nil => exact ⟨records, rfl, hrecords⟩
    | cons launch rest ih =>
      obtain ⟨record, hrecord⟩ := readRecord_returns h (hrest launch (by simp))
      have hstep : ∃ next, addRecord depth records launch = .ok next ∧ (next.map (·.1)).Nodup := by
        rw [addRecord, hrecord, ok_bind]
        rcases record with _ | record
        · exact ⟨records, rfl, hrecords⟩
        · exact ⟨_, rfl, nodup_keys_set hrecords _ _⟩
      obtain ⟨next, hnext, hdistinct⟩ := hstep
      rw [List.foldlM_cons, hnext, ok_bind]
      exact ih next hdistinct fun other hother => hrest other (by simp [hother])
  exact hfold [] List.nodup_nil root fun _ hlaunch => hlaunch

theorem nodup_keys_specsOf {records : Obj} (h : (records.map (·.1)).Nodup) (name : Str)
    (current : Option Obj) : ((specsOf records name current).map (·.1)).Nodup := by
  have hkeys : ((records.map fun entry => (entry.1, specOf entry.2)).map (·.1)).Nodup := by
    rw [List.map_map]
    exact h
  rcases current with _ | spec
  · exact hkeys
  · exact nodup_keys_set hkeys name (.dict spec)

/-- What `cell_model_family` makes of the records that it has read. -/
theorem cellModelFamily_of_records {records : Obj} (h : readBatchRecords depth root = .ok records)
    (name : Str) (current : Option Obj) : cellModelFamily depth root name current =
      (cellFamily (specsOf records name current) name).map fun family => (family, records) := by
  rw [cellModelFamily, h]
  show (cellFamily (specsOf records name current) name >>= fun family => pure (family, records)) = _
  cases cellFamily (specsOf records name current) name <;> rfl

end Records

/-- Two batches, the second of which retries the first. -/
def retriedRoot : List LaunchRecord :=
  [⟨"a.launch", some (lit "\x7b\"spec\":\x7b\x7d\x7d")⟩,
    ⟨"b.launch", some (lit "\x7b\"spec\":\x7b\"retry_of\":\"a\"\x7d\x7d")⟩]

theorem readable_retriedRoot : ReadableRecords 9 retriedRoot := by
  have hreads : (retriedRoot.all fun launch =>
      launch.text.all fun text => (loads 9 text).toOption.isSome) = true := by decide +kernel
  intro launch hlaunch text htext herror
  have hread := List.all_eq_true.mp hreads launch hlaunch
  rw [htext, Option.all_some, herror] at hread
  cases hread

end OpenCollabEval
