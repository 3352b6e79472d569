import OpenCollabEval.Evaluation.ReporterRows

/-!
# Forests of suites

What a reporter prints: tests and suites inside suites, each on a line that is indented by two more spaces
than the suite around it. A reader that keeps the open suites on a stack finds every test under the path
of its suites. When it does not see one of the suites, the tests below it get another path.
-/

open Python

namespace OpenCollabEval.Reporter

section Forest

variable {μ τ : Type}

/-- Tests and suites in their order. -/
inductive Forest (μ τ : Type) where
  | nil
  | test (mark : μ) (title : τ) (rest : Forest μ τ)
  | suite (title : τ) (inner rest : Forest μ τ)

/-- One printed line. -/
inductive Item (μ τ : Type) where
  | test (indent : Nat) (mark : μ) (title : τ)
  | suite (indent : Nat) (title : τ)

/-- The title on a line. -/
def Item.title : Item μ τ → τ
  | test _ _ title => title
  | suite _ title => title

/-- The indentation of a line. -/
def Item.indent : Item μ τ → Nat
  | test indent _ _ => indent
  | suite indent _ => indent

namespace Forest

/-- Every title of a forest satisfies a property. -/
def Every (P : τ → Prop) : Forest μ τ → Prop
  | nil => True
  | test _ title rest => P title ∧ Every P rest
  | suite title inner rest => P title ∧ Every P inner ∧ Every P rest

/-- The lines of a forest. -/
def items : Nat → Forest μ τ → List (Item μ τ)
  | _, nil => []
  | indent, test mark title rest => .test indent mark title :: items indent rest
  | indent, suite title inner rest =>
    .suite indent title :: (items (indent + 2) inner ++ items indent rest)

variable (text : τ → Str) (status : μ → Str)

/-- The tests under a path of suites, each with its whole path and its status. -/
def results : List Str → Forest μ τ → List (List Str × Str)
  | _, nil => []
  | path, test mark title rest => (path ++ [text title], status mark) :: results path rest
  | path, suite title inner rest => results (path ++ [text title]) inner ++ results path rest

/-- Some test stands in the forest. -/
def HasTest : Forest μ τ → Prop
  | nil => False
  | test _ _ _ => True
  | suite _ inner rest => HasTest inner ∨ HasTest rest

/-- A suite that is not seen has a test below it. -/
def Loses (unseen : Nat → τ → Bool) : Nat → Forest μ τ → Prop
  | _, nil => False
  | indent, test _ _ rest => Loses unseen indent rest
  | indent, suite title inner rest =>
    unseen indent title = true ∧ HasTest inner ∨ Loses unseen (indent + 2) inner ∨
      Loses unseen indent rest

/-- The lines of a forest have its titles, and are indented at least as it is. -/
theorem mem_items {P : τ → Prop} {f : Forest μ τ} (h : f.Every P) {indent : Nat} {item : Item μ τ}
    (hitem : item ∈ f.items indent) : P item.title ∧ indent ≤ item.indent := by
  induction f generalizing indent with
  | nil => cases hitem
  | test mark title rest ih =>
    rcases List.mem_cons.mp hitem with rfl | hitem
    · exact ⟨h.1, le_rfl⟩
    · exact ih h.2 hitem
  | suite title inner rest ihinner ihrest =>
    rcases List.mem_cons.mp hitem with rfl | hitem
    · exact ⟨h.1, le_rfl⟩
    · rcases List.mem_append.mp hitem with hitem | hitem
      · obtain ⟨htitle, hindent⟩ := ihinner h.2.1 hitem
        exact ⟨htitle, by omega⟩
      · exact ihrest h.2.2 hitem

end Forest

end Forest

section Seen

variable {μ τ : Type} (text : τ → Str) (status : μ → Str)

/-- What a reader has found: the open suites, and the tests with their paths. -/
abbrev Seen := Suites × List (List Str × Str)

/-- One line. -/
def see (seen : Seen) : Item μ τ → Seen
  | .test indent mark title =>
    (popTo indent seen.1,
      seen.2 ++ [(titles (popTo indent seen.1) ++ [text title], status mark)])
  | .suite indent title => ((indent, text title) :: popTo indent seen.1, seen.2)

/-- The lines that are seen. -/
def isSeen (unseen : Nat → τ → Bool) : Item μ τ → Bool
  | .test _ _ _ => true
  | .suite indent title => !unseen indent title

end Seen

section Stack

variable {indent indent' : Nat} {stack : Suites} {title : Str}

theorem popTo_cons_of_lt (h : indent < indent') :
    popTo indent' ((indent, title) :: stack) = (indent, title) :: stack := by
  simp [popTo, h]

theorem popTo_cons_of_le (h : indent' ≤ indent) :
    popTo indent' ((indent, title) :: stack) = popTo indent' stack := by
  simp [popTo, h]

/-- Popping further pops all of it. -/
theorem popTo_popTo (h : indent ≤ indent') : popTo indent (popTo indent' stack) = popTo indent stack := by
  induction stack with
  | nil => rfl
  | cons suite stack ih =>
    by_cases hsuite : indent' ≤ suite.1
    · rw [popTo_cons_of_le hsuite, popTo_cons_of_le (h.trans hsuite), ih]
    · rw [popTo_cons_of_lt (by omega)]

/-- Nothing is left to pop. -/
theorem popTo_popTo_of_le (h : indent' ≤ indent) :
    popTo indent (popTo indent' stack) = popTo indent' stack := by
  induction stack with
  | nil => rfl
  | cons suite stack ih =>
    by_cases hsuite : indent' ≤ suite.1
    · rw [popTo_cons_of_le hsuite, ih]
    · rw [popTo_cons_of_lt (by omega), popTo_cons_of_lt (by omega)]

theorem titles_cons : titles ((indent, title) :: stack) = titles stack ++ [title] := by
  simp [titles]

end Stack

section Read

variable {μ τ : Type} {text : τ → Str} {status : μ → Str}

/-- A reader that sees every line finds every test under the path of its suites, and has the same suites
open as before, as far as they stand around the forest. -/
theorem foldl_see (f : Forest μ τ) (found : List (List Str × Str)) {indent : Nat}
    {stack around : Suites} (h : popTo indent stack = around) :
    ((f.items indent).foldl (see text status) (stack, found)).2 =
        found ++ f.results text status (titles around) ∧
      popTo indent ((f.items indent).foldl (see text status) (stack, found)).1 = around := by
  induction f generalizing indent stack around found with
  | nil => exact ⟨by simp [Forest.items, Forest.results], h⟩
  | test mark title rest ih =>
    have hpop : popTo indent (popTo indent stack) = around := by rw [popTo_popTo le_rfl, h]
    rw [Forest.items, List.foldl_cons, see, Forest.results]
    obtain ⟨hfound, hstack⟩ :=
      ih (found ++ [(titles (popTo indent stack) ++ [text title], status mark)]) hpop
    refine ⟨?_, hstack⟩
    rw [hfound, h, List.append_assoc]
    rfl
  | suite title inner rest ihinner ihrest =>
    rw [Forest.items, List.foldl_cons, List.foldl_append, see, Forest.results]
    have hpush : popTo (indent + 2) ((indent, text title) :: popTo indent stack) =
        (indent, text title) :: around := by
      rw [popTo_cons_of_lt (by omega), h]
    obtain ⟨hinner, hopen⟩ := ihinner found hpush
    have hback : popTo indent ((inner.items (indent + 2)).foldl (see text status)
        ((indent, text title) :: popTo indent stack, found)).1 = around := by
      rw [← popTo_popTo (Nat.le_add_right indent 2), hopen, popTo_cons_of_le le_rfl, ← h,
        popTo_popTo le_rfl]
    obtain ⟨hrest, hstack⟩ := ihrest ((inner.items (indent + 2)).foldl (see text status)
      ((indent, text title) :: popTo indent stack, found)).2 hback
    refine ⟨?_, hstack⟩
    rw [hrest, hinner, titles_cons, List.append_assoc]

end Read

section Names

variable (sep : Str)

/-- A test as a row names it: its path under a base, put together. -/
def named (base : List Str) (found : List Str × Str) : Str × Str :=
  (Str.join sep (base ++ found.1), found.2)

variable {sep} {base path path' : List Str} {title title' : Str}

theorem join_append_of_ne {left right : List Str} (hleft : left ≠ []) (hright : right ≠ []) :
    Str.join sep (left ++ right) = Str.join sep left ++ sep ++ Str.join sep right := by
  induction left with
  | nil => exact absurd rfl hleft
  | cons first left ih =>
    cases left with
    | nil =>
      obtain ⟨second, right, rfl⟩ := List.exists_cons_of_ne_nil hright
      simp [Str.join, List.intercalate, List.intersperse]
    | cons second left =>
      have hjoin := ih (by simp)
      simp only [Str.join, List.intercalate, List.cons_append, List.intersperse_cons_cons,
        List.flatten_cons] at hjoin ⊢
      rw [hjoin]
      simp

/-- Paths with the same end and the same name have the same name without that end. -/
theorem join_append_cancel {left left' right : List Str} (hleft : left ≠ []) (hleft' : left' ≠ [])
    (hright : right ≠ []) (h : Str.join sep (left ++ right) = Str.join sep (left' ++ right)) :
    Str.join sep left = Str.join sep left' := by
  rw [join_append_of_ne hleft hright, join_append_of_ne hleft' hright] at h
  exact List.append_cancel_right (List.append_cancel_right h)

theorem join_append_singleton {left : List Str} (hleft : left ≠ []) :
    Str.join sep (left ++ [title]) = Str.join sep left ++ sep ++ title := by
  rw [join_append_of_ne hleft (by simp)]
  simp [Str.join, List.intercalate]

end Names

section Unseen

variable {μ τ : Type} {text : τ → Str} {status : μ → Str}

theorem results_length (f : Forest μ τ) (path path' : List Str) :
    (f.results text status path).length = (f.results text status path').length := by
  induction f generalizing path path' with
  | nil => rfl
  | test mark title rest ih => simp [Forest.results, ih path path']
  | suite title inner rest ihinner ihrest =>
    rw [Forest.results, Forest.results, List.length_append, List.length_append,
      ihinner (path ++ [text title]) (path' ++ [text title]), ihrest path path']

/-- Every test of a forest has the path of the forest before its own. -/
theorem exists_result {f : Forest μ τ} (h : f.HasTest) :
    ∃ own : List Str, own ≠ [] ∧ ∃ (outcome : Str) (n : Nat), ∀ path : List Str,
      (f.results text status path)[n]? = some (path ++ own, outcome) := by
  induction f with
  | nil => exact h.elim
  | test mark title rest _ => exact ⟨[text title], by simp, status mark, 0, fun path => rfl⟩
  | suite title inner rest ihinner ihrest =>
    rcases h with h | h
    · obtain ⟨own, hown, outcome, n, hresult⟩ := ihinner h
      refine ⟨text title :: own, by simp, outcome, n, fun path => ?_⟩
      have hlt := (List.getElem?_eq_some_iff.mp (hresult (path ++ [text title]))).1
      rw [Forest.results, List.getElem?_append_left hlt, hresult, List.append_assoc]
      rfl
    · obtain ⟨own, hown, outcome, n, hresult⟩ := ihrest h
      refine ⟨own, hown, outcome, (inner.results text status []).length + n, fun path => ?_⟩
      rw [Forest.results, results_length inner [] (path ++ [text title]),
        List.getElem?_append_right (Nat.le_add_right ..), Nat.add_sub_cancel_left, hresult]

theorem results_eq_nil {f : Forest μ τ} (h : ¬f.HasTest) (path : List Str) :
    f.results text status path = [] := by
  induction f generalizing path with
  | nil => rfl
  | test mark title rest _ => exact absurd trivial h
  | suite title inner rest ihinner ihrest =>
    rw [Forest.results, ihinner fun hinner => h (.inl hinner), ihrest fun hrest => h (.inr hrest)]
    rfl

/-- The suites at the second level whose titles are taken for something else. -/
def unseenAt (text : τ → Str) (bad : Str → Bool) (indent : Nat) (title : τ) : Bool :=
  indent == 4 && bad (text title)

/-- At most one suite of the second level is open, and its title was seen. -/
def Shape (bad : Str → Bool) (stack : Suites) : Prop :=
  popTo 6 stack = popTo 4 stack ∨
    ∃ title, bad title = false ∧ popTo 6 stack = (4, title) :: popTo 4 stack

/-- The indentations of a forest. -/
def Level (indent : Nat) : Prop := indent = 2 ∨ indent = 4 ∨ 6 ≤ indent

theorem Level.next {indent : Nat} (h : Level indent) : Level (indent + 2) := by
  unfold Level at *
  omega

variable {bad : Str → Bool} {stack : Suites} {indent : Nat}

theorem Shape.popTo (h : Shape bad stack) (hlevel : Level indent) :
    Shape bad (popTo indent stack) := by
  rcases hlevel with rfl | rfl | hdeep
  · left
    rw [popTo_popTo_of_le (by omega), popTo_popTo_of_le (by omega)]
  · left
    rw [popTo_popTo_of_le (by omega), popTo_popTo_of_le le_rfl]
  · rw [Shape, popTo_popTo hdeep, popTo_popTo (by omega)]
    exact h

theorem Shape.push (h : Shape bad stack) (hlevel : Level indent) {title : Str}
    (hseen : indent = 4 → bad title = false) :
    Shape bad ((indent, title) :: Reporter.popTo indent stack) := by
  rcases hlevel with rfl | rfl | hdeep
  · left
    rw [popTo_cons_of_lt (by omega), popTo_cons_of_lt (by omega)]
  · right
    refine ⟨title, hseen rfl, ?_⟩
    rw [popTo_cons_of_lt (by omega), popTo_cons_of_le le_rfl, popTo_popTo le_rfl]
  · rw [Shape, popTo_cons_of_le hdeep, popTo_cons_of_le (by omega), popTo_popTo hdeep,
      popTo_popTo (by omega)]
    exact h

/-- What a reader that does not see some suites gets from a forest: as many tests, under their names
exactly when no suite that is lost has a test below it. -/
structure ReadWithout (sep : Str) (base : List Str) (bad : Str → Bool) (text : τ → Str)
    (status : μ → Str) (f : Forest μ τ) (indent : Nat) (around : Suites)
    (found : List (List Str × Str)) (seen : Seen) (added : List (List Str × Str)) : Prop where
  found_eq : seen.2 = found ++ added
  length_eq : added.length = (f.results text status (titles around)).length
  shape : Shape bad seen.1
  around_eq : Reporter.popTo indent seen.1 = around
  named_iff : added.map (named sep base) = (f.results text status (titles around)).map (named sep base) ↔
    ¬f.Loses (unseenAt text bad) indent

/-- A suite that is not seen gives the tests below it another name. -/
theorem named_ne_of_unseen {sep : Str} {base : List Str} (hsep : sep ≠ []) (hbase : base ≠ []) {f : Forest μ τ}
    (hf : f.HasTest) {path other : List Str} {title : Str}
    (hother : other = [] ∨ ∃ before, before ≠ title ∧ other = [before]) :
    (f.results text status (path ++ other)).map (named sep base) ≠
      (f.results text status (path ++ [title])).map (named sep base) := by
  intro heq
  obtain ⟨own, hown, outcome, n, hresult⟩ := @exists_result _ _ text status f hf
  have hget := congrArg (·[n]?) heq
  simp only [List.getElem?_map, hresult, Option.map_some, Option.some.injEq, named,
    Prod.mk.injEq, and_true, ← List.append_assoc] at hget
  have hjoin := join_append_cancel (by simp [hbase]) (by simp [hbase]) hown hget
  have hpath : base ++ path ≠ [] := by simp [hbase]
  rw [join_append_singleton hpath] at hjoin
  rcases hother with rfl | ⟨before, hne, rfl⟩
  · have hlength := congrArg List.length hjoin
    have hpositive := List.length_pos_iff.mpr hsep
    rw [List.append_nil, List.length_append, List.length_append] at hlength
    omega
  · rw [join_append_singleton hpath] at hjoin
    exact hne (List.append_cancel_left hjoin)

/-- Nothing is lost below the second level. -/
theorem not_loses_of_le {f : Forest μ τ} (hindent : 6 ≤ indent) :
    ¬f.Loses (unseenAt text bad) indent := by
  induction f generalizing indent with
  | nil => exact id
  | test mark title rest ih => exact ih hindent
  | suite title inner rest ihinner ihrest =>
    rintro (⟨hunseen, -⟩ | hinner | hrest)
    · have hne : (indent == 4) = false := by simpa using (show indent ≠ 4 by omega)
      rw [unseenAt, hne] at hunseen
      cases hunseen
    · exact ihinner (by omega) hinner
    · exact ihrest hindent hrest

/-- Lists of tests that are as long have the same names exactly when their parts do. -/
theorem map_append_eq_iff {α β : Type} {g : α → β} {left right left' right' : List α}
    (h : left.length = left'.length) :
    (left ++ right).map g = (left' ++ right').map g ↔
      left.map g = left'.map g ∧ right.map g = right'.map g := by
  rw [List.map_append, List.map_append]
  constructor
  · exact fun heq => List.append_inj heq (by rw [List.length_map, List.length_map, h])
  · rintro ⟨hleft, hright⟩
    rw [hleft, hright]

/-- Lists that are put together from parts of the same lengths are the same when their parts are. -/
theorem flatMap_eq_iff {α β : Type} {items : List α} {f g : α → List β}
    (h : ∀ item ∈ items, (f item).length = (g item).length) :
    items.flatMap f = items.flatMap g ↔ ∀ item ∈ items, f item = g item := by
  induction items with
  | nil => simp
  | cons item items ih =>
    rw [List.forall_mem_cons] at h
    rw [List.flatMap_cons, List.flatMap_cons, List.forall_mem_cons, ← ih h.2]
    exact ⟨fun heq => List.append_inj heq h.1, fun ⟨hitem, hitems⟩ => by rw [hitem, hitems]⟩

/-- One line after the other: what is lost below a suite is lost, and so is what is lost after it. -/
theorem readWithout (sep : Str) (hsep : sep ≠ []) (base : List Str) (hbase : base ≠ [])
    (status : μ → Str) (f : Forest μ τ) (hlevel : Level indent) {around : Suites}
    (hshape : Shape bad stack) (haround : popTo indent stack = around)
    (found : List (List Str × Str)) :
    ∃ added, ReadWithout sep base bad text status f indent around found
      (((f.items indent).filter (isSeen (unseenAt text bad))).foldl (see text status) (stack, found))
      added := by
  induction f generalizing indent stack around found with
  | nil => exact ⟨[], by simp [Forest.items], rfl, hshape, haround, by simp [Forest.results, Forest.Loses]⟩
  | test mark title rest ih =>
    have hpop : popTo indent (popTo indent stack) = around := by rw [popTo_popTo le_rfl, haround]
    obtain ⟨added, hadded⟩ := ih hlevel (hshape.popTo hlevel) hpop
      (found ++ [(titles (popTo indent stack) ++ [text title], status mark)])
    refine ⟨(titles around ++ [text title], status mark) :: added, ?_⟩
    rw [Forest.items, List.filter_cons_of_pos rfl, List.foldl_cons, see]
    refine ⟨?_, ?_, hadded.shape, hadded.around_eq, ?_⟩
    · rw [hadded.found_eq, haround, List.append_assoc]
      rfl
    · rw [Forest.results, List.length_cons, List.length_cons, hadded.length_eq]
    · rw [Forest.results, List.map_cons, List.map_cons, List.cons.injEq]
      exact ⟨fun h => hadded.named_iff.mp h.2, fun h => ⟨rfl, hadded.named_iff.mpr h⟩⟩
  | suite title inner rest ihinner ihrest =>
    rw [Forest.items]
    by_cases hunseen : unseenAt text bad indent title = true
    · -- the suite is not opened, and the one before it at its level stays open
      have hindent : indent = 4 := by
        simp only [unseenAt, Bool.and_eq_true, beq_iff_eq] at hunseen
        exact hunseen.1
      have hbad : bad (text title) = true := by
        simp only [unseenAt, Bool.and_eq_true, beq_iff_eq] at hunseen
        exact hunseen.2
      subst hindent
      rw [List.filter_cons_of_neg (by rw [isSeen, hunseen]; exact Bool.false_ne_true),
        List.filter_append, List.foldl_append]
      obtain ⟨inside, hinside⟩ := ihinner hlevel.next hshape rfl found
      have hback : popTo 4 (((inner.items (4 + 2)).filter (isSeen (unseenAt text bad))).foldl
          (see text status) (stack, found)).1 = around := by
        have hopen := congrArg (popTo 4) hinside.around_eq
        rwa [popTo_popTo (by omega), popTo_popTo (by omega), haround] at hopen
      obtain ⟨after, hafter⟩ := ihrest hlevel hinside.shape hback
        (((inner.items (4 + 2)).filter (isSeen (unseenAt text bad))).foldl
          (see text status) (stack, found)).2
      refine ⟨inside ++ after, ?_, ?_, hafter.shape, hafter.around_eq, ?_⟩
      · rw [hafter.found_eq, hinside.found_eq, List.append_assoc]
      · rw [Forest.results, List.length_append, List.length_append, hafter.length_eq,
          hinside.length_eq, results_length inner]
      · have hlength : inside.length =
            (inner.results text status (titles around ++ [text title])).length := by
          rw [hinside.length_eq, results_length inner]
        have hnames := hinside.named_iff.mpr (not_loses_of_le le_rfl)
        have hother : ∃ other, titles (popTo (4 + 2) stack) = titles around ++ other ∧
            (other = [] ∨ ∃ before, before ≠ text title ∧ other = [before]) := by
          rcases hshape with hsame | ⟨before, hgood, hopen⟩
          · exact ⟨[], by rw [hsame, haround, List.append_nil], .inl rfl⟩
          · refine ⟨[before], by rw [hopen, haround, titles_cons], .inr ⟨before, ?_, rfl⟩⟩
            rintro rfl
            rw [hgood] at hbad
            cases hbad
        obtain ⟨other, htitles, hother⟩ := hother
        rw [htitles] at hnames
        rw [Forest.results, map_append_eq_iff hlength, hnames]
        by_cases htest : inner.HasTest
        · refine iff_of_false (fun h => ?_) fun h => h (.inl ⟨hunseen, htest⟩)
          exact named_ne_of_unseen hsep hbase htest hother h.1
        · rw [results_eq_nil htest, results_eq_nil htest]
          constructor
          · rintro ⟨-, hrest⟩ (⟨-, hlost⟩ | hlost | hlost)
            · exact htest hlost
            · exact not_loses_of_le le_rfl hlost
            · exact hafter.named_iff.mp hrest hlost
          · exact fun h => ⟨rfl, hafter.named_iff.mpr fun hlost => h (.inr (.inr hlost))⟩
    · rw [Bool.not_eq_true] at hunseen
      rw [List.filter_cons_of_pos (by rw [isSeen, hunseen]; rfl), List.filter_append,
        List.foldl_cons, List.foldl_append, see]
      have hpush : popTo (indent + 2) ((indent, text title) :: popTo indent stack) =
          (indent, text title) :: around := by
        rw [popTo_cons_of_lt (by omega), haround]
      have hopened : Shape bad ((indent, text title) :: popTo indent stack) := by
        refine hshape.push hlevel fun hindent => ?_
        subst hindent
        exact hunseen
      obtain ⟨inside, hinside⟩ := ihinner hlevel.next hopened hpush found
      have hback : popTo indent (((inner.items (indent + 2)).filter
          (isSeen (unseenAt text bad))).foldl (see text status)
          ((indent, text title) :: popTo indent stack, found)).1 = around := by
        have hself : popTo indent around = around := by rw [← haround, popTo_popTo le_rfl]
        have hopen := congrArg (popTo indent) hinside.around_eq
        rwa [popTo_popTo (by omega), popTo_cons_of_le le_rfl, hself] at hopen
      obtain ⟨after, hafter⟩ := ihrest hlevel hinside.shape hback
        (((inner.items (indent + 2)).filter (isSeen (unseenAt text bad))).foldl
          (see text status) ((indent, text title) :: popTo indent stack, found)).2
      have htitles : titles ((indent, text title) :: around) = titles around ++ [text title] :=
        titles_cons
      have hlength := hinside.length_eq
      have hnames := hinside.named_iff
      rw [htitles] at hlength hnames
      refine ⟨inside ++ after, ?_, ?_, hafter.shape, hafter.around_eq, ?_⟩
      · rw [hafter.found_eq, hinside.found_eq, List.append_assoc]
      · rw [Forest.results, List.length_append, List.length_append, hafter.length_eq, hlength]
      · rw [Forest.results, map_append_eq_iff hlength, hnames, hafter.named_iff, Forest.Loses,
          hunseen]
        simp

end Unseen

end OpenCollabEval.Reporter
