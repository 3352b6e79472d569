import OpenCollabEval.Evaluation.ReporterLines
import OpenCollabEval.Python.Lines

/-!
# Indented lines and whole logs

A printed line is the body of a suite or of a test after the spaces of its level. A log is such lines,
each with colour codes in it, with blank lines between them.
-/

open Python

namespace OpenCollabEval.Reporter

section Body

/-- What stands on a line after its indentation and its marker. -/
structure Body (body : Str) : Prop where
  ne_nil : body ≠ []
  oneLine : ∀ c ∈ body, Str.isLineEnd c = false
  first : ∀ c ∈ body.head?, Str.isSpace c = false
  last : ∀ c ∈ body.getLast?, Str.isSpace c = false

variable {digits : Decimals} {Marked : Str → Prop}

theorem Body.lineFeed_not_mem {body : Str} (hbody : Body body) : 10 ∉ body := by
  intro hmem
  cases hbody.oneLine 10 hmem

theorem Title.body (title : Title digits Marked) : Body title.text :=
  ⟨title.ne_nil, title.oneLine, title.first, title.last⟩

theorem oneLine_ending (d : Option Duration) : ∀ c ∈ ending d, Str.isLineEnd c = false := by
  intro c hc
  have hprintable := mem_ending d c hc
  simp only [Str.isLineEnd, Bool.or_eq_false_iff, Bool.and_eq_false_iff, decide_eq_false_iff_not,
    beq_eq_false_iff_ne]
  omega

/-- A title with the duration of its test is a body. -/
theorem Title.body_ending (title : Title digits Marked) (d : Option Duration) :
    Body (title.text ++ ending d) := by
  refine ⟨by simp [title.ne_nil], fun c hc => ?_, fun c hc => ?_, fun c hc => ?_⟩
  · rcases List.mem_append.mp hc with hc | hc
    · exact title.oneLine c hc
    · exact oneLine_ending d c hc
  · rw [List.head?_append_of_ne_nil _ title.ne_nil] at hc
    exact title.first c hc
  · cases d with
    | none =>
      rw [ending, List.append_nil] at hc
      exact title.last c hc
    | some d =>
      have hlast : (title.text ++ ending (some d)).getLast? = some 41 := by
        rw [ending, show lit "s)" = [115] ++ [41] from rfl]
        simp only [← List.append_assoc, ← List.cons_append, List.getLast?_concat]
      rw [hlast] at hc
      cases hc
      rfl

/-- The ends of lines are white space. -/
theorem not_lineEnd {c : Nat} (hc : Str.isSpace c = false) : Str.isLineEnd c = false := by
  rw [Bool.eq_false_iff] at *
  intro hend
  apply hc
  simp only [Str.isLineEnd, Str.isSpace, Bool.or_eq_true, Bool.and_eq_true, decide_eq_true_iff,
    beq_iff_eq] at *
  omega

/-- A marker before a body. -/
theorem Body.marked {body mark : Str} (hbody : Body body) (hne : mark ≠ [])
    (hmark : ∀ c ∈ mark, Str.isSpace c = false) : Body (mark ++ 32 :: body) := by
  refine ⟨by simp, ?_, fun x hx => ?_, fun x hx => ?_⟩
  · simp only [List.forall_mem_append, List.forall_mem_cons]
    exact ⟨fun c hc => not_lineEnd (hmark c hc), rfl, hbody.oneLine⟩
  · rw [List.head?_append_of_ne_nil _ hne] at hx
    exact hmark x (List.mem_of_mem_head? hx)
  · obtain ⟨y, rest, rfl⟩ := List.exists_cons_of_ne_nil hbody.ne_nil
    rw [List.getLast?_append_of_ne_nil _ (by simp), List.getLast?_cons_cons] at hx
    exact hbody.last x hx

end Body

section Indent

/-- The indentation of a line. -/
def spaces (indent : Nat) : Str := List.replicate indent 32

variable {indent : Nat} {body : Str}

theorem isSpace_of_mem_spaces : ∀ c ∈ spaces indent, Str.isSpace c = true := by
  intro c hc
  rw [List.eq_of_mem_replicate hc]
  rfl

theorem oneLine_spaces : ∀ c ∈ spaces indent, Str.isLineEnd c = false := by
  intro c hc
  rw [List.eq_of_mem_replicate hc]
  rfl

theorem escape_not_mem_spaces : 27 ∉ spaces indent := by
  intro hmem
  have heq := List.eq_of_mem_replicate hmem
  omega

theorem lstrip_spaces (hbody : Body body) : (spaces indent ++ body).lstripOf Str.isSpace = body := by
  rw [Str.lstripOf, List.dropWhile_append_of_pos isSpace_of_mem_spaces]
  obtain ⟨c, rest, rfl⟩ := List.exists_cons_of_ne_nil hbody.ne_nil
  rw [List.dropWhile_cons_of_neg]
  simpa using hbody.first c rfl

theorem indentOf_spaces (hbody : Body body) : indentOf (spaces indent ++ body) = indent := by
  rw [indentOf, lstrip_spaces hbody, List.length_append, Nat.add_sub_cancel]
  exact List.length_replicate ..

theorem strip_spaces (hbody : Body body) : (spaces indent ++ body).strip = body := by
  rw [Str.strip, Str.stripOf, lstrip_spaces hbody, Str.rstripOf, List.rdropWhile_eq_self_iff]
  intro hne hspace
  have hlast := hbody.last _ (List.getLast?_eq_some_getLast hne)
  rw [hspace] at hlast
  cases hlast

/-- The text after some white space is the body, when the body and no more of it was taken. -/
theorem rest_eq_of_spaces (hfirst : ∀ c ∈ body.head?, Str.isSpace c = false) {ws rest : Str}
    (hne : ws ≠ []) (hws : ∀ c ∈ ws, Str.isSpace c = true) (h : 32 :: body = ws ++ rest) : rest = body := by
  obtain ⟨w, ws, rfl⟩ := List.exists_cons_of_ne_nil hne
  obtain ⟨-, hbody'⟩ := List.cons.inj h
  cases ws with
  | nil => exact hbody'.symm
  | cons w' ws =>
    have hhead := hfirst w' (by rw [hbody']; rfl)
    rw [hws w' (by simp)] at hhead
    cases hhead

/-- Two runs without white space end at the same place. -/
theorem word_unique {word word' rest rest' : Str} (hword : ∀ c ∈ word, Str.isSpace c = false)
    (hword' : ∀ c ∈ word', Str.isSpace c = false) (hrest : ∀ c ∈ rest.head?, Str.isSpace c = true)
    (hrest' : ∀ c ∈ rest'.head?, Str.isSpace c = true) (h : word ++ rest = word' ++ rest') :
    word = word' := by
  have hend : ∀ s : Str, (∀ c ∈ s.head?, Str.isSpace c = true) →
      ∃ c t, s ++ [32] = c :: t ∧ Str.isSpace c = true := by
    intro s hs
    cases s with
    | nil => exact ⟨32, [], rfl, rfl⟩
    | cons c t => exact ⟨c, t ++ [32], rfl, hs c rfl⟩
  obtain ⟨c, t, hc, hspace⟩ := hend rest hrest
  obtain ⟨c', t', hc', hspace'⟩ := hend rest' hrest'
  have hlong : word ++ c :: t = word' ++ c' :: t' := by
    rw [← hc, ← hc', ← List.append_assoc, h, List.append_assoc]
  exact (@run_unique (fun c => !Str.isSpace c) _ _ _ _ _ _ (fun x hx => by simp [hword x hx])
    (fun x hx => by simp [hword' x hx]) (by simp [hspace]) (by simp [hspace']) hlong).1

end Indent

section Group

variable {body : Str} {c d : Cursor} {n : Nat}

/-- The group of a title is the whole body. -/
theorem groups_of_titleGroup (hbody : Body body) (h : (titleGroup n).Matches c d) (hrest : c.rest = body) :
    d.groups = (n, body) :: c.groups := by
  obtain ⟨c₁, hgroup, h⟩ := Pattern.matches_seq_iff.mp h
  obtain ⟨c₂, hspaces, hend⟩ := Pattern.matches_seq_iff.mp h
  obtain ⟨e, htitle, rfl⟩ := Pattern.matches_group_iff.mp hgroup
  obtain ⟨e', hfirst, hmore⟩ := Pattern.matches_seq_iff.mp htitle
  obtain ⟨x, hx⟩ := Pattern.passes_of_chars hfirst
  obtain ⟨xs, hxs⟩ := Pattern.passes_of_star hmore
  obtain ⟨ws, hws⟩ := Pattern.passes_of_star hspaces
  obtain ⟨rfl, hend⟩ := rest_of_endOfText hend
  have hsplit : c.rest = (x :: xs) ++ e.rest := by
    rw [hx.rest_eq, hxs.rest_eq]
    rfl
  have hws_rest : e.rest = ws ++ d.rest := hws.rest_eq
  have hnil : d.rest = [] := by
    refine hend.resolve_right fun hten => hbody.lineFeed_not_mem ?_
    rw [← hrest, hsplit, hws_rest, hten]
    simp
  have hws_nil : ws = [] := by
    by_contra hne
    have hmem := hws.accepted (ws.getLast hne) (List.getLast_mem hne)
    have hlast := hbody.last (ws.getLast hne) (by
      rw [← hrest, hsplit, hws_rest, hnil, List.append_nil, List.getLast?_append,
        List.getLast?_eq_some_getLast hne]
      rfl)
    rw [hlast] at hmem
    cases hmem
  rw [hws.groups_eq, hxs.groups_eq, hx.groups_eq]
  rw [Pattern.upTo_eq hsplit, ← hrest, hsplit, hws_rest, hnil, hws_nil]
  simp

theorem exists_titleGroup (hbody : Body body) (hrest : c.rest = body) :
    ∃ d, (titleGroup n).Matches c d := by
  obtain ⟨x, xs, rfl⟩ := List.exists_cons_of_ne_nil hbody.ne_nil
  have hdot : ∀ y ∈ x :: xs, (y != 10) = true := by
    intro y hy
    rw [bne_iff_ne]
    rintro rfl
    exact hbody.lineFeed_not_mem hy
  rw [List.forall_mem_cons] at hdot
  obtain ⟨e', hfirst, hrest', -⟩ := @Pattern.exists_chars c (· != 10) _ _ hdot.1 hrest
  obtain ⟨e, hmore, hnil, -⟩ :=
    @Pattern.exists_star e' (· != 10) false xs [] hdot.2 (by rw [hrest', List.append_nil])
  exact ⟨_, .seq (.group (.seq hfirst hmore)) (.seq (.starNil _) (endOfText_of_nil hnil))⟩

/-- A word ends before white space or at the end of the line. -/
theorem head_of_end (h : Pattern.Matches (.oneOf [space, .endOfText]) c d) :
    (∀ x ∈ c.rest.head?, Str.isSpace x = true) ∧ d.groups = c.groups := by
  rcases Pattern.matches_alt_iff.mp h with h | h
  · obtain ⟨x, hx⟩ := Pattern.passes_of_chars h
    refine ⟨fun y hy => ?_, hx.groups_eq⟩
    rw [hx.rest_eq] at hy
    cases hy
    exact hx.accepted x (List.mem_cons_self ..)
  · obtain ⟨rfl, hend⟩ := rest_of_endOfText h
    refine ⟨fun y hy => ?_, rfl⟩
    rcases hend with hnil | hfeed
    · rw [hnil] at hy
      cases hy
    · rw [hfeed] at hy
      cases hy
      rfl

theorem head_ending (d : Option Duration) : ∀ c ∈ (ending d).head?, Str.isSpace c = true := by
  intro c hc
  cases d with
  | none => cases hc
  | some d =>
    cases hc
    rfl

end Group

section Escapes

variable {lead body : Str}

/-- No digit follows the intermediates of a control sequence. -/
theorem digit_not_mem {c final : Nat} {intermediates : Str} (hc : Str.isDigit c = true)
    (hintermediates : ∀ c ∈ intermediates, isIntermediate c = true) (hfinal : isFinal final = true) :
    c ∉ intermediates ++ [final] := by
  simp only [Str.isDigit, Bool.and_eq_true, decide_eq_true_iff] at hc
  intro hmem
  rcases List.mem_append.mp hmem with hmem | hmem
  · have hinter := hintermediates c hmem
    simp only [isIntermediate, Bool.and_eq_true, decide_eq_true_iff] at hinter
    omega
  · rw [List.mem_singleton.mp hmem] at hc
    simp only [isFinal, Bool.and_eq_true, decide_eq_true_iff] at hfinal
    omega

/-- A control sequence that reaches a duration would have to go on in it, which begins with
intermediates and goes on with a digit. -/
theorem AnsiFree.append_ending (hbody : AnsiFree body) (d : Option Duration) :
    AnsiFree (body ++ ending d) := by
  cases d with
  | none => rwa [ending, List.append_nil]
  | some d =>
    obtain ⟨first, more, hnumber, hfirst, -⟩ := d.number_eq
    obtain ⟨tail, htail⟩ : ∃ tail, ending (some d) = 32 :: 40 :: first :: tail := by
      rw [ending, hnumber]
      exact ⟨_, rfl⟩
    intro before after rest hsplit hansi
    obtain ⟨parameters, intermediates, final, heq, hparameters, hintermediates, hfinal⟩ :=
      hansi.sequence
    have hsequence : after = (27 :: 91 :: parameters) ++ (intermediates ++ [final]) ++ rest := by
      rw [heq]
      simp
    have hstart : before ++ after = body ++ ending (some d) := hsplit.symm
    rw [hsequence, ← List.append_assoc] at hsplit
    rcases List.append_eq_append_iff.mp hsplit with ⟨reach, hreach, hrest⟩ | ⟨within, hwithin, -⟩
    · have hnot := digit_not_mem hfirst hintermediates hfinal
      have hlast : ∀ c ∈ reach.getLast?, c = final := by
        intro c hc
        have hends := congrArg List.getLast? hreach
        rw [List.getLast?_append_of_ne_nil _ (by simp), List.getLast?_append_of_ne_nil _ (by simp),
          List.getLast?_concat, List.getLast?_append_of_ne_nil _ (by rintro rfl; cases hc), hc] at hends
        cases hends
        rfl
      simp only [isFinal, Bool.and_eq_true, decide_eq_true_iff] at hfinal
      rw [htail] at hrest
      rcases reach with _ | ⟨x, _ | ⟨y, _ | ⟨z, reach⟩⟩⟩
      · rw [List.append_nil] at hreach
        exact hbody before _ [] hreach.symm ⟨parameters, intermediates, final, by simp, hparameters,
          hintermediates, by simpa [isFinal] using hfinal⟩
      · have hx := hlast x rfl
        have hx' := (List.cons.inj hrest).1
        omega
      · have hy := hlast y rfl
        have hy' := (List.cons.inj (List.cons.inj hrest).2).1
        omega
      · -- the digit is a parameter, so the bracket before it is one too
        simp only [List.cons_append, List.cons.injEq] at hrest
        obtain ⟨rfl, rfl, rfl, -⟩ := hrest
        have hdigit : before ++ (27 :: 91 :: parameters) ++ (intermediates ++ [final]) =
            body ++ [32, 40] ++ first :: reach := by
          rw [List.append_assoc, hreach]
          simp
        rcases List.append_eq_append_iff.mp hdigit with ⟨more, -, hmore⟩ | ⟨part, hpart, hpart'⟩
        · exact hnot (by rw [hmore]; simp)
        · have hbracket : before ++ (27 :: 91 :: parameters) = body ++ [32] ++ 40 :: part := by
            rw [hpart]
            simp
          rcases List.append_eq_append_iff.mp hbracket with ⟨more, -, hmore⟩ | ⟨more, hmore, -⟩
          · have hmem : 40 ∈ 27 :: 91 :: parameters := by rw [hmore]; simp
            have hparameter := hparameters 40 (by simpa using hmem)
            cases hparameter
          · rw [hmore, List.append_assoc, List.append_assoc, List.append_cancel_left_eq] at hstart
            have hescape := mem_ending (some d) 27 (by rw [← hstart, hsequence]; simp)
            omega
    · -- the sequence lies in the body
      refine hbody before _ within (by rw [hwithin, List.append_assoc]) ⟨parameters, intermediates, final,
        by simp, hparameters, hintermediates, hfinal⟩

theorem ansiFree_nil : AnsiFree [] := by
  intro before after rest hnil hansi
  obtain ⟨-, rfl⟩ := List.append_eq_nil_iff.mp hnil.symm
  obtain ⟨parameters, intermediates, final, heq, -⟩ := hansi.sequence
  cases heq

theorem AnsiFree.append_lead (hbody : AnsiFree body) (hlead : 27 ∉ lead) : AnsiFree (lead ++ body) := by
  intro before after rest hsplit hansi
  rcases List.append_eq_append_iff.mp hsplit with ⟨more, -, hmore⟩ | ⟨part, hpart, hafter⟩
  · exact hbody more after rest hmore hansi
  · cases part with
    | nil => exact hbody [] after rest hafter.symm hansi
    | cons x part =>
      obtain ⟨parameters, intermediates, final, heq, -⟩ := hansi.sequence
      rw [hafter] at heq
      obtain ⟨rfl, -⟩ := List.cons.inj heq
      exact hlead (by rw [hpart]; simp)

end Escapes

section Rendered

/-- A row by its name and its status. -/
def TestRow.outcome (row : TestRow) : Str × Str := (row.name, row.status)

variable {ι : Type}

/-- The lines of a log: each line with colour codes in it, and blank lines between them. -/
inductive Rendered (plain : ι → Str) : List ι → List Str → Prop
  | nil : Rendered plain [] []
  | blank {line : Str} (hline : Painted [] line) {items : List ι} {lines : List Str}
    (h : Rendered plain items lines) : Rendered plain items (line :: lines)
  | line (item : ι) {line : Str} (hline : Painted (plain item) line) {items : List ι} {lines : List Str}
    (h : Rendered plain items lines) : Rendered plain (item :: items) (line :: lines)

/-- A log is its lines, each with its line feed. -/
def logText (lines : List Str) : Str := lines.flatMap (· ++ [10])

variable {plain : ι → Str} {items items' : List ι} {lines : List Str}

/-- Colours end no line. -/
theorem Painted.oneLine {body line : Str} (h : Painted body line)
    (hbody : ∀ c ∈ body, Str.isLineEnd c = false) : ∀ c ∈ line, Str.isLineEnd c = false := by
  induction h with
  | nil => exact hbody
  | char c h ih =>
    rw [List.forall_mem_cons] at hbody ⊢
    exact ⟨hbody.1, ih hbody.2⟩
  | colour codes hcodes h ih =>
    simp only [List.forall_mem_cons, List.forall_mem_append]
    refine ⟨rfl, rfl, fun c hc => ?_, rfl, ih hbody⟩
    have hcode := hcodes c hc
    simp only [Str.isDigit, Bool.and_eq_true, decide_eq_true_iff] at hcode
    simp only [Str.isLineEnd, Bool.or_eq_false_iff, Bool.and_eq_false_iff, decide_eq_false_iff_not,
      beq_eq_false_iff_ne]
    omega

theorem Rendered.splitlines (h : Rendered plain items lines)
    (hplain : ∀ item ∈ items, ∀ c ∈ plain item, Str.isLineEnd c = false) :
    (logText lines).splitlines = lines := by
  refine Str.splitlines_lines ?_
  induction h with
  | nil => simp
  | blank hline h ih => exact List.forall_mem_cons.mpr ⟨hline.oneLine (by simp), ih hplain⟩
  | line item hline h ih =>
    rw [List.forall_mem_cons] at hplain
    exact List.forall_mem_cons.mpr ⟨hline.oneLine hplain.1, ih hplain.2⟩

/-- The lines of one part of a log come before those of the next. -/
theorem Rendered.exists_append (h : Rendered plain (items ++ items') lines) :
    ∃ before after, lines = before ++ after ∧ Rendered plain items before ∧
      Rendered plain items' after := by
  generalize hall : items ++ items' = all at h
  induction h generalizing items with
  | nil =>
    obtain ⟨rfl, rfl⟩ := List.append_eq_nil_iff.mp hall
    exact ⟨[], [], rfl, .nil, .nil⟩
  | blank hline h ih =>
    obtain ⟨before, after, rfl, hbefore, hafter⟩ := ih hall
    exact ⟨_ :: before, after, rfl, .blank hline hbefore, hafter⟩
  | line item hline h ih =>
    cases items with
    | nil =>
      rw [List.nil_append] at hall
      subst hall
      exact ⟨[], _, rfl, .nil, .line item hline h⟩
    | cons first items =>
      obtain ⟨rfl, hrest⟩ := List.cons.inj hall
      obtain ⟨before, after, rfl, hbefore, hafter⟩ := ih hrest
      exact ⟨_ :: before, after, rfl, .line first hline hbefore, hafter⟩

/-- A reader that passes over blank lines and takes each line as it is meant reads a whole log so. -/
theorem Rendered.foldl {σ α : Type} (step : σ → Str × Nat → σ) (next : α → ι → α) (Reads : σ → α → Prop)
    (h : Rendered plain items lines)
    (hblank : ∀ state view line n, Painted [] line → Reads state view → Reads (step state (line, n)) view)
    (hline : ∀ state view item line n, item ∈ items → Painted (plain item) line → Reads state view →
      Reads (step state (line, n)) (next view item))
    {state : σ} (view : α) (hstart : Reads state view) (n : Nat) :
    Reads ((lines.zipIdx n).foldl step state) (items.foldl next view) := by
  induction h generalizing state view n with
  | nil => exact hstart
  | blank hpainted h ih => exact ih hline _ (hblank _ _ _ n hpainted hstart) (n + 1)
  | line item hpainted h ih =>
    exact ih (fun state view item line n hmem => hline state view item line n (List.mem_cons_of_mem _ hmem))
      _ (hline _ _ item _ n (List.mem_cons_self ..) hpainted hstart) (n + 1)

end Rendered

end OpenCollabEval.Reporter
