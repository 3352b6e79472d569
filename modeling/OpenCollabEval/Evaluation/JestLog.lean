import OpenCollabEval.Evaluation.ReporterBodies

/-!
# Logs of Jest

What Jest prints in its verbose form: a header for each test file, and below it a line for each suite and
for each test. The reader takes a title at the second level for a line of a stack trace when it begins
with `at `, and finds every other line as it was meant.
-/

open Python

namespace OpenCollabEval.Reporter

section Printed

/-- The markers of a test. -/
inductive JestMark where
  | passed (heavy : Bool)
  | failed (heavy : Bool)
  | skipped
  deriving DecidableEq

/-- The marker as it is printed. -/
def JestMark.code : JestMark → Nat
  | passed false => 0x2713
  | passed true => 0x2714
  | failed false => 0x2715
  | failed true => 0xD7
  | skipped => 0x25CB

/-- The status of a test with a marker. -/
def JestMark.status : JestMark → Str
  | passed _ => "PASSED"
  | failed _ => "FAILED"
  | skipped => "SKIPPED"

/-- A text begins with a marker or with the bullet of failure details. -/
def JestMarked (s : Str) : Prop := ∃ c ∈ s.head?, c ∈ lit "✓✔✕×○●"

/-- The name of a JavaScript or TypeScript file. -/
structure IsScript (name : Str) : Prop where
  noSpace : ∀ c ∈ name, Str.isSpace c = false
  extension : ∃ stem kind language react,
    name = stem ++ (lit "." ++ (kind ++ language :: (lit "s" ++ react))) ∧ stem ≠ [] ∧
      (kind = [] ∨ kind = lit "c" ∨ kind = lit "m") ∧ (language = 106 ∨ language = 116) ∧
        (react = [] ∨ react = lit "x")

variable (digits : Decimals)

/-- A test file with its suites and tests. -/
structure JestFile where
  name : Str
  script : IsScript name
  failed : Bool
  time : Option Duration
  forest : Forest (JestMark × Option Duration) (Title digits JestMarked)

/-- What Jest prints a line for. -/
inductive JestPiece where
  | header (file : JestFile digits)
  | item (item : Item (JestMark × Option Duration) (Title digits JestMarked))

variable {digits}

/-- The line of a header. -/
def headerText (failed : Bool) (name : Str) (time : Option Duration) : Str :=
  (if failed then lit "FAIL" else lit "PASS") ++ 32 :: (name ++ ending time)

/-- The line of a header, of a test or of a suite. -/
def JestPiece.text : JestPiece digits → Str
  | header file => headerText file.failed file.name file.time
  | item (.test indent mark title) =>
    spaces indent ++ mark.1.code :: 32 :: (title.text ++ ending mark.2)
  | item (.suite indent title) => spaces indent ++ title.text

/-- The lines of a file. -/
def JestFile.pieces (file : JestFile digits) : List (JestPiece digits) :=
  .header file :: (file.forest.items 2).map .item

end Printed

section Lines

variable {digits : Decimals} {indent : Nat} {body : Str}

theorem JestMark.not_space (mark : JestMark) : Str.isSpace mark.code = false := by
  rcases mark with heavy | heavy | _ <;> (try cases heavy) <;> rfl

theorem JestMark.mem_marks (mark : JestMark) : mark.code ∈ lit "✓✔✕×○" := by
  rcases mark with heavy | heavy | _ <;> (try cases heavy) <;> decide

theorem not_space_of_mem_marks {c : Nat} (h : decide (c ∈ lit "✓✔✕×○") = true) :
    Str.isSpace c = false := by
  have hmarks : ∀ c ∈ lit "✓✔✕×○", Str.isSpace c = false := by decide
  exact hmarks c (of_decide_eq_true h)

/-- A line of a test gives its indentation, its marker and the rest. -/
theorem jestTest_test (mark : JestMark) (hindent : 0 < indent) (hbody : Body body) :
    ∃ e, jestTest.matchStart (spaces indent ++ mark.code :: 32 :: body) = some e ∧
      e.groups = [(3, body), (2, [mark.code]), (1, spaces indent)] := by
  have hspaces : spaces indent ≠ [] := by
    rw [spaces, Ne, List.replicate_eq_nil_iff]
    omega
  obtain ⟨c₁, h₁, hrest₁⟩ := Pattern.exists_group (n := 1) (@Pattern.exists_plus
    (.start (spaces indent ++ mark.code :: 32 :: body)) Str.isSpace _ _ hspaces
    isSpace_of_mem_spaces rfl)
  obtain ⟨c₂, h₂, hrest₂⟩ := Pattern.exists_group (n := 2) (@Pattern.exists_chars c₁
    (fun c => decide (c ∈ lit "✓✔✕×○")) _ _ (decide_eq_true mark.mem_marks) hrest₁)
  obtain ⟨c₃, h₃, hrest₃, -⟩ := @Pattern.exists_plus c₂ Str.isSpace [32] body (by simp) (by decide) hrest₂
  obtain ⟨d, h₄⟩ := @exists_titleGroup _ c₃ 3 hbody hrest₃
  refine Pattern.exists_matchStart (.seq (Pattern.matches_look_iff.mpr ⟨rfl, rfl⟩)
    (.seq h₁ (.seq h₂ (.seq h₃ h₄)))) fun e he => ?_
  obtain ⟨c₀, hstart, he⟩ := Pattern.matches_seq_iff.mp he
  obtain ⟨rfl, -⟩ := Pattern.matches_look_iff.mp hstart
  obtain ⟨c₁, hindents, he⟩ := Pattern.matches_seq_iff.mp he
  obtain ⟨c₂, hmark, he⟩ := Pattern.matches_seq_iff.mp he
  obtain ⟨c₃, hspace, htitle⟩ := Pattern.matches_seq_iff.mp he
  obtain ⟨ws, -, hws, hrest, hgroups₁⟩ := Pattern.group_of_plus hindents
  obtain ⟨x, hx, hrest', hgroups₂⟩ := Pattern.group_of_chars hmark
  obtain ⟨ws', hne, hspace⟩ := Pattern.passes_of_plus hspace
  rw [hrest'] at hrest
  obtain ⟨rfl, rfl, hafter⟩ := run_unique isSpace_of_mem_spaces hws mark.not_space
    (not_space_of_mem_marks hx) hrest
  have hbody_rest := rest_eq_of_spaces hbody.first hne hspace.accepted (hafter.trans hspace.rest_eq)
  rw [groups_of_titleGroup hbody htitle hbody_rest, hspace.groups_eq, hgroups₂, hgroups₁]
  rfl

/-- A line of a suite is no line of a test. -/
theorem jestTest_suite (hbody : Body body) (hmarked : ¬JestMarked body) :
    jestTest.matchStart (spaces indent ++ body) = none := by
  refine Pattern.matchStart_eq_none fun e he => ?_
  obtain ⟨x, rest, rfl⟩ := List.exists_cons_of_ne_nil hbody.ne_nil
  obtain ⟨c₀, hstart, he⟩ := Pattern.matches_seq_iff.mp he
  obtain ⟨rfl, -⟩ := Pattern.matches_look_iff.mp hstart
  obtain ⟨c₁, hindents, he⟩ := Pattern.matches_seq_iff.mp he
  obtain ⟨c₂, hmark, -⟩ := Pattern.matches_seq_iff.mp he
  obtain ⟨ws, -, hws, hrest, -⟩ := Pattern.group_of_plus hindents
  obtain ⟨y, hy, hrest', -⟩ := Pattern.group_of_chars hmark
  rw [hrest'] at hrest
  obtain ⟨-, rfl, -⟩ := run_unique isSpace_of_mem_spaces hws (hbody.first x rfl)
    (not_space_of_mem_marks hy) hrest
  refine hmarked ⟨x, rfl, ?_⟩
  have hmarks : ∀ c ∈ lit "✓✔✕×○", c ∈ lit "✓✔✕×○●" := by decide
  exact hmarks x (of_decide_eq_true hy)

theorem jestHeader_indented (s : Str) : jestHeader.matchStart (32 :: s) = none := rfl

theorem jestSummary_indented (s : Str) : jestSummary.matchStart (32 :: s) = none := rfl

/-- Only the bullet of failure details begins as they do. -/
theorem startsWith_bullet {x : Nat} {rest : Str} (hne : x ≠ 0x25CF) (n : Nat) :
    Str.startsWith (spaces (n + 2) ++ x :: rest) "  ●" = false := by
  change List.isPrefixOf [32, 32, 0x25CF] (32 :: 32 :: (spaces n ++ x :: rest)) = false
  cases n with
  | zero => simpa [spaces, List.isPrefixOf] using hne.symm
  | succ n => simp [spaces, List.replicate_succ, List.isPrefixOf]

/-- A title is taken for a line of a stack trace at the second level, when it begins as one. -/
theorem startsWith_at (hbody : Body body) (n : Nat) :
    Str.startsWith (spaces (n + 2) ++ body) "    at " =
      (n + 2 == 4 && body.startsWith "at ") := by
  obtain ⟨x, rest, rfl⟩ := List.exists_cons_of_ne_nil hbody.ne_nil
  have hx : x ≠ 32 := by
    rintro rfl
    exact absurd (hbody.first 32 rfl) (by decide)
  change List.isPrefixOf [32, 32, 32, 32, 97, 116, 32] (32 :: 32 :: (spaces n ++ x :: rest)) = _
  match n with
  | 0 => simp [spaces, List.isPrefixOf, hx.symm]
  | 1 => simp [spaces, List.isPrefixOf, hx.symm]
  | 2 => rfl
  | n + 3 => simp [spaces, List.replicate_succ, List.isPrefixOf]

end Lines

section Header

variable {digits : Decimals} {name : Str} {c d : Cursor}

/-- `[^\s]+\.[cm]?[jt]sx?` -/
def scriptName : Pattern :=
  .concat [.plus (.chars fun c => !Str.isSpace c), .text ".",
    .opt (.chars fun c => c == 99 || c == 109), .chars fun c => c == 106 || c == 116, .text "s",
    .opt (.text "x")]

theorem exists_scriptName (h : IsScript name) {rest : Str} (hrest : c.rest = name ++ rest) :
    ∃ d, scriptName.Matches c d ∧ d.rest = rest ∧ d.groups = c.groups := by
  obtain ⟨stem, kind, language, react, rfl, hstem, hkind, hlanguage, hreact⟩ := h.extension
  have hstem_space : ∀ x ∈ stem, (!Str.isSpace x) = true := by
    intro x hx
    rw [h.noSpace x (by simp [hx])]
    rfl
  simp only [List.append_assoc, List.cons_append] at hrest
  obtain ⟨c₁, h₁, hrest₁, hgroups₁⟩ := Pattern.exists_plus hstem hstem_space hrest
  obtain ⟨c₂, h₂, hrest₂, hgroups₂⟩ := Pattern.exists_lit hrest₁
  obtain ⟨c₃, h₃, hrest₃, hgroups₃⟩ : ∃ c₃, Pattern.Matches
      (.opt (.chars fun c => c == 99 || c == 109)) c₂ c₃ ∧
        c₃.rest = language :: (lit "s" ++ (react ++ rest)) ∧ c₃.groups = c₂.groups := by
    rcases hkind with rfl | rfl | rfl
    · exact ⟨c₂, .altRight (.empty c₂), hrest₂, rfl⟩
    · obtain ⟨c₃, h₃, hafter⟩ := @Pattern.exists_chars c₂ (fun c => c == 99 || c == 109) 99 _ rfl hrest₂
      exact ⟨c₃, .altLeft h₃, hafter⟩
    · obtain ⟨c₃, h₃, hafter⟩ := @Pattern.exists_chars c₂ (fun c => c == 99 || c == 109) 109 _ rfl hrest₂
      exact ⟨c₃, .altLeft h₃, hafter⟩
  obtain ⟨c₄, h₄, hrest₄, hgroups₄⟩ :=
    @Pattern.exists_chars c₃ (fun c => c == 106 || c == 116) _ _ (by simpa using hlanguage) hrest₃
  obtain ⟨c₅, h₅, hrest₅, hgroups₅⟩ := Pattern.exists_lit hrest₄
  obtain ⟨d, h₆, hrest₆, hgroups₆⟩ := exists_opt_lit hreact hrest₅
  refine ⟨d, .seq h₁ (.seq h₂ (.seq h₃ (.seq h₄ (.seq h₅ h₆)))), hrest₆, ?_⟩
  rw [hgroups₆, hgroups₅, hgroups₄, hgroups₃, hgroups₂, hgroups₁]

/-- What is read as the name of a file has no white space. -/
theorem passes_of_scriptName (h : scriptName.Matches c d) :
    ∃ word, word ≠ [] ∧ (∀ x ∈ word, Str.isSpace x = false) ∧ c.rest = word ++ d.rest ∧
      d.groups = c.groups := by
  obtain ⟨c₁, hstem, h⟩ := Pattern.matches_seq_iff.mp h
  obtain ⟨c₂, hpoint, h⟩ := Pattern.matches_seq_iff.mp h
  obtain ⟨c₃, hkind, h⟩ := Pattern.matches_seq_iff.mp h
  obtain ⟨c₄, hlanguage, h⟩ := Pattern.matches_seq_iff.mp h
  obtain ⟨c₅, hs, hreact⟩ := Pattern.matches_seq_iff.mp h
  obtain ⟨stem, hne, hstem⟩ := Pattern.passes_of_plus hstem
  obtain ⟨hrest₂, hgroups₂⟩ := Pattern.passes_of_lit hpoint
  obtain ⟨kind, hkind, hrest₃, hgroups₃⟩ : ∃ kind, (∀ x ∈ kind, Str.isSpace x = false) ∧
      c₂.rest = kind ++ c₃.rest ∧ c₃.groups = c₂.groups := by
    rcases Pattern.matches_alt_iff.mp hkind with hkind | hkind
    · obtain ⟨x, hx⟩ := Pattern.passes_of_chars hkind
      refine ⟨[x], fun y hy => ?_, hx.rest_eq, hx.groups_eq⟩
      have haccepted := hx.accepted y hy
      simp only [Bool.or_eq_true, beq_iff_eq] at haccepted
      rcases haccepted with rfl | rfl <;> rfl
    · obtain rfl := Pattern.matches_empty_iff.mp hkind
      exact ⟨[], by simp, rfl, rfl⟩
  obtain ⟨x, hx⟩ := Pattern.passes_of_chars hlanguage
  obtain ⟨hrest₅, hgroups₅⟩ := Pattern.passes_of_lit hs
  obtain ⟨react, hreact, hrest₆, hgroups₆⟩ := passes_of_opt_lit hreact
  refine ⟨stem ++ (lit "." ++ (kind ++ ([x] ++ (lit "s" ++ react)))), by simp [hne], ?_, ?_, ?_⟩
  · simp only [List.forall_mem_append]
    refine ⟨fun y hy => by simpa using hstem.accepted y hy, by decide, hkind, fun y hy => ?_, by decide, ?_⟩
    · have haccepted := hx.accepted y hy
      simp only [Bool.or_eq_true, beq_iff_eq] at haccepted
      rcases haccepted with rfl | rfl <;> rfl
    · rcases hreact with rfl | rfl
      · simp
      · decide
  · rw [hstem.rest_eq, hrest₂, hrest₃, hx.rest_eq, hrest₅, hrest₆]
    simp
  · rw [hgroups₆, hgroups₅, hx.groups_eq, hgroups₃, hgroups₂, hstem.groups_eq]

theorem IsScript.ne_nil (h : IsScript name) : name ≠ [] := by
  obtain ⟨stem, kind, language, react, rfl, hstem, -⟩ := h.extension
  simp [hstem]

theorem exists_header (failed : Bool) (h : IsScript name) (time : Option Duration) :
    ∃ e, jestHeader.Matches (.start (headerText failed name time)) e := by
  obtain ⟨c₁, h₁, hrest₁⟩ : ∃ c₁, Pattern.Matches (.oneOf [.text "PASS", .text "FAIL"])
      (.start (headerText failed name time)) c₁ ∧ c₁.rest = 32 :: (name ++ ending time) := by
    cases failed with
    | false =>
      obtain ⟨c₁, h₁, hrest₁, -⟩ :=
        @Pattern.exists_lit (.start (headerText false name time)) (lit "PASS") _ rfl
      exact ⟨c₁, .altLeft h₁, hrest₁⟩
    | true =>
      obtain ⟨c₁, h₁, hrest₁, -⟩ :=
        @Pattern.exists_lit (.start (headerText true name time)) (lit "FAIL") _ rfl
      exact ⟨c₁, .altRight h₁, hrest₁⟩
  obtain ⟨c₂, h₂, hrest₂, -⟩ := @Pattern.exists_plus c₁ Str.isSpace [32] (name ++ ending time) (by simp)
    (by decide) hrest₁
  obtain ⟨c₃, h₃, hrest₃⟩ := Pattern.exists_group (n := 1) (exists_scriptName h hrest₂)
  obtain ⟨c₄, h₄⟩ : ∃ c₄, Pattern.Matches (.oneOf [space, .endOfText]) c₃ c₄ := by
    cases time with
    | none => exact ⟨c₃, .altRight (endOfText_of_nil hrest₃)⟩
    | some time =>
      obtain ⟨c₄, h₄, -⟩ := @Pattern.exists_chars c₃ Str.isSpace 32 _ rfl hrest₃
      exact ⟨c₄, .altLeft h₄⟩
  exact ⟨c₄, .seq (Pattern.matches_look_iff.mpr ⟨rfl, rfl⟩) (.seq h₁ (.seq h₂ (.seq h₃ h₄)))⟩

/-- The group of a header is the name of its file. -/
theorem group_of_header {failed : Bool} (h : IsScript name) {time : Option Duration}
    (hmatch : jestHeader.Matches (.start (headerText failed name time)) d) : d.group 1 = name := by
  obtain ⟨c₀, hstart, hmatch⟩ := Pattern.matches_seq_iff.mp hmatch
  obtain ⟨rfl, -⟩ := Pattern.matches_look_iff.mp hstart
  obtain ⟨c₁, hverdict, hmatch⟩ := Pattern.matches_seq_iff.mp hmatch
  obtain ⟨c₂, hspace, hmatch⟩ := Pattern.matches_seq_iff.mp hmatch
  obtain ⟨c₃, hgroup, hend⟩ := Pattern.matches_seq_iff.mp hmatch
  have hrest₁ : 32 :: (name ++ ending time) = c₁.rest := by
    rcases Pattern.matches_alt_iff.mp hverdict with hverdict | hverdict <;>
      have hrest := (Pattern.passes_of_lit hverdict).1 <;> cases failed
    · exact List.append_cancel_left hrest
    · exact absurd (List.cons.inj hrest).1 (by decide)
    · exact absurd (List.cons.inj hrest).1 (by decide)
    · exact List.append_cancel_left hrest
  obtain ⟨ws, hne, hws⟩ := Pattern.passes_of_plus hspace
  obtain ⟨e, hscript, rfl⟩ := Pattern.matches_group_iff.mp hgroup
  obtain ⟨word, -, hnoSpace, hrest, -⟩ := passes_of_scriptName hscript
  obtain ⟨hafter, hgroups⟩ := head_of_end hend
  have hfirst : ∀ c ∈ (name ++ ending time).head?, Str.isSpace c = false := by
    intro c hc
    rw [List.head?_append_of_ne_nil _ h.ne_nil] at hc
    exact h.noSpace c (List.mem_of_mem_head? hc)
  have hname := rest_eq_of_spaces hfirst hne hws.accepted (hrest₁.trans hws.rest_eq)
  have hsame := word_unique h.noSpace hnoSpace (head_ending time) hafter (hname.symm.trans hrest)
  rw [Cursor.group, hgroups, Pattern.upTo_eq hrest, ← hsame]
  rfl

/-- A header gives the name of its file. -/
theorem jestHeader_header (failed : Bool) (h : IsScript name) (time : Option Duration) :
    ∃ e, jestHeader.matchStart (headerText failed name time) = some e ∧ e.group 1 = name := by
  obtain ⟨e, he⟩ := exists_header failed h time
  exact Pattern.exists_matchStart he fun d hd => group_of_header h hd

end Header

section Steps

variable {digits : Decimals} {source : Str} {state : JestState} {line : Str} {n indent : Nat}

theorem jestLine_blank (hline : Painted [] line) :
    jestLine digits source state (line, n) = state := by
  have hplain := sub_painted hline ansiFree_nil
  have hheader : jestHeader.matchStart [] = none := rfl
  simp only [jestLine, hplain, hheader]
  cases state.file <;> rfl

theorem jestLine_header (file : JestFile digits) (hfree : AnsiFree file.name)
    (hline : Painted (JestPiece.header file).text line) :
    jestLine digits source state (line, n) =
      { state with file := some file.name, stack := [], details := false } := by
  have hverdict : 27 ∉ (if file.failed then lit "FAIL" else lit "PASS") ++ [32] := by
    cases file.failed <;> decide
  have hplain := sub_painted hline (by
    have hlead := (hfree.append_ending file.time).append_lead hverdict
    rwa [List.append_assoc] at hlead)
  obtain ⟨e, he, hgroup⟩ := jestHeader_header file.failed file.script file.time
  simp only [jestLine, hplain, JestPiece.text, he, hgroup]

variable {file : Str} {mark : JestMark × Option Duration} {title : Title digits JestMarked}

/-- The status that the reader gives a marker. -/
theorem JestMark.status_of_code (mark : JestMark) :
    (if (lit "✓✔").contains [mark.code] then lit "PASSED"
      else if (lit "✕×").contains [mark.code] then lit "FAILED" else lit "SKIPPED") = mark.status := by
  rcases mark with heavy | heavy | _ <;> (try cases heavy) <;> decide

/-- Neither a header nor the end of the tests, but a line with something on it. -/
structure IsIndented (plain : Str) : Prop where
  header : jestHeader.matchStart plain = none
  notEmpty : plain.strip.isEmpty = false
  bullet : plain.startsWith "  ●" = false
  summary : jestSummary.matchStart plain = none

theorem isIndented {body : Str} (hbody : Body body) (hbullet : ∀ c ∈ body.head?, c ≠ 0x25CF)
    (hindent : 2 ≤ indent) : IsIndented (spaces indent ++ body) := by
  obtain ⟨m, rfl⟩ : ∃ m, indent = m + 2 := ⟨indent - 2, by omega⟩
  refine ⟨rfl, ?_, ?_, rfl⟩
  · rw [strip_spaces hbody, List.isEmpty_eq_false_iff]
    exact hbody.ne_nil
  · obtain ⟨x, rest, rfl⟩ := List.exists_cons_of_ne_nil hbody.ne_nil
    exact startsWith_bullet (hbullet x rfl) m

/-- A row for a test. -/
theorem jestLine_test (hfile : state.file = some file) (hdetails : state.details = false)
    (hfree : AnsiFree title.text) (hindent : 2 ≤ indent)
    (hline : Painted (JestPiece.item (.test indent mark title)).text line) :
    ∃ row : TestRow, row.outcome = named " | " [file]
        (titles (popTo indent state.stack) ++ [title.text], mark.1.status) ∧
      jestLine digits source state (line, n) =
        { state with stack := popTo indent state.stack, rows := state.rows ++ [row] } := by
  have hmark : 27 ∉ spaces indent ++ [mark.1.code, 32] := by
    simp only [List.mem_append, List.mem_cons, List.not_mem_nil, or_false, not_or]
    refine ⟨escape_not_mem_spaces, fun heq => ?_, by omega⟩
    exact absurd (heq ▸ mark.1.mem_marks) (by decide)
  have hplain := sub_painted hline (by
    have hlead := (hfree.append_ending mark.2).append_lead hmark
    rwa [List.append_assoc] at hlead)
  have hbody : Body (mark.1.code :: 32 :: (title.text ++ ending mark.2)) :=
    (title.body_ending mark.2).marked (List.cons_ne_nil mark.1.code []) (by simpa using mark.1.not_space)
  have hshape := isIndented hbody (by
    intro c hc
    cases hc
    rintro heq
    exact absurd (heq ▸ mark.1.mem_marks) (by decide)) hindent
  obtain ⟨e, he, hgroups⟩ := jestTest_test mark.1 (show 0 < indent by omega) (title.body_ending mark.2)
  have hindents : (e.group 1).length = indent := by
    rw [Cursor.group, hgroups]
    exact List.length_replicate ..
  have hmark_group : e.group 2 = [mark.1.code] := by
    rw [Cursor.group, hgroups]
    rfl
  have htitle : e.group 3 = title.text ++ ending mark.2 := by
    rw [Cursor.group, hgroups]
    rfl
  refine ⟨⟨(named " | " [file] (titles (popTo indent state.stack) ++ [title.text], mark.1.status)).1,
    mark.1.status, source, n, line⟩, rfl, ?_⟩
  simp only [jestLine, hplain, JestPiece.text, hshape.header, hshape.notEmpty, hshape.bullet,
    hshape.summary, hfile, hdetails, he, hindents, hmark_group, htitle, sub_duration,
    mark.1.status_of_code]
  rfl

/-- A suite that is seen is opened. -/
theorem jestLine_suite (hfile : state.file = some file) (hdetails : state.details = false)
    (hfree : AnsiFree title.text) (hindent : 2 ≤ indent)
    (hline : Painted (JestPiece.item (.suite indent title)).text line) :
    jestLine digits source state (line, n) =
      if unseenAt Title.text (Str.startsWith · "at ") indent title then state
      else { state with stack := (indent, title.text) :: popTo indent state.stack } := by
  have hplain := sub_painted hline (hfree.append_lead escape_not_mem_spaces)
  have hshape := isIndented title.body (by
    intro c hc heq
    exact title.unmarked ⟨c, hc, heq ▸ by decide⟩) hindent
  obtain ⟨m, rfl⟩ : ∃ m, indent = m + 2 := ⟨indent - 2, by omega⟩
  have hwide : Str.startsWith (spaces (m + 2) ++ title.text) "  " = true := rfl
  have hempty := hshape.notEmpty
  rw [strip_spaces title.body] at hempty
  simp only [jestLine, hplain, JestPiece.text, hshape.header, hempty, hshape.bullet,
    hshape.summary, hfile, hdetails, jestTest_suite title.body title.unmarked, hwide,
    startsWith_at title.body, indentOf_spaces title.body, strip_spaces title.body, unseenAt]
  cases (m + 2 == 4 && Str.startsWith title.text "at ") <;> rfl

end Steps

section Runs

variable {digits : Decimals} {source : Str} {files : List (JestFile digits)} {file : JestFile digits}
  {lines : List Str}

/-- The status on the line of a test. -/
def jestStatus (mark : JestMark × Option Duration) : Str := mark.1.status

/-- The suites of the second level that the reader takes for lines of a stack trace. -/
def looksTraced : Nat → Title digits JestMarked → Bool := unseenAt Title.text (Str.startsWith · "at ")

/-- No control sequence stands in the name or in a title of a file. -/
def JestFile.EscapeFree (file : JestFile digits) : Prop :=
  AnsiFree file.name ∧ file.forest.Every fun title => AnsiFree title.text

/-- The tests of a file, by the names that their rows have to have. -/
def JestFile.results (file : JestFile digits) : List (Str × Str) :=
  (file.forest.results Title.text jestStatus []).map (named " | " [file.name])

/-- What the reader knows of a file whose tests follow rows that it had before. -/
structure JestReads (name : Str) (before : List (Str × Str)) (state : JestState) (seen : Seen) : Prop where
  file_eq : state.file = some name
  stack_eq : state.stack = seen.1
  details_eq : state.details = false
  rows_eq : state.rows.map TestRow.outcome = before ++ seen.2.map (named " | " [name])

/-- One item. -/
def jestNext (seen : Seen) (item : Item (JestMark × Option Duration) (Title digits JestMarked)) : Seen :=
  if isSeen looksTraced item then see Title.text jestStatus seen item else seen

theorem jestReads_item {item : Item (JestMark × Option Duration) (Title digits JestMarked)}
    (hfree : AnsiFree item.title.text) (hindent : 2 ≤ item.indent) {before : List (Str × Str)}
    {state : JestState} {seen : Seen} {name line : Str} {n : Nat}
    (hline : Painted (JestPiece.item item).text line) (h : JestReads name before state seen) :
    JestReads name before (jestLine digits source state (line, n)) (jestNext seen item) := by
  cases item with
  | test indent mark title =>
    obtain ⟨row, hrow, hstep⟩ := jestLine_test h.file_eq h.details_eq hfree hindent hline
    have hnext : jestNext seen (.test indent mark title) =
        (popTo indent seen.1, seen.2 ++ [(titles (popTo indent seen.1) ++ [title.text], mark.1.status)]) :=
      rfl
    rw [hstep, hnext]
    refine ⟨h.file_eq, by rw [h.stack_eq]; rfl, h.details_eq, ?_⟩
    rw [List.map_append, h.rows_eq, List.map_append, List.append_assoc, List.map_singleton, hrow,
      h.stack_eq]
    rfl
  | suite indent title =>
    have hstep : jestLine digits source state (line, n) = if looksTraced indent title then state
        else { state with stack := (indent, title.text) :: popTo indent state.stack } :=
      jestLine_suite h.file_eq h.details_eq hfree hindent hline
    rw [hstep, jestNext, isSeen]
    cases looksTraced indent title with
    | true => exact h
    | false => exact ⟨h.file_eq, by rw [if_neg (by decide), h.stack_eq]; rfl, h.details_eq, h.rows_eq⟩

/-- One printed line below a header. -/
def jestNextPiece (seen : Seen) : JestPiece digits → Seen
  | .header _ => seen
  | .item item => jestNext seen item

/-- Before the header the rows are those of the files before, and after it nothing of the file is read. -/
def JestStarts (name : Str) (before : List (Str × Str)) (state : JestState) (started : Bool) : Prop :=
  if started then JestReads name before state ([], []) else state.rows.map TestRow.outcome = before

/-- The lines of one file. -/
theorem jestReads_file (hfree : file.EscapeFree) (hlines : Rendered JestPiece.text file.pieces lines)
    (state : JestState) (n : Nat) :
    JestReads file.name (state.rows.map TestRow.outcome)
      ((lines.zipIdx n).foldl (jestLine digits source) state)
      ((file.forest.items 2).foldl jestNext ([], [])) := by
  rw [JestFile.pieces, ← List.singleton_append] at hlines
  obtain ⟨above, below, rfl, habove, hbelow⟩ := hlines.exists_append
  have hheader : JestReads file.name (state.rows.map TestRow.outcome)
      ((above.zipIdx n).foldl (jestLine digits source) state) ([], []) := by
    refine habove.foldl (jestLine digits source) (fun _ _ => true)
      (JestStarts file.name (state.rows.map TestRow.outcome)) (fun state' started line n hline hreads => ?_)
      (fun state' started piece line n hpiece hline hreads => ?_) false rfl n
    · rwa [jestLine_blank hline]
    · rw [List.mem_singleton.mp hpiece] at hline
      rw [jestLine_header file hfree.1 hline, JestStarts, if_pos rfl]
      refine ⟨rfl, rfl, rfl, ?_⟩
      cases started with
      | true => exact hreads.rows_eq
      | false => exact Eq.trans hreads (List.append_nil _).symm
  have hitems := hbelow.foldl (jestLine digits source) jestNextPiece
    (JestReads file.name (state.rows.map TestRow.outcome))
    (fun state' seen line n hline hreads => by rwa [jestLine_blank hline])
    (fun state' seen piece line n hpiece hline hreads => by
      obtain ⟨item, hitem, rfl⟩ := List.mem_map.mp hpiece
      obtain ⟨htitle, hindent⟩ := Forest.mem_items hfree.2 hitem
      exact jestReads_item htitle hindent hline hreads) _ hheader (n + above.length)
  rw [List.foldl_map] at hitems
  rw [List.zipIdx_append, List.foldl_append]
  exact hitems

/-- What is read of a file. -/
def JestFile.read (file : JestFile digits) : List (Str × Str) :=
  ((file.forest.items 2).foldl jestNext ([], [])).2.map (named " | " [file.name])

/-- A file is read as it was printed when no suite that is taken for a line of a stack trace has a test. -/
theorem JestFile.read_eq_iff (file : JestFile digits) :
    file.read.length = file.results.length ∧
      (file.read = file.results ↔ ¬file.forest.Loses looksTraced 2) := by
  have hfilter : (file.forest.items 2).foldl jestNext ([], []) =
      ((file.forest.items 2).filter (isSeen looksTraced)).foldl (see Title.text jestStatus) ([], []) := by
    rw [List.foldl_filter]
    rfl
  obtain ⟨added, hadded⟩ : ∃ added, ReadWithout " | " [file.name] (Str.startsWith · "at ") Title.text
      jestStatus file.forest 2 [] [] (((file.forest.items 2).filter (isSeen looksTraced)).foldl
        (see Title.text jestStatus) ([], [])) added :=
    readWithout " | " (by decide) [file.name] (by simp) jestStatus file.forest (.inl rfl)
      (.inl rfl) (show popTo 2 [] = [] from rfl) []
  have hread : file.read = added.map (named " | " [file.name]) := by
    rw [JestFile.read, hfilter, hadded.found_eq, List.nil_append]
  rw [hread, JestFile.results, List.length_map, List.length_map]
  exact ⟨hadded.length_eq, hadded.named_iff⟩

/-- The lines of all files. -/
theorem rows_of_files (hfree : ∀ file ∈ files, file.EscapeFree)
    (hlines : Rendered JestPiece.text (files.flatMap JestFile.pieces) lines) (state : JestState) (n : Nat) :
    ((lines.zipIdx n).foldl (jestLine digits source) state).rows.map TestRow.outcome =
      state.rows.map TestRow.outcome ++ files.flatMap JestFile.read := by
  induction files generalizing lines state n with
  | nil =>
    exact hlines.foldl (jestLine digits source) (fun _ _ => ())
      (fun state' _ => state'.rows.map TestRow.outcome = state.rows.map TestRow.outcome ++ [])
      (fun state' _ line n hline hreads => by rwa [jestLine_blank hline])
      (fun _ _ _ _ _ hpiece => by cases hpiece) () (List.append_nil _).symm n
  | cons file files ih =>
    rw [List.flatMap_cons] at hlines
    obtain ⟨above, below, rfl, habove, hbelow⟩ := hlines.exists_append
    rw [List.forall_mem_cons] at hfree
    have hfile : JestReads file.name (state.rows.map TestRow.outcome)
        ((above.zipIdx n).foldl (jestLine digits source) state)
        ((file.forest.items 2).foldl jestNext ([], [])) := jestReads_file hfree.1 habove state n
    rw [List.zipIdx_append, List.foldl_append, ih hfree.2 hbelow, hfile.rows_eq, List.flatMap_cons,
      List.append_assoc, JestFile.read]

theorem JestPiece.oneLine (piece : JestPiece digits) : ∀ c ∈ piece.text, Str.isLineEnd c = false := by
  rcases piece with file | ⟨indent, mark, title⟩ | ⟨indent, title⟩
  · have hverdict : ∀ c ∈ if file.failed then lit "FAIL" else lit "PASS", Str.isLineEnd c = false := by
      cases file.failed <;> decide
    simp only [JestPiece.text, headerText, List.forall_mem_append, List.forall_mem_cons]
    exact ⟨hverdict, rfl, fun c hc => not_lineEnd (file.script.noSpace c hc), oneLine_ending file.time⟩
  · simp only [JestPiece.text, List.forall_mem_append, List.forall_mem_cons]
    exact ⟨oneLine_spaces, not_lineEnd mark.1.not_space, rfl, title.oneLine, oneLine_ending mark.2⟩
  · simp only [JestPiece.text, List.forall_mem_append]
    exact ⟨oneLine_spaces, title.oneLine⟩

/-- The rows of a log are its tests, under their whole paths, exactly when no suite of the second level
that begins as a line of a stack trace has a test. -/
theorem jestRows_eq_iff (hfree : ∀ file ∈ files, file.EscapeFree)
    (hlines : Rendered JestPiece.text (files.flatMap JestFile.pieces) lines) (source : Str) :
    (jestRows digits (logText lines) source).map TestRow.outcome = files.flatMap JestFile.results ↔
      ∀ file ∈ files, ¬file.forest.Loses looksTraced 2 := by
  rw [jestRows, hlines.splitlines fun piece _ => piece.oneLine, rows_of_files hfree hlines]
  change files.flatMap JestFile.read = _ ↔ _
  rw [flatMap_eq_iff fun file _ => file.read_eq_iff.1]
  exact forall₂_congr fun file _ => file.read_eq_iff.2

end Runs

end OpenCollabEval.Reporter
