import OpenCollabEval.Evaluation.ReporterBodies
import OpenCollabEval.Python.Digits

/-!
# Logs of Mocha

What Mocha's spec reporter prints: a line for each suite and for each test. The reader stops at the first
line of the summary, and takes the title of a suite for that line when it counts passing, failing or
pending things.
-/

open Python

namespace OpenCollabEval.Reporter

section Printed

/-- The markers of a test. -/
inductive MochaMark where
  | passed (heavy : Bool)
  | pending
  | failed (n : Nat)

/-- The marker as it is printed. -/
def MochaMark.text : MochaMark → Str
  | passed false => [0x2713]
  | passed true => [0x2714]
  | pending => [45]
  | failed n => natStr n ++ [41]

/-- The status of a test with a marker. -/
def MochaMark.status : MochaMark → Str
  | passed _ => "PASSED"
  | pending => "SKIPPED"
  | failed _ => "FAILED"

variable (digits : Decimals)

/-- A text begins with a marker. -/
def MochaMarked (s : Str) : Prop :=
  (∃ c ∈ s.head?, c ∈ lit "✓✔-") ∨
    ∃ number rest, number ≠ [] ∧ (∀ c ∈ number, digits.isDecimal c = true) ∧ s = number ++ 41 :: rest

/-- A text begins as the first line of the summary does. -/
structure IsSummary (s : Str) : Prop where
  parts : ∃ number word rest, s = number ++ 32 :: (word ++ rest) ∧
    (number ≠ [] ∧ ∀ c ∈ number, digits.isDecimal c = true) ∧
      (word = lit "passing" ∨ word = lit "failing" ∨ word = lit "pending") ∧
        ∀ c ∈ rest.head?, Str.isSpace c = true

variable {digits}

/-- The line of a test or of a suite. -/
def mochaText : Item (MochaMark × Option Duration) (Title digits (MochaMarked digits)) → Str
  | .test indent mark title => spaces indent ++ (mark.1.text ++ 32 :: (title.text ++ ending mark.2))
  | .suite indent title => spaces indent ++ title.text

end Printed

section Summary

variable {digits : Decimals} {indent : Nat} {body : Str}

/-- The first code points of a number and of a body end the indentation. -/
theorem exists_of_decimals {number : Str} (hne : number ≠ [])
    (hnumber : ∀ c ∈ number, digits.isDecimal c = true) :
    ∃ c rest, number = c :: rest ∧ digits.isDecimal c = true ∧ Str.isSpace c = false := by
  obtain ⟨c, rest, rfl⟩ := List.exists_cons_of_ne_nil hne
  have hc := hnumber c (List.mem_cons_self ..)
  exact ⟨c, rest, rfl, hc, digits.not_space c hc⟩

/-- Only a body that begins as the summary is taken for it. -/
theorem mochaSummary_iff (hbody : Body body) :
    ((mochaSummary digits).matchStart (spaces indent ++ body)).isSome = true ↔ IsSummary digits body := by
  constructor
  · intro h
    obtain ⟨e, he⟩ := Option.isSome_iff_exists.mp h
    obtain ⟨c₀, hstart, he⟩ := Pattern.matches_seq_iff.mp (Pattern.matchStart_sound he)
    obtain ⟨rfl, -⟩ := Pattern.matches_look_iff.mp hstart
    obtain ⟨c₁, hspaces, he⟩ := Pattern.matches_seq_iff.mp he
    obtain ⟨c₂, hnumber, he⟩ := Pattern.matches_seq_iff.mp he
    obtain ⟨c₃, hspace, he⟩ := Pattern.matches_seq_iff.mp he
    obtain ⟨c₄, hword, hend⟩ := Pattern.matches_seq_iff.mp he
    obtain ⟨ws, hws⟩ := Pattern.passes_of_star hspaces
    obtain ⟨number, hne, hnumber⟩ := Pattern.passes_of_plus hnumber
    obtain ⟨hrest₃, -⟩ := Pattern.passes_of_lit hspace
    obtain ⟨word, hword, hrest₄⟩ : ∃ word, (word = lit "passing" ∨ word = lit "failing" ∨
        word = lit "pending") ∧ c₃.rest = word ++ c₄.rest := by
      rcases Pattern.matches_alt_iff.mp hword with hword | hword
      · exact ⟨_, .inl rfl, (Pattern.passes_of_lit hword).1⟩
      · rcases Pattern.matches_alt_iff.mp hword with hword | hword
        · exact ⟨_, .inr (.inl rfl), (Pattern.passes_of_lit hword).1⟩
        · exact ⟨_, .inr (.inr rfl), (Pattern.passes_of_lit hword).1⟩
    obtain ⟨d, number', hdigits, -, hspace'⟩ := exists_of_decimals hne hnumber.accepted
    obtain ⟨x, rest, rfl⟩ := List.exists_cons_of_ne_nil hbody.ne_nil
    have hsplit : spaces indent ++ x :: rest = ws ++ d :: (number' ++ c₂.rest) := by
      rw [← List.cons_append, ← hdigits, ← hnumber.rest_eq]
      exact hws.rest_eq
    obtain ⟨-, rfl, hrest⟩ := run_unique isSpace_of_mem_spaces hws.accepted (hbody.first x rfl) hspace'
      hsplit
    refine ⟨number, word, c₄.rest, ?_, ⟨hne, hnumber.accepted⟩, hword, (head_of_end hend).1⟩
    rw [hdigits, hrest, hrest₃, hrest₄]
    rfl
  · intro h
    obtain ⟨number, word, rest, rfl, ⟨hne, hnumber⟩, hword, hrest⟩ := h.parts
    obtain ⟨c₁, h₁, hrest₁, -⟩ := @Pattern.exists_star
      (.start (spaces indent ++ (number ++ 32 :: (word ++ rest)))) Str.isSpace true _ _
      isSpace_of_mem_spaces rfl
    obtain ⟨c₂, h₂, hrest₂, -⟩ := Pattern.exists_plus hne hnumber hrest₁
    obtain ⟨c₃, h₃, hrest₃, -⟩ := @Pattern.exists_lit c₂ (lit " ") _ hrest₂
    obtain ⟨c₄, h₄, hrest₄, -⟩ := Pattern.exists_lit hrest₃
    have hwords : Pattern.Matches (.oneOf [.text "passing", .text "failing", .text "pending"]) c₃ c₄ := by
      rcases hword with rfl | rfl | rfl
      · exact .altLeft h₄
      · exact .altRight (.altLeft h₄)
      · exact .altRight (.altRight h₄)
    obtain ⟨c₅, h₅⟩ : ∃ c₅, Pattern.Matches (.oneOf [space, .endOfText]) c₄ c₅ := by
      cases rest with
      | nil => exact ⟨c₄, .altRight (endOfText_of_nil hrest₄)⟩
      | cons x rest =>
        obtain ⟨c₅, h₅, -⟩ := Pattern.exists_chars (hrest x rfl) hrest₄
        exact ⟨c₅, .altLeft h₅⟩
    exact Pattern.matchStart_isSome (.seq (Pattern.matches_look_iff.mpr ⟨rfl, rfl⟩)
      (.seq h₁ (.seq h₂ (.seq h₃ (.seq hwords h₅)))))

/-- A number is decimal digits. -/
theorem isDecimal_natStr (digits : Decimals) (n : Nat) : ∀ c ∈ natStr n, digits.isDecimal c = true := by
  intro c hc
  have hdigit := isDigit_of_mem_natStr hc
  have hsmall : c < 128 := by
    simp only [Str.isDigit, Bool.and_eq_true, decide_eq_true_iff] at hdigit
    omega
  rw [digits.ascii c hsmall, hdigit]

/-- The other markers are no digits. -/
theorem not_decimal_of_symbol : ∀ c ∈ lit "✓✔-", digits.isDecimal c = false := by
  intro c hc
  rw [show lit "✓✔-" = lit "✓✔" ++ [45] from by decide, List.mem_append] at hc
  rcases hc with hc | hc
  · exact digits.not_mark c hc
  · rw [List.mem_singleton.mp hc, digits.ascii _ (by decide)]
    rfl

/-- The line of a test does not begin as the summary. -/
theorem MochaMark.not_isSummary (mark : MochaMark) : ¬IsSummary digits (mark.text ++ 32 :: body) := by
  intro h
  obtain ⟨number, word, rest, heq, ⟨hne, hnumber⟩, -, -⟩ := h.parts
  obtain ⟨d, number', rfl, hd, -⟩ := exists_of_decimals hne hnumber
  have hsymbol : ∀ c ∈ lit "✓✔-", mark.text ≠ [c] := by
    intro c hc hmark
    rw [hmark] at heq
    obtain ⟨rfl, -⟩ := List.cons.inj heq
    rw [not_decimal_of_symbol c hc] at hd
    cases hd
  rcases mark with heavy | _ | n
  · cases heavy with
    | false => exact hsymbol 0x2713 (by decide) rfl
    | true => exact hsymbol 0x2714 (by decide) rfl
  · exact hsymbol 45 (by decide) rfl
  · have hunique : natStr n ++ 41 :: (32 :: body) = (d :: number') ++ 32 :: (word ++ rest) := by
      rw [← heq, MochaMark.text]
      simp
    have hascii : digits.isDecimal 41 = false ∧ digits.isDecimal 32 = false :=
      ⟨digits.ascii 41 (by decide), digits.ascii 32 (by decide)⟩
    have hsame := (run_unique (isDecimal_natStr digits n) hnumber hascii.1 hascii.2 hunique).2.1
    omega

end Summary

section Lines

variable {digits : Decimals} {indent : Nat} {body : Str}

theorem MochaMark.text_ne_nil (mark : MochaMark) : mark.text ≠ [] := by
  rcases mark with heavy | _ | n
  · cases heavy <;> simp [MochaMark.text]
  · simp [MochaMark.text]
  · simp [MochaMark.text]

theorem MochaMark.not_space (mark : MochaMark) : ∀ c ∈ mark.text, Str.isSpace c = false := by
  rcases mark with heavy | _ | n
  · cases heavy <;> decide
  · decide
  · simp only [MochaMark.text, List.forall_mem_append]
    refine ⟨fun c hc => ?_, by decide⟩
    have hdigit := isDigit_of_mem_natStr hc
    simp only [Str.isDigit, Bool.and_eq_true, decide_eq_true_iff] at hdigit
    rw [Bool.eq_false_iff]
    intro hspace
    simp only [Str.isSpace, Bool.or_eq_true, Bool.and_eq_true, decide_eq_true_iff, beq_iff_eq] at hspace
    omega

theorem MochaMark.escape_not_mem (mark : MochaMark) : 27 ∉ mark.text := by
  rcases mark with heavy | _ | n
  · cases heavy <;> decide
  · decide
  · rw [MochaMark.text, List.mem_append, not_or]
    refine ⟨fun hmem => ?_, by decide⟩
    cases isDigit_of_mem_natStr hmem

/-- The group that a marker is found in. -/
def MochaMark.groups : MochaMark → List (Nat × Str)
  | passed false => [(2, [0x2713])]
  | passed true => [(2, [0x2714])]
  | pending => [(2, [45])]
  | failed n => [(3, natStr n)]

/-- The pattern of a marker, with the white space after it. -/
def mochaMarkers (digits : Decimals) : Pattern :=
  .oneOf [.seq (.group 2 (.chars fun c => decide (c ∈ lit "✓✔-"))) (.plus space),
    .concat [.group 3 (.plus (.chars digits.isDecimal)), .text ")", .plus space]]

variable {c d : Cursor}

theorem exists_marker (digits : Decimals) (mark : MochaMark) (hrest : c.rest = mark.text ++ 32 :: body) :
    ∃ d, (mochaMarkers digits).Matches c d ∧ d.rest = body := by
  have hone : ∀ x ∈ lit "✓✔-", c.rest = x :: 32 :: body →
      ∃ d, (mochaMarkers digits).Matches c d ∧ d.rest = body := by
    intro x hx hrest
    obtain ⟨c₁, h₁, hrest₁⟩ := Pattern.exists_group (n := 2)
      (@Pattern.exists_chars c (fun c => decide (c ∈ lit "✓✔-")) _ _ (decide_eq_true hx) hrest)
    obtain ⟨d, h₂, hrest₂, -⟩ := @Pattern.exists_plus c₁ Str.isSpace [32] body (by simp) (by decide) hrest₁
    exact ⟨d, .altLeft (.seq h₁ h₂), hrest₂⟩
  rcases mark with heavy | _ | n
  · cases heavy with
    | false => exact hone _ (by decide) hrest
    | true => exact hone _ (by decide) hrest
  · exact hone _ (by decide) hrest
  · rw [MochaMark.text, List.append_assoc] at hrest
    obtain ⟨c₁, h₁, hrest₁⟩ := Pattern.exists_group (n := 3)
      (Pattern.exists_plus (natStr_ne_nil n) (isDecimal_natStr digits n) hrest)
    obtain ⟨c₂, h₂, hrest₂, -⟩ := @Pattern.exists_lit c₁ (lit ")") _ hrest₁
    obtain ⟨d, h₃, hrest₃, -⟩ := @Pattern.exists_plus c₂ Str.isSpace [32] body (by simp) (by decide) hrest₂
    exact ⟨d, .altRight (.seq h₁ (.seq h₂ h₃)), hrest₃⟩

/-- A marker is read in one way. -/
theorem groups_of_marker (mark : MochaMark) (hbody : Body body) (h : (mochaMarkers digits).Matches c d)
    (hrest : c.rest = mark.text ++ 32 :: body) : d.rest = body ∧ d.groups = mark.groups ++ c.groups := by
  rcases Pattern.matches_alt_iff.mp h with h | h
  · obtain ⟨c₁, hmark, hspace⟩ := Pattern.matches_seq_iff.mp h
    obtain ⟨x, hx, hrest₁, hgroups₁⟩ := Pattern.group_of_chars hmark
    obtain ⟨ws, hne, hspace⟩ := Pattern.passes_of_plus hspace
    have hx := of_decide_eq_true hx
    have hone : ∀ y, mark.text = [y] → x = y ∧ d.rest = body := by
      intro y hy
      rw [hrest, hy] at hrest₁
      obtain ⟨rfl, hafter⟩ := List.cons.inj hrest₁
      exact ⟨rfl, rest_eq_of_spaces hbody.first hne hspace.accepted (hafter.trans hspace.rest_eq)⟩
    rcases mark with heavy | _ | n
    · cases heavy with
      | false =>
        obtain ⟨rfl, hafter⟩ := hone _ rfl
        exact ⟨hafter, by rw [hspace.groups_eq, hgroups₁]; rfl⟩
      | true =>
        obtain ⟨rfl, hafter⟩ := hone _ rfl
        exact ⟨hafter, by rw [hspace.groups_eq, hgroups₁]; rfl⟩
    · obtain ⟨rfl, hafter⟩ := hone _ rfl
      exact ⟨hafter, by rw [hspace.groups_eq, hgroups₁]; rfl⟩
    · -- a digit is no marker of the other kind
      obtain ⟨y, more, hy, hdecimal, -⟩ :=
        exists_of_decimals (natStr_ne_nil n) (isDecimal_natStr digits n)
      rw [hrest, MochaMark.text, hy] at hrest₁
      obtain ⟨rfl, -⟩ := List.cons.inj hrest₁
      rw [not_decimal_of_symbol y hx] at hdecimal
      cases hdecimal
  · obtain ⟨c₁, hnumber, h⟩ := Pattern.matches_seq_iff.mp h
    obtain ⟨c₂, hbracket, hspace⟩ := Pattern.matches_seq_iff.mp h
    obtain ⟨number, hne, hnumber, hrest₁, hgroups₁⟩ := Pattern.group_of_plus hnumber
    obtain ⟨hrest₂, hgroups₂⟩ := Pattern.passes_of_lit hbracket
    obtain ⟨ws, hne', hspace⟩ := Pattern.passes_of_plus hspace
    rw [hrest₂] at hrest₁
    have hsymbol : ∀ y ∈ lit "✓✔-", mark.text ≠ [y] := by
      intro y hy hmark
      obtain ⟨x, more, rfl, hx, -⟩ := exists_of_decimals hne hnumber
      rw [hrest, hmark] at hrest₁
      obtain ⟨rfl, -⟩ := List.cons.inj hrest₁
      rw [not_decimal_of_symbol y hy] at hx
      cases hx
    rcases mark with heavy | _ | n
    · cases heavy with
      | false => exact absurd rfl (hsymbol 0x2713 (by decide))
      | true => exact absurd rfl (hsymbol 0x2714 (by decide))
    · exact absurd rfl (hsymbol 45 (by decide))
    · have hbracket : digits.isDecimal 41 = false := digits.ascii 41 (by decide)
      have hunique : natStr n ++ 41 :: (32 :: body) = number ++ 41 :: c₂.rest := by
        rw [← List.singleton_append, ← List.append_assoc]
        exact hrest.symm.trans hrest₁
      obtain ⟨rfl, -, hafter⟩ :=
        run_unique (isDecimal_natStr digits n) hnumber hbracket hbracket hunique
      exact ⟨rest_eq_of_spaces hbody.first hne' hspace.accepted (hafter.trans hspace.rest_eq),
        by rw [hspace.groups_eq, hgroups₂, hgroups₁]; rfl⟩

/-- A marker begins with no white space. -/
theorem head_of_markers (h : (mochaMarkers digits).Matches c d) :
    ∃ x, x :: c.rest.tail = c.rest ∧ Str.isSpace x = false ∧ MochaMarked digits c.rest := by
  rcases Pattern.matches_alt_iff.mp h with h | h
  · obtain ⟨c₁, hmark, -⟩ := Pattern.matches_seq_iff.mp h
    obtain ⟨x, hx, hrest, -⟩ := Pattern.group_of_chars hmark
    have hsymbols : ∀ c ∈ lit "✓✔-", Str.isSpace c = false := by decide
    rw [hrest]
    exact ⟨x, rfl, hsymbols x (of_decide_eq_true hx), .inl ⟨x, rfl, of_decide_eq_true hx⟩⟩
  · obtain ⟨c₁, hnumber, h⟩ := Pattern.matches_seq_iff.mp h
    obtain ⟨c₂, hbracket, -⟩ := Pattern.matches_seq_iff.mp h
    obtain ⟨number, hne, hnumber, hrest, -⟩ := Pattern.group_of_plus hnumber
    obtain ⟨hrest₂, -⟩ := Pattern.passes_of_lit hbracket
    obtain ⟨x, more, hx, -, hspace⟩ := exists_of_decimals hne hnumber
    refine ⟨x, by rw [hrest, hx]; rfl, hspace, .inr ⟨number, c₂.rest, hne, hnumber, ?_⟩⟩
    rw [hrest, hrest₂]
    rfl

/-- A line of a test gives its indentation, its marker and the rest. -/
theorem mochaTest_test (digits : Decimals) (mark : MochaMark) (hindent : 0 < indent) (hbody : Body body) :
    ∃ e, (mochaTest digits).matchStart (spaces indent ++ (mark.text ++ 32 :: body)) = some e ∧
      e.groups = (4, body) :: (mark.groups ++ [(1, spaces indent)]) := by
  have hspaces : spaces indent ≠ [] := by
    rw [spaces, Ne, List.replicate_eq_nil_iff]
    omega
  obtain ⟨c₁, h₁, hrest₁⟩ := Pattern.exists_group (n := 1) (@Pattern.exists_plus
    (.start (spaces indent ++ (mark.text ++ 32 :: body))) Str.isSpace _ _ hspaces
    isSpace_of_mem_spaces rfl)
  obtain ⟨c₂, h₂, hrest₂⟩ := exists_marker digits mark hrest₁
  obtain ⟨d, h₃⟩ := @exists_titleGroup _ c₂ 4 hbody hrest₂
  refine Pattern.exists_matchStart (.seq (Pattern.matches_look_iff.mpr ⟨rfl, rfl⟩)
    (.seq h₁ (.seq h₂ h₃))) fun e he => ?_
  obtain ⟨c₀, hstart, he⟩ := Pattern.matches_seq_iff.mp he
  obtain ⟨rfl, -⟩ := Pattern.matches_look_iff.mp hstart
  obtain ⟨c₁, hindents, he⟩ := Pattern.matches_seq_iff.mp he
  obtain ⟨c₂, hmark, htitle⟩ := Pattern.matches_seq_iff.mp he
  obtain ⟨ws, -, hws, hrest, hgroups₁⟩ := Pattern.group_of_plus hindents
  obtain ⟨x, hx, hspace, -⟩ := head_of_markers hmark
  obtain ⟨m, more, hm⟩ := List.exists_cons_of_ne_nil mark.text_ne_nil
  have hsplit : spaces indent ++ m :: (more ++ 32 :: body) = ws ++ x :: c₁.rest.tail := by
    rw [hx, ← List.cons_append, ← hm]
    exact hrest
  obtain ⟨rfl, -, -⟩ := run_unique isSpace_of_mem_spaces hws
    (mark.not_space m (by rw [hm]; exact List.mem_cons_self ..)) hspace hsplit
  obtain ⟨hafter, hgroups₂⟩ := groups_of_marker mark hbody hmark (List.append_cancel_left hrest).symm
  rw [groups_of_titleGroup hbody htitle hafter, hgroups₂, hgroups₁]
  rfl

/-- A line of a suite is no line of a test. -/
theorem mochaTest_suite (hbody : Body body) (hmarked : ¬MochaMarked digits body) :
    (mochaTest digits).matchStart (spaces indent ++ body) = none := by
  refine Pattern.matchStart_eq_none fun e he => ?_
  obtain ⟨c₀, hstart, he⟩ := Pattern.matches_seq_iff.mp he
  obtain ⟨rfl, -⟩ := Pattern.matches_look_iff.mp hstart
  obtain ⟨c₁, hindents, he⟩ := Pattern.matches_seq_iff.mp he
  obtain ⟨c₂, hmark, -⟩ := Pattern.matches_seq_iff.mp he
  obtain ⟨ws, -, hws, hrest, -⟩ := Pattern.group_of_plus hindents
  obtain ⟨x, hx, hspace, hmark⟩ := head_of_markers hmark
  obtain ⟨y, rest, rfl⟩ := List.exists_cons_of_ne_nil hbody.ne_nil
  rw [← hx] at hrest hmark
  obtain ⟨-, rfl, hafter⟩ := run_unique isSpace_of_mem_spaces hws (hbody.first y rfl) hspace hrest
  exact hmarked (hafter ▸ hmark)

end Lines

section Steps

variable {digits : Decimals} {source : Str} {state : MochaState} {line : Str} {n indent : Nat}
  {mark : MochaMark × Option Duration} {title : Title digits (MochaMarked digits)}

theorem mochaLine_blank (hline : Painted [] line) (hdetails : state.details = false) :
    mochaLine digits source state (line, n) = state := by
  have hplain := sub_painted hline ansiFree_nil
  have hsummary : ((mochaSummary digits).matchStart []).isSome = false := rfl
  simp only [mochaLine, hplain, hsummary, hdetails]
  rfl

/-- Nothing is read after the summary began. -/
theorem mochaLine_details (hdetails : state.details = true) :
    mochaLine digits source state (line, n) = state := by
  simp only [mochaLine, hdetails, Bool.true_or, if_true]
  rw [← hdetails]

/-- The status that the reader gives a marker. -/
theorem MochaMark.status_of_groups (mark : MochaMark) {e : Cursor} {body ws : Str}
    (h : e.groups = (4, body) :: (mark.groups ++ [(1, ws)])) :
    (if !(e.group 3).isEmpty then lit "FAILED" else if e.group 2 = lit "-" then lit "SKIPPED"
      else lit "PASSED") = mark.status := by
  rw [Cursor.group, Cursor.group, h]
  rcases mark with heavy | _ | n
  · cases heavy <;> rfl
  · rfl
  · have hne : (natStr n).isEmpty = false := List.isEmpty_eq_false_iff.mpr (natStr_ne_nil n)
    change (if !(natStr n).isEmpty then lit "FAILED" else _) = _
    rw [hne]
    rfl

/-- A row for a test. -/
theorem mochaLine_test (hdetails : state.details = false) (hfree : AnsiFree title.text)
    (hindent : 0 < indent) (hline : Painted (mochaText (.test indent mark title)) line) :
    ∃ row : TestRow, row.outcome = named " " []
        (titles (popTo indent state.stack) ++ [title.text], mark.1.status) ∧
      mochaLine digits source state (line, n) =
        { state with stack := popTo indent state.stack, rows := state.rows ++ [row] } := by
  have hmark : 27 ∉ spaces indent ++ (mark.1.text ++ [32]) := by
    simp only [List.mem_append, List.mem_singleton, not_or]
    exact ⟨escape_not_mem_spaces, mark.1.escape_not_mem, by omega⟩
  have hplain := sub_painted hline (by
    have hlead := (hfree.append_ending mark.2).append_lead hmark
    simpa [mochaText] using hlead)
  have hbody : Body (mark.1.text ++ 32 :: (title.text ++ ending mark.2)) :=
    (title.body_ending mark.2).marked mark.1.text_ne_nil mark.1.not_space
  have hsummary : ((mochaSummary digits).matchStart
      (spaces indent ++ (mark.1.text ++ 32 :: (title.text ++ ending mark.2)))).isSome = false := by
    rw [Bool.eq_false_iff, Ne, mochaSummary_iff hbody]
    exact mark.1.not_isSummary
  have hempty : (spaces indent ++ (mark.1.text ++ 32 :: (title.text ++ ending mark.2))).strip.isEmpty =
      false := by
    rw [strip_spaces hbody, List.isEmpty_eq_false_iff]
    exact hbody.ne_nil
  obtain ⟨e, he, hgroups⟩ := mochaTest_test digits mark.1 hindent (title.body_ending mark.2)
  have htitle : e.group 4 = title.text ++ ending mark.2 := by
    rw [Cursor.group, hgroups]
    rfl
  refine ⟨⟨(named " " [] (titles (popTo indent state.stack) ++ [title.text], mark.1.status)).1,
    mark.1.status, source, n, line⟩, rfl, ?_⟩
  simp only [mochaLine, hplain, mochaText, hsummary, hempty, hdetails, indentOf_spaces hbody, he, htitle,
    sub_duration, mark.1.status_of_groups hgroups]
  rfl

/-- A suite is opened, or taken for the summary. -/
theorem mochaLine_suite (hdetails : state.details = false) (hfree : AnsiFree title.text)
    (hindent : 2 ≤ indent) (hline : Painted (mochaText (.suite indent title)) line) :
    mochaLine digits source state (line, n) =
      if ((mochaSummary digits).matchStart (spaces indent ++ title.text)).isSome
      then { state with details := true }
      else { state with stack := (indent, title.text) :: popTo indent state.stack } := by
  have hplain := sub_painted hline (hfree.append_lead escape_not_mem_spaces)
  have hempty : title.text.isEmpty = false := List.isEmpty_eq_false_iff.mpr title.ne_nil
  simp only [mochaLine, hplain, mochaText, hdetails, indentOf_spaces title.body, strip_spaces title.body,
    mochaTest_suite title.body title.unmarked, hempty, Bool.false_or, if_pos hindent]
  rfl

end Steps

section Runs

variable {digits : Decimals} {source : Str} {lines : List Str}

/-- The forests that Mocha prints. -/
abbrev MochaForest (digits : Decimals) := Forest (MochaMark × Option Duration) (Title digits (MochaMarked digits))

/-- The lines of them. -/
abbrev MochaItem (digits : Decimals) := Item (MochaMark × Option Duration) (Title digits (MochaMarked digits))

/-- The status on the line of a test. -/
def mochaStatus (mark : MochaMark × Option Duration) : Str := mark.1.status

/-- The tests of a forest, by the names that their rows have to have. -/
def mochaResults (forest : MochaForest digits) : List (Str × Str) :=
  (forest.results Title.text mochaStatus []).map (named " " [])

/-- A line of a test. -/
def IsTest : MochaItem digits → Prop
  | .test _ _ _ => True
  | .suite _ _ => False

/-- Some test comes after a suite that is taken for the summary. -/
def TestAfterSummary : List (MochaItem digits) → Prop
  | [] => False
  | .test _ _ _ :: rest => TestAfterSummary rest
  | .suite _ title :: rest =>
    (IsSummary digits title.text ∧ ∃ item ∈ rest, IsTest item) ∨ TestAfterSummary rest

/-- A suite that the reader takes for the summary. -/
def endsTests : MochaItem digits → Bool
  | .test _ _ _ => false
  | .suite indent title => ((mochaSummary digits).matchStart (spaces indent ++ title.text)).isSome

/-- One item, with whether the summary began before it. -/
def mochaNext (view : Seen × Bool) (item : MochaItem digits) : Seen × Bool :=
  if view.2 || endsTests item then (view.1, true) else (see Title.text mochaStatus view.1 item, false)

/-- What the reader knows. -/
structure MochaReads (state : MochaState) (view : Seen × Bool) : Prop where
  details_eq : state.details = view.2
  stack_eq : view.2 = false → state.stack = view.1.1
  rows_eq : state.rows.map TestRow.outcome = view.1.2.map (named " " [])

theorem mochaReads_item {item : MochaItem digits} (hfree : AnsiFree item.title.text)
    (hindent : 2 ≤ item.indent) {state : MochaState} {view : Seen × Bool} {line : Str} {n : Nat}
    (hline : Painted (mochaText item) line) (h : MochaReads state view) :
    MochaReads (mochaLine digits source state (line, n)) (mochaNext view item) := by
  obtain ⟨seen, over'⟩ := view
  cases over' with
  | true =>
    rw [mochaLine_details h.details_eq]
    exact h
  | false =>
    have hstack : state.stack = seen.1 := h.stack_eq rfl
    cases item with
    | test indent mark title =>
      obtain ⟨row, hrow, hstep⟩ : ∃ row : TestRow, row.outcome = named " " []
          (titles (popTo indent state.stack) ++ [title.text], mark.1.status) ∧
            mochaLine digits source state (line, n) =
              { state with stack := popTo indent state.stack, rows := state.rows ++ [row] } :=
        mochaLine_test h.details_eq hfree (Nat.lt_of_lt_of_le Nat.zero_lt_two hindent) hline
      rw [hstep]
      refine ⟨h.details_eq, fun _ => by rw [hstack]; rfl, ?_⟩
      have hnext : (mochaNext (seen, false) (.test indent mark title)).1.2 =
          seen.2 ++ [(titles (popTo indent seen.1) ++ [title.text], mark.1.status)] := rfl
      rw [List.map_append, h.rows_eq, hnext, List.map_append, List.map_singleton, hrow, hstack]
      rfl
    | suite indent title =>
      have hstep : mochaLine digits source state (line, n) = if endsTests (.suite indent title)
          then { state with details := true }
          else { state with stack := (indent, title.text) :: popTo indent state.stack } :=
        mochaLine_suite h.details_eq hfree hindent hline
      rw [hstep, mochaNext, Bool.false_or]
      cases endsTests (.suite indent title) with
      | true => exact ⟨rfl, fun hfalse => by simp at hfalse, h.rows_eq⟩
      | false => exact ⟨h.details_eq, fun _ => by rw [if_neg (by decide), hstack]; rfl, h.rows_eq⟩

/-- Every test adds to what was found. -/
theorem exists_added (items : List (MochaItem digits)) (seen : Seen) :
    ∃ added, (items.foldl (see Title.text mochaStatus) seen).2 = seen.2 ++ added ∧
      (added = [] ↔ ¬∃ item ∈ items, IsTest item) := by
  induction items generalizing seen with
  | nil => exact ⟨[], by simp, by simp⟩
  | cons item items ih =>
    obtain ⟨added, hadded, hnil⟩ := ih (see Title.text mochaStatus seen item)
    cases item with
    | test indent mark title =>
      refine ⟨(titles (popTo indent seen.1) ++ [title.text], mochaStatus mark) :: added, ?_, ?_⟩
      · rw [List.foldl_cons, hadded, see, List.append_assoc]
        rfl
      · exact iff_of_false (by simp) fun h => h ⟨_, List.mem_cons_self .., trivial⟩
    | suite indent title =>
      refine ⟨added, hadded, hnil.trans (not_congr ?_)⟩
      simp [IsTest]

/-- After a suite that is taken for the summary nothing is found. -/
theorem foldl_of_ended (items : List (MochaItem digits)) (seen : Seen) :
    items.foldl mochaNext (seen, true) = (seen, true) := by
  induction items with
  | nil => rfl
  | cons item items ih => exact ih

theorem TestAfterSummary.exists_test {items : List (MochaItem digits)} (h : TestAfterSummary items) :
    ∃ item ∈ items, IsTest item := by
  induction items with
  | nil => exact h.elim
  | cons item items ih =>
    cases item with
    | test indent mark title => exact ⟨_, List.mem_cons_self .., trivial⟩
    | suite indent title =>
      rcases h with ⟨-, item, hitem, htest⟩ | h
      · exact ⟨item, List.mem_cons_of_mem _ hitem, htest⟩
      · obtain ⟨item, hitem, htest⟩ := ih h
        exact ⟨item, List.mem_cons_of_mem _ hitem, htest⟩

/-- The tests that follow a suite that is taken for the summary are the ones that are not found. -/
theorem mochaNext_foldl (items : List (MochaItem digits)) (seen : Seen) :
    (TestAfterSummary items → (items.foldl mochaNext (seen, false)).1.2.length <
        (items.foldl (see Title.text mochaStatus) seen).2.length) ∧
      (¬TestAfterSummary items → (items.foldl mochaNext (seen, false)).1.2 =
        (items.foldl (see Title.text mochaStatus) seen).2) := by
  induction items generalizing seen with
  | nil => exact ⟨False.elim, fun _ => rfl⟩
  | cons item items ih =>
    cases item with
    | test indent mark title => exact ih _
    | suite indent title =>
      have hsummary : endsTests (.suite indent title) = true ↔ IsSummary digits title.text :=
        mochaSummary_iff title.body
      cases hends : endsTests (.suite indent title) with
      | true =>
        have hnext : mochaNext (seen, false) (.suite indent title) = (seen, true) := by
          rw [mochaNext, hends]
          rfl
        obtain ⟨added, hadded, hnil⟩ := exists_added items (see Title.text mochaStatus seen (.suite indent title))
        have hfound : (see Title.text mochaStatus seen (.suite indent title)).2 = seen.2 := rfl
        rw [List.foldl_cons, List.foldl_cons, hnext, foldl_of_ended, hadded, hfound]
        constructor
        · intro h
          have htest : ∃ item ∈ items, IsTest item := h.elim And.right TestAfterSummary.exists_test
          have hpositive := List.length_pos_iff.mpr fun heq => hnil.mp heq htest
          change seen.2.length < (seen.2 ++ added).length
          rw [List.length_append]
          omega
        · intro h
          rw [hnil.mpr fun htest => h (.inl ⟨hsummary.mp hends, htest⟩), List.append_nil]
      | false =>
        have hnext : mochaNext (seen, false) (.suite indent title) =
            (see Title.text mochaStatus seen (.suite indent title), false) := by
          rw [mochaNext, hends]
          rfl
        have hnot : ¬IsSummary digits title.text := by
          rw [← hsummary, hends]
          exact Bool.false_ne_true
        obtain ⟨hlost, hkept⟩ := ih (see Title.text mochaStatus seen (.suite indent title))
        rw [List.foldl_cons, List.foldl_cons, hnext]
        exact ⟨fun h => hlost (h.resolve_left fun hthis => hnot hthis.1), fun h => hkept fun hrest => h (.inr hrest)⟩

theorem oneLine_mochaText (item : MochaItem digits) : ∀ c ∈ mochaText item, Str.isLineEnd c = false := by
  rcases item with ⟨indent, mark, title⟩ | ⟨indent, title⟩
  · simp only [mochaText, List.forall_mem_append, List.forall_mem_cons]
    exact ⟨oneLine_spaces, fun c hc => not_lineEnd (mark.1.not_space c hc), rfl, title.oneLine,
      oneLine_ending mark.2⟩
  · simp only [mochaText, List.forall_mem_append]
    exact ⟨oneLine_spaces, title.oneLine⟩

/-- The rows of a log are its tests, under their whole paths, exactly when no test comes after a suite
that is taken for the summary. -/
theorem mochaSpecRows_eq_iff {forest : MochaForest digits}
    (hfree : forest.Every fun title => AnsiFree title.text)
    (hlines : Rendered mochaText (forest.items 2) lines) (source : Str) :
    (mochaSpecRows digits (logText lines) source).map TestRow.outcome = mochaResults forest ↔
      ¬TestAfterSummary (forest.items 2) := by
  have hreads := hlines.foldl (mochaLine digits source) mochaNext MochaReads
    (fun state view line n hline hreads => by
      cases hview : view.2 with
      | true =>
        rw [mochaLine_details (hreads.details_eq.trans hview)]
        exact hreads
      | false =>
        rw [mochaLine_blank hline (hreads.details_eq.trans hview)]
        exact hreads)
    (fun state view item line n hitem hline hreads => by
      obtain ⟨htitle, hindent⟩ := Forest.mem_items hfree hitem
      exact mochaReads_item htitle hindent hline hreads)
    (([], []), false) (show MochaReads ⟨[], false, []⟩ _ from ⟨rfl, fun _ => rfl, rfl⟩) 1
  have hall : ((forest.items 2).foldl (see Title.text mochaStatus) ([], [])).2 =
      [] ++ forest.results Title.text mochaStatus (titles []) := (foldl_see forest [] rfl).1
  obtain ⟨hlost, hkept⟩ := mochaNext_foldl (forest.items 2) ([], [])
  rw [mochaSpecRows, hlines.splitlines fun item _ => oneLine_mochaText item, hreads.rows_eq, mochaResults]
  rw [hall, List.nil_append] at hlost hkept
  constructor
  · intro heq h
    have hlength := congrArg List.length heq
    rw [List.length_map, List.length_map] at hlength
    exact absurd hlength (hlost h).ne
  · intro h
    rw [hkept h]
    rfl

end Runs

end OpenCollabEval.Reporter
