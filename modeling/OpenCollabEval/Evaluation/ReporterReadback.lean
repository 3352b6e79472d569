import OpenCollabEval.Evaluation.JestLog
import OpenCollabEval.Evaluation.MochaLog

/-!
# Reading printed tests back

Both readers against what was printed. A test gets another name when a suite around it is taken for a
line of a stack trace, and no row at all when a suite before it is taken for the summary.
-/

open Python

namespace OpenCollabEval.Reporter

section Samples

theorem not_space_of_digit (c : Nat) (hc : Str.isDigit c = true) : Str.isSpace c = false := by
  simp only [Str.isDigit, Bool.and_eq_true, decide_eq_true_iff] at hc
  rw [Bool.eq_false_iff]
  intro hspace
  simp only [Str.isSpace, Bool.or_eq_true, Bool.and_eq_true, decide_eq_true_iff, beq_iff_eq] at hspace
  omega

theorem isDigit_self (c : Nat) (_ : c < 128) : Str.isDigit c = Str.isDigit c := rfl

theorem not_digit_of_mark : ∀ c ∈ lit "✓✔", Str.isDigit c = false := by decide

/-- The digits of ASCII only. -/
def asciiDecimals : Decimals where
  isDecimal := Str.isDigit
  ascii := isDigit_self
  not_space := not_space_of_digit
  not_mark := not_digit_of_mark

/-- A title without a bracket ends in no duration. -/
theorem not_isDuration_of_bracket {digits : Decimals} {s : Str} (h : 40 ∉ s) (before after : Str)
    (hs : s = before ++ after) : ¬IsDuration digits after := by
  intro hduration
  obtain ⟨spaces, number, inner, unit, rfl, -⟩ := hduration.parts
  exact h (by rw [hs]; simp)

/-- A text without an escape has no control sequence. -/
theorem ansiFree_of_escape {s : Str} (h : 27 ∉ s) : AnsiFree s := by
  have hfree := AnsiFree.append_lead ansiFree_nil h
  rwa [List.append_nil] at hfree

/-- Printable text without brackets that no white space begins or ends. -/
def IsPlain (s : Str) : Prop :=
  s ≠ [] ∧ (∀ c ∈ s, 32 ≤ c ∧ c ≤ 126 ∧ c ≠ 40 ∧ c ≠ 41) ∧ s.head? ≠ some 32 ∧ s.getLast? ≠ some 32

instance (s : Str) : Decidable (IsPlain s) := inferInstanceAs (Decidable (_ ∧ _))

instance (s : Str) : Decidable (JestMarked s) := inferInstanceAs (Decidable (∃ c ∈ s.head?, _))

theorem not_space_of_plain {c : Nat} (h : 32 ≤ c ∧ c ≤ 126) (hne : c ≠ 32) :
    Str.isSpace c = false := by
  rw [Bool.eq_false_iff]
  intro hspace
  simp only [Str.isSpace, Bool.or_eq_true, Bool.and_eq_true, decide_eq_true_iff, beq_iff_eq] at hspace
  omega

section Plain

variable {s : Str} (hplain : IsPlain s)

include hplain

theorem IsPlain.oneLine (c : Nat) (hc : c ∈ s) : Str.isLineEnd c = false := by
  obtain ⟨hlow, hhigh, -⟩ := hplain.2.1 c hc
  rw [Bool.eq_false_iff]
  intro hend
  simp only [Str.isLineEnd, Bool.or_eq_true, Bool.and_eq_true, decide_eq_true_iff, beq_iff_eq] at hend
  omega

theorem IsPlain.first (c : Nat) (hc : c ∈ s.head?) : Str.isSpace c = false := by
  obtain ⟨hlow, hhigh, -⟩ := hplain.2.1 c (List.mem_of_mem_head? hc)
  exact not_space_of_plain ⟨hlow, hhigh⟩ (by rintro rfl; exact hplain.2.2.1 hc)

theorem IsPlain.last (c : Nat) (hc : c ∈ s.getLast?) : Str.isSpace c = false := by
  obtain ⟨hlow, hhigh, -⟩ := hplain.2.1 c (List.mem_of_mem_getLast? hc)
  exact not_space_of_plain ⟨hlow, hhigh⟩ (by rintro rfl; exact hplain.2.2.2 hc)

theorem IsPlain.noDuration {digits : Decimals} (before after : Str) (hs : s = before ++ after) :
    ¬IsDuration digits after :=
  not_isDuration_of_bracket (fun hmem => (hplain.2.1 40 hmem).2.2.1 rfl) before after hs

end Plain

/-- A title of plain text. -/
def plainTitle {Marked : Str → Prop} (s : Str) (hplain : IsPlain s) (hmarked : ¬Marked s) :
    Title asciiDecimals Marked where
  text := s
  ne_nil := hplain.1
  oneLine := hplain.oneLine
  first := hplain.first
  last := hplain.last
  noDuration := hplain.noDuration
  unmarked := hmarked

/-- A plain title does not begin with a number and a bracket. -/
theorem not_mochaMarked {s : Str} (hplain : IsPlain s) (hfirst : ∀ c ∈ s.head?, c ∉ lit "✓✔-") :
    ¬MochaMarked asciiDecimals s := by
  rintro (⟨c, hc, hmark⟩ | ⟨number, rest, -, -, rfl⟩)
  · exact hfirst c hc hmark
  · exact (hplain.2.1 41 (by simp)).2.2.2 rfl

/-- A title for Jest. -/
def jestTitle (s : Str) (h : IsPlain s ∧ ¬JestMarked s) : Title asciiDecimals JestMarked :=
  plainTitle s h.1 h.2

/-- A title for Mocha. -/
def mochaTitle (s : Str) (h : IsPlain s ∧ ∀ c ∈ s.head?, c ∉ lit "✓✔-") :
    Title asciiDecimals (MochaMarked asciiDecimals) := plainTitle s h.1 (not_mochaMarked h.1 h.2)

/-- A file with one test in a suite and one below it. -/
def clockFile (inner : Str) (h : IsPlain inner ∧ ¬JestMarked inner) : JestFile asciiDecimals where
  name := "clock.test.js"
  script := ⟨by decide, lit "clock.test", [], 106, [], rfl, by decide, .inl rfl, .inl rfl, .inl rfl⟩
  failed := false
  time := none
  forest := .suite (jestTitle "clock" (by decide))
    (.suite (jestTitle inner h) (.test (.passed false, none) (jestTitle "opens" (by decide)) .nil)
      (.test (.passed false, none) (jestTitle "opens" (by decide)) .nil)) .nil

/-- A suite with one test. -/
def cartForest (title : Str) (h : IsPlain title ∧ ∀ c ∈ title.head?, c ∉ lit "✓✔-") :
    MochaForest asciiDecimals :=
  .suite (mochaTitle title h) (.test (.passed false, none) (mochaTitle "adds" (by decide)) .nil) .nil

theorem painted_self (s : Str) : Painted s s := by
  induction s with
  | nil => exact .nil
  | cons c s ih => exact .char c ih

/-- A log without colours and blank lines. -/
theorem rendered_self {ι : Type} (plain : ι → Str) (items : List ι) :
    Rendered plain items (items.map plain) := by
  induction items with
  | nil => exact .nil
  | cons item items ih => exact .line item (painted_self _) ih

end Samples

section Readback

/-- Both readers give one row for each test, in order, with its whole path and its status, exactly when
no suite of the second level that begins as a line of a stack trace has a test, and when no test comes
after a suite that begins as the summary. -/
theorem rows_eq_iff (digits : Decimals) (lines : List Str) (source : Str) :
    (∀ files : List (JestFile digits), (∀ file ∈ files, file.EscapeFree) →
      Rendered JestPiece.text (files.flatMap JestFile.pieces) lines →
      ((jestRows digits (logText lines) source).map TestRow.outcome = files.flatMap JestFile.results ↔
        ∀ file ∈ files, ¬file.forest.Loses looksTraced 2)) ∧
    (∀ forest : MochaForest digits, (forest.Every fun title => AnsiFree title.text) →
      Rendered mochaText (forest.items 2) lines →
      ((mochaSpecRows digits (logText lines) source).map TestRow.outcome = mochaResults forest ↔
        ¬TestAfterSummary (forest.items 2))) :=
  ⟨fun _ hfree hlines => jestRows_eq_iff hfree hlines source,
    fun _ hfree hlines => mochaSpecRows_eq_iff hfree hlines source⟩

end Readback

section Samples

/-- The log of a file. -/
def clockLog (file : JestFile asciiDecimals) : List Str := ([file].flatMap JestFile.pieces).map JestPiece.text

/-- The log of a forest. -/
def cartLog (forest : MochaForest asciiDecimals) : List Str := (forest.items 2).map mochaText

theorem rows_eq_iff_sample :
    (jestRows asciiDecimals (logText (clockLog (clockFile "by night" (by decide)))) []).map
        TestRow.outcome = [clockFile "by night" (by decide)].flatMap JestFile.results ∧
      (mochaSpecRows asciiDecimals (logText (cartLog (cartForest "cart" (by decide)))) []).map
        TestRow.outcome = mochaResults (cartForest "cart" (by decide)) := by
  have hfree : (clockFile "by night" (by decide)).EscapeFree :=
    ⟨ansiFree_of_escape (by decide), ansiFree_of_escape (by decide),
      ⟨ansiFree_of_escape (by decide), ⟨ansiFree_of_escape (by decide), trivial⟩,
        ansiFree_of_escape (by decide), trivial⟩, trivial⟩
  have hcart : (cartForest "cart" (by decide)).Every fun title => AnsiFree title.text :=
    ⟨ansiFree_of_escape (by decide), ⟨ansiFree_of_escape (by decide), trivial⟩, trivial⟩
  refine ⟨((rows_eq_iff asciiDecimals _ []).1 _ (by simpa using hfree) (rendered_self ..)).mpr ?_,
    ((rows_eq_iff asciiDecimals _ []).2 _ hcart (rendered_self ..)).mpr ?_⟩
  · intro file hfile
    rw [List.mem_singleton.mp hfile]
    have hseen : looksTraced 4 (jestTitle "by night" (by decide)) = false := by decide
    rintro (⟨hclock, -⟩ | (⟨hnight, -⟩ | htest | htest) | hrest)
    · exact absurd hclock (by decide)
    · rw [hseen] at hnight
      cases hnight
    · exact htest
    · exact htest
    · exact hrest
  · rintro (⟨hsummary, -⟩ | htest)
    · obtain ⟨number, word, rest, heq, ⟨hne, hnumber⟩, -⟩ := hsummary.parts
      obtain ⟨d, more, rfl, hd, -⟩ := exists_of_decimals hne hnumber
      obtain ⟨rfl, -⟩ := List.cons.inj heq
      exact absurd hd (by decide)
    · exact htest

/-- A suite named by a time of day makes two tests one, and a suite that counts hides its test. -/
theorem printed_tests_lost :
    (¬∀ (digits : Decimals) (files : List (JestFile digits)) (lines : List Str) (source : Str),
      Rendered JestPiece.text (files.flatMap JestFile.pieces) lines →
      (jestRows digits (logText lines) source).map TestRow.outcome = files.flatMap JestFile.results) ∧
    ¬∀ (digits : Decimals) (forest : MochaForest digits) (lines : List Str) (source : Str),
      Rendered mochaText (forest.items 2) lines →
      (mochaSpecRows digits (logText lines) source).map TestRow.outcome = mochaResults forest := by
  constructor
  · intro h
    have hrows := h asciiDecimals [clockFile "at noon" (by decide)] _ [] (rendered_self ..)
    revert hrows
    decide +kernel
  · intro h
    have hrows := h asciiDecimals (cartForest "3 passing tests" (by decide)) _ [] (rendered_self ..)
    revert hrows
    decide +kernel

/-- Two tests with one name. -/
example : (jestRows asciiDecimals (logText (clockLog (clockFile "at noon" (by decide)))) []).map
    TestRow.name = lits ["clock.test.js | clock | opens", "clock.test.js | clock | opens"] := by
  decide +kernel

end Samples

end OpenCollabEval.Reporter
