import OpenCollabEval.Evaluation.ReporterForest
import OpenCollabEval.Python.PatternMatch

/-!
# Printed lines

The lines that the reporters print, with colour codes anywhere in them, and what the patterns of the
readers find in them. Titles are taken as the reporters get them, without the forms that a log cannot
tell from a marker or from a duration.
-/

open Python

namespace OpenCollabEval.Reporter

section Ansi

/-- The parameters of a control sequence. -/
def isParameter (c : Nat) : Bool := 0x30 ≤ c && c ≤ 0x3F

/-- The intermediate code points of a control sequence. -/
def isIntermediate (c : Nat) : Bool := 0x20 ≤ c && c ≤ 0x2F

/-- The last code point of a control sequence. -/
def isFinal (c : Nat) : Bool := 0x40 ≤ c && c ≤ 0x7E

/-- A text starts with a control sequence, and goes on after it. -/
structure StartsAnsi (s rest : Str) : Prop where
  sequence : ∃ parameters intermediates final,
    s = 27 :: 91 :: (parameters ++ (intermediates ++ final :: rest)) ∧
      (∀ c ∈ parameters, isParameter c = true) ∧ (∀ c ∈ intermediates, isIntermediate c = true) ∧
        isFinal final = true

/-- No control sequence stands in a text. -/
def AnsiFree (s : Str) : Prop := ∀ before after rest, s = before ++ after → ¬StartsAnsi after rest

theorem startsAnsi_of_matches {c d : Cursor} (h : ansi.Matches c d) : StartsAnsi c.rest d.rest := by
  obtain ⟨c₁, hescape, h⟩ := Pattern.matches_seq_iff.mp h
  obtain ⟨c₂, hparameters, h⟩ := Pattern.matches_seq_iff.mp h
  obtain ⟨c₃, hintermediates, hfinal⟩ := Pattern.matches_seq_iff.mp h
  obtain ⟨hrest, -⟩ := Pattern.passes_of_lit hescape
  obtain ⟨parameters, hparameters⟩ := Pattern.passes_of_star hparameters
  obtain ⟨intermediates, hintermediates⟩ := Pattern.passes_of_star hintermediates
  obtain ⟨final, hfinal⟩ := Pattern.passes_of_chars hfinal
  refine ⟨parameters, intermediates, final, ?_, hparameters.accepted, hintermediates.accepted,
    hfinal.accepted final (by simp)⟩
  rw [hrest, hparameters.rest_eq, hintermediates.rest_eq, hfinal.rest_eq]
  rfl

theorem matches_of_startsAnsi {c : Cursor} {rest : Str} (h : StartsAnsi c.rest rest) :
    ∃ d, ansi.Matches c d := by
  obtain ⟨parameters, intermediates, final, hrest, hparameters, hintermediates, hfinal⟩ := h.sequence
  obtain ⟨c₁, h₁, hrest₁, -⟩ := Pattern.exists_lit (s := Python.lit "\x1b[") hrest
  obtain ⟨c₂, h₂, hrest₂, -⟩ := @Pattern.exists_star c₁ isParameter true _ _ hparameters hrest₁
  obtain ⟨c₃, h₃, hrest₃, -⟩ := @Pattern.exists_star c₂ isIntermediate true _ _ hintermediates hrest₂
  obtain ⟨d, h₄, -⟩ := @Pattern.exists_chars c₃ isFinal _ _ hfinal hrest₃
  exact ⟨d, .seq h₁ (.seq h₂ (.seq h₃ h₄))⟩

/-- A class that the next code point is not in ends its run there. -/
theorem run_unique {accepts : Nat → Bool} {xs ys : Str} {x y : Nat} {rest rest' : Str}
    (hxs : ∀ c ∈ xs, accepts c = true) (hys : ∀ c ∈ ys, accepts c = true) (hx : accepts x = false)
    (hy : accepts y = false) (h : xs ++ x :: rest = ys ++ y :: rest') :
    xs = ys ∧ x = y ∧ rest = rest' := by
  induction xs generalizing ys with
  | nil =>
    cases ys with
    | nil => simpa using h
    | cons c ys =>
      obtain ⟨rfl, -⟩ := List.cons.inj h
      rw [hys x (List.mem_cons_self ..)] at hx
      cases hx
  | cons c xs ih =>
    cases ys with
    | nil =>
      obtain ⟨rfl, -⟩ := List.cons.inj h
      rw [hxs c (List.mem_cons_self ..)] at hy
      cases hy
    | cons c' ys =>
      rw [List.forall_mem_cons] at hxs hys
      obtain ⟨hhead, htail⟩ := List.cons.inj h
      obtain ⟨hsame, hrest⟩ := ih hxs.2 hys.2 htail
      exact ⟨by rw [hhead, hsame], hrest⟩

/-- A line with colour codes in it, and the line without them. -/
inductive Painted : Str → Str → Prop
  | nil : Painted [] []
  | char (c : Nat) {plain line : Str} (h : Painted plain line) : Painted (c :: plain) (c :: line)
  | colour (codes : Str) (hcodes : ∀ c ∈ codes, Str.isDigit c = true ∨ c = 59) {plain line : Str}
    (h : Painted plain line) : Painted plain (27 :: 91 :: (codes ++ 109 :: line))

/-- A colour code is one control sequence. -/
theorem rest_eq_of_colour {codes line rest : Str} (hcodes : ∀ c ∈ codes, Str.isDigit c = true ∨ c = 59)
    (h : StartsAnsi (27 :: 91 :: (codes ++ 109 :: line)) rest) : rest = line := by
  obtain ⟨parameters, intermediates, final, heq, hparameters, hintermediates, hfinal⟩ := h.sequence
  have hcodes' : ∀ c ∈ codes, isParameter c = true := by
    intro c hc
    have hcode := hcodes c hc
    simp only [Str.isDigit, Bool.and_eq_true, decide_eq_true_iff] at hcode
    simp only [isParameter, Bool.and_eq_true, decide_eq_true_iff]
    omega
  simp only [List.cons.injEq, true_and] at heq
  have hm : isParameter 109 = false := by decide
  cases intermediates with
  | nil =>
    have hnot : isParameter final = false := by
      simp only [isFinal, Bool.and_eq_true, decide_eq_true_iff] at hfinal
      simp only [isParameter, Bool.and_eq_false_iff, decide_eq_false_iff_not]
      omega
    exact (run_unique hcodes' hparameters hm hnot heq).2.2.symm
  | cons first intermediates =>
    have hfirst := hintermediates first (List.mem_cons_self ..)
    simp only [isIntermediate, Bool.and_eq_true, decide_eq_true_iff] at hfirst
    have hnot : isParameter first = false := by
      simp only [isParameter, Bool.and_eq_false_iff, decide_eq_false_iff_not]
      omega
    have hsame := (run_unique hcodes' hparameters hm hnot heq).2.1
    omega

/-- A run of code points without an escape was not painted. -/
theorem painted_append {ys rest plain : Str} (hys : 27 ∉ ys) (h : Painted plain (ys ++ rest)) :
    ∃ plain', plain = ys ++ plain' ∧ Painted plain' rest := by
  induction ys generalizing plain with
  | nil => exact ⟨plain, rfl, h⟩
  | cons y ys ih =>
    rw [List.mem_cons, not_or] at hys
    generalize hline : y :: ys ++ rest = line at h
    cases h with
    | nil => cases hline
    | char c h =>
      obtain ⟨rfl, rfl⟩ := List.cons.inj hline
      obtain ⟨plain', rfl, hplain'⟩ := ih hys.2 h
      exact ⟨plain', rfl, hplain'⟩
    | colour codes hcodes h => exact absurd (List.cons.inj hline).1.symm hys.1

/-- A control sequence of a painted line that does not begin with a colour code was there before. -/
theorem startsAnsi_of_painted {c : Nat} {plain line rest : Str} (h : Painted plain line)
    (hansi : StartsAnsi (c :: line) rest) : ∃ rest', StartsAnsi (c :: plain) rest' := by
  obtain ⟨parameters, intermediates, final, heq, hparameters, hintermediates, hfinal⟩ := hansi.sequence
  obtain ⟨rfl, rfl⟩ := List.cons.inj heq
  have hsequence : 91 :: (parameters ++ (intermediates ++ final :: rest)) =
      (91 :: (parameters ++ (intermediates ++ [final]))) ++ rest := by simp
  rw [hsequence] at h
  have hescape : 27 ∉ 91 :: (parameters ++ (intermediates ++ [final])) := by
    simp only [List.mem_cons, List.mem_append, List.not_mem_nil, or_false, not_or]
    refine ⟨by omega, fun hmem => ?_, fun hmem => ?_, ?_⟩
    · exact absurd (hparameters 27 hmem) (by decide)
    · exact absurd (hintermediates 27 hmem) (by decide)
    · rintro rfl
      exact absurd hfinal (by decide)
  obtain ⟨plain', rfl, -⟩ := painted_append hescape h
  exact ⟨plain', parameters, intermediates, final, by simp, hparameters, hintermediates, hfinal⟩

theorem AnsiFree.tail {c : Nat} {s : Str} (h : AnsiFree (c :: s)) : AnsiFree s :=
  fun before after rest hs => h (c :: before) after rest (by rw [hs]; rfl)

/-- Without its colour codes a line is as it was, when no control sequence stood in it. -/
theorem subFrom_painted {plain line : Str} (h : Painted plain line) (hfree : AnsiFree plain)
    {fuel : Nat} (hfuel : line.length < fuel) {c : Cursor} (hc : c.rest = line) :
    ansi.subFrom [] fuel c = plain := by
  induction h generalizing fuel c with
  | nil => exact Pattern.subFrom_nil hc
  | @char x plain line hpainted ih =>
    cases fuel with
    | zero => omega
    | succ fuel =>
      have hnone : ansi.matchAt c = none := by
        cases hmatch : ansi.matchAt c with
        | none => rfl
        | some d =>
          have hansi := startsAnsi_of_matches (Pattern.matchAt_sound hmatch)
          rw [hc] at hansi
          obtain ⟨rest', hplain⟩ := startsAnsi_of_painted hpainted hansi
          exact absurd hplain (hfree [] _ rest' rfl)
      rw [Pattern.subFrom_of_none hc hnone, ih hfree.tail (by rw [List.length_cons] at hfuel; omega)]
      rw [Cursor.advance, hc]
  | @colour codes hcodes plain line hpainted ih =>
    cases fuel with
    | zero => omega
    | succ fuel =>
      have hstart : StartsAnsi c.rest line := by
        refine ⟨codes, [], 109, by rw [hc]; rfl, fun code hcode => ?_, by simp, by decide⟩
        have hor := hcodes code hcode
        simp only [Str.isDigit, Bool.and_eq_true, decide_eq_true_iff] at hor
        simp only [isParameter, Bool.and_eq_true, decide_eq_true_iff]
        omega
      obtain ⟨e, he⟩ := @matches_of_startsAnsi { c with groups := [] } line hstart
      obtain ⟨d, hd⟩ := Option.isSome_iff_exists.mp (Pattern.matchAt_isSome he)
      have hrest : d.rest = line := by
        have hansi := startsAnsi_of_matches (Pattern.matchAt_sound hd)
        rw [show ({ c with groups := [] } : Cursor).rest = c.rest from rfl, hc] at hansi
        exact rest_eq_of_colour hcodes hansi
      have hlength : line.length < c.rest.length := by
        rw [hc]
        simp only [List.length_cons, List.length_append]
        omega
      rw [Pattern.subFrom_of_some hd (by rw [hrest]; exact hlength), List.nil_append,
        ih hfree (by rw [hc] at hlength; omega) hrest]

theorem sub_painted {plain line : Str} (h : Painted plain line) (hfree : AnsiFree plain) :
    ansi.sub [] line = plain := subFrom_painted h hfree (Nat.lt_succ_self _) rfl

end Ansi

section Titles

variable (digits : Decimals)

/-- A duration as it stands at the end of a line. -/
structure IsDuration (s : Str) : Prop where
  parts : ∃ spaces number inner unit, s = spaces ++ 40 :: (number ++ (inner ++ (unit ++ lit "s)"))) ∧
    (spaces ≠ [] ∧ ∀ c ∈ spaces, Str.isSpace c = true) ∧
      (number ≠ [] ∧ ∀ c ∈ number, (digits.isDecimal c || c == 46) = true) ∧
        (∀ c ∈ inner, Str.isSpace c = true) ∧ (unit = [] ∨ unit = lit "m")

/-- The title of a suite or of a test. -/
structure Title (digits : Decimals) (Marked : Str → Prop) where
  text : Str
  ne_nil : text ≠ []
  oneLine : ∀ c ∈ text, Str.isLineEnd c = false
  first : ∀ c ∈ text.head?, Str.isSpace c = false
  last : ∀ c ∈ text.getLast?, Str.isSpace c = false
  noDuration : ∀ before after, text = before ++ after → ¬IsDuration digits after
  unmarked : ¬Marked text

/-- A duration as the reporters print it. -/
structure Duration where
  number : Str
  number_eq : ∃ first rest, number = first :: rest ∧ Str.isDigit first = true ∧
    ∀ c ∈ rest, Str.isDigit c = true ∨ c = 46
  spaced : Bool
  milliseconds : Bool

/-- The end of a line, with a duration or without one. -/
def ending : Option Duration → Str
  | none => []
  | some d => 32 :: 40 :: (d.number ++ ((if d.spaced then [32] else []) ++
      ((if d.milliseconds then lit "m" else []) ++ lit "s)")))

variable {digits} {Marked : Str → Prop}

theorem Title.lineFeed_not_mem (title : Title digits Marked) : 10 ∉ title.text := by
  intro hmem
  cases title.oneLine 10 hmem

/-- A printed number is made of digits and points. -/
theorem Duration.number_accepted (digits : Decimals) (d : Duration) :
    d.number ≠ [] ∧ ∀ c ∈ d.number, (digits.isDecimal c || c == 46) = true := by
  obtain ⟨first, rest, hnumber, hfirst, hrest⟩ := d.number_eq
  have hdigit : ∀ c, Str.isDigit c = true → digits.isDecimal c = true := by
    intro c hc
    have hsmall : c < 128 := by
      simp only [Str.isDigit, Bool.and_eq_true, decide_eq_true_iff] at hc
      omega
    rw [digits.ascii c hsmall, hc]
  rw [hnumber]
  refine ⟨by simp, List.forall_mem_cons.mpr ⟨by rw [hdigit first hfirst]; rfl, fun c hc => ?_⟩⟩
  rcases hrest c hc with hc | rfl
  · rw [hdigit c hc]
    rfl
  · simp

theorem isDuration_ending (digits : Decimals) (d : Duration) : IsDuration digits (ending (some d)) := by
  refine ⟨[32], d.number, if d.spaced then [32] else [], if d.milliseconds then lit "m" else [], rfl,
    ⟨by simp, by decide⟩, d.number_accepted digits, ?_, ?_⟩
  · split_ifs
    · decide
    · simp
  · split_ifs
    · exact .inr rfl
    · exact .inl rfl

/-- The last of some code points splits a text in one way. -/
theorem split_unique {left left' right right' : Str} {x : Nat} (h : left ++ x :: right = left' ++ x :: right')
    (hright : x ∉ right) (hright' : x ∉ right') : left = left' := by
  have hreverse := congrArg List.reverse h
  simp only [List.reverse_append, List.reverse_cons, List.append_assoc, List.singleton_append]
    at hreverse
  have hne : ∀ s : Str, x ∉ s → ∀ c ∈ s.reverse, (c != x) = true := by
    intro s hs c hc
    rw [bne_iff_ne]
    rintro rfl
    exact hs (List.mem_reverse.mp hc)
  have hunique := @run_unique (· != x) _ _ _ _ _ _ (hne _ hright) (hne _ hright') (by simp) (by simp)
    hreverse
  exact List.reverse_injective hunique.2.2

/-- What follows the bracket of a duration has no other one. -/
theorem bracket_not_mem {number inner unit : Str}
    (hnumber : ∀ c ∈ number, (digits.isDecimal c || c == 46) = true)
    (hinner : ∀ c ∈ inner, Str.isSpace c = true) (hunit : unit = [] ∨ unit = lit "m") :
    40 ∉ number ++ (inner ++ (unit ++ lit "s)")) := by
  simp only [List.mem_append, not_or]
  refine ⟨fun hmem => ?_, fun hmem => absurd (hinner 40 hmem) (by decide), fun hmem => ?_, by decide⟩
  · have haccepted := hnumber 40 hmem
    rw [digits.ascii 40 (by decide)] at haccepted
    cases haccepted
  · rcases hunit with rfl | rfl
    · cases hmem
    · exact absurd hmem (by decide)

/-- A title and the end of its line are no duration together. -/
theorem Title.not_isDuration (title : Title digits Marked) (d : Option Duration) {before after : Str}
    (htext : title.text = before ++ after) (hne : after ≠ []) :
    ¬IsDuration digits (after ++ ending d) := by
  intro hduration
  cases d with
  | none =>
    rw [ending, List.append_nil] at hduration
    exact title.noDuration before after htext hduration
  | some d =>
    obtain ⟨spaces, number, inner, unit, heq, ⟨-, hspaces⟩, ⟨-, hnumber⟩, hinner, hunit⟩ :=
      hduration.parts
    obtain ⟨spaces', number', inner', unit', hend, -, ⟨-, hnumber'⟩, hinner', hunit'⟩ :=
      (isDuration_ending digits d).parts
    rw [hend, ← List.append_assoc] at heq
    have hsame := split_unique heq (bracket_not_mem hnumber' hinner' hunit')
      (bracket_not_mem hnumber hinner hunit)
    obtain ⟨c, hc⟩ : ∃ c, after.getLast? = some c := by
      rw [← Option.isSome_iff_exists, List.getLast?_isSome]
      exact hne
    have hspace : Str.isSpace c = true :=
      hspaces c (hsame ▸ List.mem_append_left _ (List.mem_of_getLast? hc))
    have hlast := title.last c (by rw [htext, List.getLast?_append, hc]; rfl)
    rw [hspace] at hlast
    cases hlast

end Titles

section Matches

variable {digits : Decimals} {Marked : Str → Prop} {c d : Cursor}

/-- The end of the text, or the line feed before it. -/
theorem rest_of_endOfText (h : Pattern.Matches .endOfText c d) :
    d = c ∧ (c.rest = [] ∨ c.rest = [10]) := by
  obtain ⟨rfl, hend⟩ := Pattern.matches_look_iff.mp h
  simpa [List.isEmpty_iff] using hend

theorem endOfText_of_nil (h : c.rest = []) : Pattern.Matches .endOfText c c :=
  Pattern.matches_look_iff.mpr ⟨rfl, by simp [h]⟩

/-- `p?` for a literal. -/
theorem passes_of_opt_lit {s : Str} (h : Pattern.Matches (.opt (.lit s)) c d) :
    ∃ t, (t = [] ∨ t = s) ∧ c.rest = t ++ d.rest ∧ d.groups = c.groups := by
  rcases Pattern.matches_alt_iff.mp h with h | h
  · obtain ⟨hrest, hgroups⟩ := Pattern.passes_of_lit h
    exact ⟨s, .inr rfl, hrest, hgroups⟩
  · obtain rfl := Pattern.matches_empty_iff.mp h
    exact ⟨[], .inl rfl, rfl, rfl⟩

theorem exists_opt_lit {s t rest : Str} (ht : t = [] ∨ t = s) (hrest : c.rest = t ++ rest) :
    ∃ d, Pattern.Matches (.opt (.lit s)) c d ∧ d.rest = rest ∧ d.groups = c.groups := by
  rcases ht with rfl | rfl
  · exact ⟨c, .altRight (.empty c), hrest, rfl⟩
  · obtain ⟨d, hd, hdrest, hgroups⟩ := Pattern.exists_lit hrest
    exact ⟨d, .altLeft hd, hdrest, hgroups⟩

theorem isDuration_of_matches (h : (duration digits).Matches c d) (hfeed : 10 ∉ c.rest) :
    IsDuration digits c.rest ∧ d.rest = [] := by
  obtain ⟨c₁, hspaces, h⟩ := Pattern.matches_seq_iff.mp h
  obtain ⟨c₂, hopen, h⟩ := Pattern.matches_seq_iff.mp h
  obtain ⟨c₃, hnumber, h⟩ := Pattern.matches_seq_iff.mp h
  obtain ⟨c₄, hinner, h⟩ := Pattern.matches_seq_iff.mp h
  obtain ⟨c₅, hunit, h⟩ := Pattern.matches_seq_iff.mp h
  obtain ⟨c₆, hclose, hend⟩ := Pattern.matches_seq_iff.mp h
  obtain ⟨spaces, hne, hspaces⟩ := Pattern.passes_of_plus hspaces
  obtain ⟨hrest₂, -⟩ := Pattern.passes_of_lit hopen
  obtain ⟨number, hne', hnumber⟩ := Pattern.passes_of_plus hnumber
  obtain ⟨inner, hinner⟩ := Pattern.passes_of_star hinner
  obtain ⟨unit, hunit, hrest₅, -⟩ := passes_of_opt_lit hunit
  obtain ⟨hrest₆, -⟩ := Pattern.passes_of_lit hclose
  obtain ⟨rfl, hend⟩ := rest_of_endOfText hend
  have hrest : c.rest = spaces ++ 40 :: (number ++ (inner ++ (unit ++ (lit "s)" ++ d.rest)))) := by
    rw [hspaces.rest_eq, hrest₂, hnumber.rest_eq, hinner.rest_eq, hrest₅, hrest₆]
    rfl
  have hnil : d.rest = [] := hend.resolve_right fun hten => hfeed (by rw [hrest, hten]; simp)
  refine ⟨⟨spaces, number, inner, unit, ?_, ⟨hne, hspaces.accepted⟩, ⟨hne', hnumber.accepted⟩,
    hinner.accepted, hunit⟩, hnil⟩
  rw [hrest, hnil, List.append_nil]

theorem matches_of_isDuration (h : IsDuration digits c.rest) : ∃ d, (duration digits).Matches c d := by
  obtain ⟨spaces, number, inner, unit, hrest, ⟨hne, hspaces⟩, ⟨hne', hnumber⟩, hinner, hunit⟩ := h.parts
  obtain ⟨c₁, h₁, hrest₁, -⟩ := Pattern.exists_plus hne hspaces hrest
  obtain ⟨c₂, h₂, hrest₂, -⟩ := @Pattern.exists_lit c₁ (lit "(") _ hrest₁
  obtain ⟨c₃, h₃, hrest₃, -⟩ := Pattern.exists_plus hne' hnumber hrest₂
  obtain ⟨c₄, h₄, hrest₄, -⟩ := @Pattern.exists_star c₃ Str.isSpace true _ _ hinner hrest₃
  obtain ⟨c₅, h₅, hrest₅, -⟩ := exists_opt_lit hunit hrest₄
  obtain ⟨c₆, h₆, hrest₆, -⟩ := @Pattern.exists_lit c₅ (lit "s)") [] (by rw [hrest₅, List.append_nil])
  exact ⟨c₆, .seq h₁ (.seq h₂ (.seq h₃ (.seq h₄ (.seq h₅ (.seq h₆ (endOfText_of_nil hrest₆))))))⟩

/-- The end of a line is printable ASCII. -/
theorem mem_ending (d : Option Duration) : ∀ c ∈ ending d, 32 ≤ c ∧ c ≤ 126 := by
  cases d with
  | none => simp [ending]
  | some d =>
    obtain ⟨first, rest, hnumber, hfirst, hrest⟩ := d.number_eq
    have hdigit : ∀ c, Str.isDigit c = true ∨ c = 46 → 32 ≤ c ∧ c ≤ 126 := by
      intro c hc
      simp only [Str.isDigit, Bool.and_eq_true, decide_eq_true_iff] at hc
      omega
    intro c hc
    simp only [ending, List.mem_cons, List.mem_append] at hc
    rcases hc with rfl | rfl | hc | hc | hc | hc
    · omega
    · omega
    · rw [hnumber] at hc
      rcases List.mem_cons.mp hc with rfl | hc
      · exact hdigit c (.inl hfirst)
      · exact hdigit c (hrest c hc)
    · split_ifs at hc
      · rw [List.mem_singleton.mp hc]
        omega
      · cases hc
    · split_ifs at hc
      · revert c
        decide
      · cases hc
    · revert c
      decide

theorem lineFeed_not_mem_ending (d : Option Duration) : 10 ∉ ending d := by
  intro hmem
  have hprintable := mem_ending d 10 hmem
  omega

/-- The duration is taken off the end of a line, and nothing else. -/
theorem subFrom_duration (title : Title digits Marked) (d : Option Duration) {before after : Str}
    (htext : title.text = before ++ after) {fuel : Nat}
    (hfuel : (after ++ ending d).length < fuel) (hc : c.rest = after ++ ending d) :
    (duration digits).subFrom [] fuel c = after := by
  induction after generalizing before fuel c with
  | nil =>
    cases d with
    | none => exact Pattern.subFrom_nil hc
    | some d =>
      rw [List.nil_append] at hc
      cases fuel with
      | zero => omega
      | succ fuel =>
        have hduration : IsDuration digits ({ c with groups := [] } : Cursor).rest := by
          change IsDuration digits c.rest
          rw [hc]
          exact isDuration_ending digits d
        obtain ⟨e, he⟩ := matches_of_isDuration hduration
        obtain ⟨e', he'⟩ := Option.isSome_iff_exists.mp (Pattern.matchAt_isSome he)
        have hnil := (isDuration_of_matches (Pattern.matchAt_sound he')
          (by change 10 ∉ c.rest; rw [hc]; exact lineFeed_not_mem_ending _)).2
        have hlength : e'.rest.length < c.rest.length := by
          rw [hnil, hc]
          exact Nat.succ_pos _
        rw [Pattern.subFrom_of_some he' hlength, Pattern.subFrom_nil hnil]
        rfl
  | cons x after ih =>
    cases fuel with
    | zero => omega
    | succ fuel =>
      have hnone : (duration digits).matchAt c = none := by
        cases hmatch : (duration digits).matchAt c with
        | none => rfl
        | some e =>
          have hfeed : 10 ∉ ({ c with groups := [] } : Cursor).rest := by
            change 10 ∉ c.rest
            rw [hc, List.mem_append, not_or]
            refine ⟨fun hmem => ?_, lineFeed_not_mem_ending d⟩
            exact title.lineFeed_not_mem (by rw [htext]; exact List.mem_append_right _ hmem)
          have hduration := (isDuration_of_matches (Pattern.matchAt_sound hmatch) hfeed).1
          change IsDuration digits c.rest at hduration
          rw [hc] at hduration
          exact absurd hduration (title.not_isDuration d htext (by simp))
      rw [List.cons_append, List.length_cons] at hfuel
      rw [Pattern.subFrom_of_none hc hnone]
      congr 1
      refine @ih c.advance (before ++ [x]) (by rw [htext]; simp) fuel (by omega) ?_
      rw [Cursor.advance, hc]
      rfl

theorem sub_duration (title : Title digits Marked) (d : Option Duration) :
    (duration digits).sub [] (title.text ++ ending d) = title.text :=
  @subFrom_duration _ _ (.start (title.text ++ ending d)) title d [] title.text rfl _
    (Nat.lt_succ_self _) rfl

end Matches

end OpenCollabEval.Reporter
