import Mathlib.Data.List.Infix
import OpenCollabEval.Python.Error

/-!
# Names that match a glob pattern

What `Path.glob` does with the last component of a path: `*` stands for any text, `?` for any character
and `[…]` for a character of a class. A pattern without a bracket and without these two characters
matches as it is written.
-/

namespace Python

namespace Glob

/-- A part of a pattern. -/
inductive Item where
  | char (c : Nat)
  | any
  | many
  | oneOf (negated : Bool) (ranges : List (Nat × Nat))

/-- The ranges of a class. A hyphen between two characters makes a range. -/
def classRanges : Str → List (Nat × Nat)
  | first :: 45 :: last :: rest => (first, last) :: classRanges rest
  | c :: rest => (c, c) :: classRanges rest
  | [] => []

/-- The text of a class, and what follows its closing bracket. A bracket that closes at once belongs
to the class, also after `!`. -/
def splitClass (pattern : Str) : Option (Str × Str) :=
  let negation := (pattern.takeWhile (· == 33)).take 1
  let rest := pattern.drop negation.length
  let bracket := (rest.takeWhile (· == 93)).take 1
  let body := rest.drop bracket.length
  match body.dropWhile (· != 93) with
  | _ :: after => some (negation ++ bracket ++ body.takeWhile (· != 93), after)
  | [] => none

/-- The class of a text between brackets. -/
def classOf : Str → Item
  | 33 :: text => .oneOf true (classRanges text)
  | text => .oneOf false (classRanges text)

/-- The parts of a pattern of at most the given length. -/
def parse : Nat → Str → List Item
  | 0, _ => []
  | _, [] => []
  | n + 1, c :: rest =>
    if c = 42 then .many :: parse n rest
    else if c = 63 then .any :: parse n rest
    else if c = 91 then
      match splitClass rest with
      | some (text, after) => classOf text :: parse n after
      | none => .char c :: parse n rest
    else .char c :: parse n rest

/-- A character of one of the ranges. -/
def inRanges (ranges : List (Nat × Nat)) (c : Nat) : Bool :=
  ranges.any fun range => range.1 ≤ c && c ≤ range.2

/-- A name that matches some parts. -/
def matchItems : List Item → Str → Bool
  | [], name => name.isEmpty
  | .many :: items, name => name.tails.any (matchItems items)
  | .any :: items, _ :: name => matchItems items name
  | .char c :: items, d :: name => c == d && matchItems items name
  | .oneOf negated ranges :: items, d :: name =>
    (inRanges ranges d != negated) && matchItems items name
  | _ :: _, [] => false

/-- `fnmatch.fnmatchcase`. -/
def fnmatch (name pattern : Str) : Bool := matchItems (parse pattern.length pattern) name

/-- `**` is only allowed as a whole component. -/
def checkPattern (pattern : Str) : Except PyErr Unit :=
  if Str.contains pattern "**" then .error .valueError else .ok ()

/-- A text without the characters that have a meaning in a pattern. -/
def Literal (text : Str) : Prop := ∀ c ∈ text, c ≠ 42 ∧ c ≠ 63 ∧ c ≠ 91

theorem parse_literal {text : Str} (h : Literal text) (rest : Str) :
    parse (text ++ rest).length (text ++ rest) = text.map .char ++ parse rest.length rest := by
  induction text with
  | nil => rfl
  | cons c text ih =>
    obtain ⟨hstar, hquestion, hbracket⟩ := h c List.mem_cons_self
    rw [List.cons_append, List.length_cons, parse, if_neg hstar, if_neg hquestion, if_neg hbracket,
      ih fun d hd => h d (List.mem_cons_of_mem _ hd)]
    rfl

theorem matchItems_char (text : Str) (items : List Item) (name : Str) :
    matchItems (text.map .char ++ items) (text ++ name) = matchItems items name := by
  induction text with
  | nil => rfl
  | cons c text ih =>
    rw [List.map_cons, List.cons_append, List.cons_append, matchItems, ih, beq_self_eq_true,
      Bool.true_and]

/-- A literal text and a star match whatever begins with the text. -/
theorem fnmatch_literal_star {text : Str} (h : Literal text) (rest : Str) :
    fnmatch (text ++ rest) (text ++ lit "*") = true := by
  have hstar : parse (lit "*").length (lit "*") = [.many] := by rfl
  rw [fnmatch, parse_literal h, hstar, matchItems_char, matchItems, List.any_eq_true]
  exact ⟨[], (List.mem_tails _ _).mpr List.nil_suffix, rfl⟩

/-- What a literal text and a star match is at least as long as the text. -/
theorem length_le_of_fnmatch {text name : Str} (h : Literal text)
    (hmatch : fnmatch name (text ++ lit "*") = true) : text.length ≤ name.length := by
  rw [fnmatch, parse_literal h] at hmatch
  clear h
  induction text generalizing name with
  | nil => exact Nat.zero_le _
  | cons c text ih =>
    cases name with
    | nil => simp [matchItems] at hmatch
    | cons d name =>
      rw [List.map_cons, List.cons_append, matchItems, Bool.and_eq_true] at hmatch
      exact Nat.succ_le_succ (ih hmatch.2)

/-- Whether a pattern is allowed depends on the name before a literal text and a star. -/
theorem checkPattern_append {text : Str} (htext : Literal text) (hne : text ≠ []) (name : Str) :
    checkPattern (name ++ (text ++ lit "*")) =
      if Str.contains name "**" then .error .valueError else .ok () := by
  have hfind : (Str.find "**" (name ++ (text ++ lit "*"))).isSome = (Str.find "**" name).isSome := by
    have hfirst : ∀ d rest, text ++ lit "*" = d :: rest → (42 == d) = false := by
      obtain ⟨c, text, rfl⟩ := List.exists_cons_of_ne_nil hne
      rintro d rest ⟨⟩
      exact beq_eq_false_iff_ne.mpr (htext c List.mem_cons_self).1.symm
    induction name with
    | nil =>
      clear hfirst hne
      induction text with
      | nil => rfl
      | cons c text ih =>
        have hstar : (lit "**").isPrefixOf (c :: (text ++ lit "*")) = false := by
          have hc : (42 == c) = false :=
            beq_eq_false_iff_ne.mpr (htext c List.mem_cons_self).1.symm
          show (42 == c && _) = false
          rw [hc, Bool.false_and]
        have hnext : Str.find "**" (c :: (text ++ lit "*")) =
            (Str.find "**" (text ++ lit "*")).map (· + 1) := by
          rw [Str.find, hstar]
          rfl
        rw [List.nil_append] at ih ⊢
        rw [List.cons_append, hnext, Option.isSome_map,
          ih fun d hd => htext d (List.mem_cons_of_mem _ hd)]
    | cons c name ih =>
      have hstars : (lit "**").isPrefixOf (c :: (name ++ (text ++ lit "*"))) =
          (lit "**").isPrefixOf (c :: name) := by
        cases name with
        | nil =>
          obtain ⟨d, rest, hrest⟩ : ∃ d rest, text ++ lit "*" = d :: rest :=
            List.exists_cons_of_ne_nil (by simp [hne])
          rw [List.nil_append, hrest]
          show (42 == c && (42 == d && _)) = (42 == c && false)
          rw [hfirst d rest hrest, Bool.false_and]
        | cons d name => rfl
      rw [List.cons_append, Str.find, Str.find, hstars]
      split
      · rfl
      · rw [Option.isSome_map, Option.isSome_map, ih]
  rw [checkPattern, Str.contains, Str.contains, hfind]

end Glob

end Python
