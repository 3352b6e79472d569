import OpenCollabEval.Python.Lines
import OpenCollabEval.Python.Pattern

/-!
# Rows of test reporters

The logs of Jest and of Mocha's spec reporter name a test by the suites around it, which the indentation
of the lines tells. The readers keep the open suites on a stack, and give one row for each test line with
the path of its suites as a name.
-/

open Python

namespace OpenCollabEval.Reporter

/-- The decimal digits that `\d` matches. -/
structure Decimals where
  isDecimal : Nat → Bool
  ascii : ∀ c < 128, isDecimal c = Str.isDigit c
  not_space : ∀ c, isDecimal c = true → Str.isSpace c = false
  not_mark : ∀ c ∈ lit "✓✔", isDecimal c = false

/-- One row. -/
structure TestRow where
  name : Str
  status : Str
  source : Str
  line : Nat
  text : Str
  deriving DecidableEq

/-- `\s` -/
def space : Pattern := .chars Str.isSpace

/-- `ANSI` -/
def ansi : Pattern :=
  .concat [.text "\x1b[", .star true (.chars fun c => 0x30 ≤ c && c ≤ 0x3F),
    .star true (.chars fun c => 0x20 ≤ c && c ≤ 0x2F), .chars fun c => 0x40 ≤ c && c ≤ 0x7E]

/-- The open suites, the innermost first, each with its indentation. -/
abbrev Suites := List (Nat × Str)

/-- `while stack and stack[-1][0] >= indent: stack.pop()` -/
def popTo (indent : Nat) (stack : Suites) : Suites := stack.dropWhile fun suite => indent ≤ suite.1

/-- The titles on the stack, the outermost first. -/
def titles (stack : Suites) : List Str := stack.reverse.map Prod.snd

/-- `len(line) - len(line.lstrip())` -/
def indentOf (line : Str) : Nat := line.length - (line.lstripOf Str.isSpace).length

section Readers

variable (digits : Decimals)

/-- `DURATION` -/
def duration : Pattern :=
  .concat [.plus space, .text "(", .plus (.chars fun c => digits.isDecimal c || c == 46),
    .star true space, .opt (.text "m"), .text "s)", .endOfText]

/-- `(.+?)\s*$` -/
def titleGroup (n : Nat) : Pattern :=
  .concat [.group n (.seq .dot (.star false .dot)), .star true space, .endOfText]

/-- The header of a test file. -/
def jestHeader : Pattern :=
  .concat [.startOfText, .oneOf [.text "PASS", .text "FAIL"], .plus space,
    .group 1 (.concat [.plus (.chars fun c => !Str.isSpace c), .text ".",
      .opt (.chars fun c => c == 99 || c == 109), .chars fun c => c == 106 || c == 116, .text "s",
      .opt (.text "x")]),
    .oneOf [space, .endOfText]]

/-- A line of the summary. -/
def jestSummary : Pattern :=
  .concat [.startOfText, .oneOf [.text "Test Suites:", .text "Tests:", .text "Snapshots:",
    .text "Time:", .text "Ran all test"]]

/-- A line of a test. -/
def jestTest : Pattern :=
  .concat [.startOfText, .group 1 (.plus space), .group 2 (.chars fun c => decide (c ∈ lit "✓✔✕×○")),
    .plus space, titleGroup 3]

/-- What the reader of a Jest log knows. -/
structure JestState where
  file : Option Str
  stack : Suites
  details : Bool
  rows : List TestRow

/-- One line of a Jest log. -/
def jestLine (source : Str) (state : JestState) (numbered : Str × Nat) : JestState :=
  let (original, number) := numbered
  let line := ansi.sub [] original
  match jestHeader.matchStart line, state.file with
  | some header, _ => { state with file := some (header.group 1), stack := [], details := false }
  | none, none => state
  | none, some file =>
    if line.strip.isEmpty then state
    else if state.details || line.startsWith "  ●" || (jestSummary.matchStart line).isSome then
      { state with details := true }
    else
      match jestTest.matchStart line with
      | some test =>
        let stack := popTo (test.group 1).length state.stack
        let row := {
          name := Str.join " | " (file :: titles stack ++ [(duration digits).sub [] (test.group 3)])
          status :=
            if (lit "✓✔").contains (test.group 2) then "PASSED"
            else if (lit "✕×").contains (test.group 2) then "FAILED" else "SKIPPED"
          source := source
          line := number
          text := original }
        { state with stack := stack, rows := state.rows ++ [row] }
      | none =>
        if line.startsWith "  " && !line.startsWith "    at " then
          { state with stack := (indentOf line, line.strip) :: popTo (indentOf line) state.stack }
        else state

/-- `jest_rows` -/
def jestRows (text source : Str) : List TestRow :=
  ((text.splitlines.zipIdx 1).foldl (jestLine digits source) ⟨none, [], false, []⟩).rows

/-- The first line of the summary. -/
def mochaSummary : Pattern :=
  .concat [.startOfText, .star true space, .plus (.chars digits.isDecimal), .text " ",
    .oneOf [.text "passing", .text "failing", .text "pending"], .oneOf [space, .endOfText]]

/-- A line of a test. -/
def mochaTest : Pattern :=
  .concat [.startOfText, .group 1 (.plus space),
    .oneOf [.seq (.group 2 (.chars fun c => decide (c ∈ lit "✓✔-"))) (.plus space),
      .concat [.group 3 (.plus (.chars digits.isDecimal)), .text ")", .plus space]],
    titleGroup 4]

/-- What the reader of a Mocha log knows. -/
structure MochaState where
  stack : Suites
  details : Bool
  rows : List TestRow

/-- One line of a Mocha log. -/
def mochaLine (source : Str) (state : MochaState) (numbered : Str × Nat) : MochaState :=
  let (original, number) := numbered
  let line := ansi.sub [] original
  if state.details || ((mochaSummary digits).matchStart line).isSome then
    { state with details := true }
  else if line.strip.isEmpty then state
  else
    let stack := popTo (indentOf line) state.stack
    match (mochaTest digits).matchStart line with
    | some test =>
      let row := {
        name := Str.join " " (titles stack ++ [(duration digits).sub [] (test.group 4)])
        status :=
          if !(test.group 3).isEmpty then "FAILED"
          else if test.group 2 = lit "-" then "SKIPPED" else "PASSED"
        source := source
        line := number
        text := original }
      { state with stack := stack, rows := state.rows ++ [row] }
    | none =>
      if 2 ≤ indentOf line then { state with stack := (indentOf line, line.strip) :: stack }
      else { state with stack := stack }

/-- `mocha_spec_rows` -/
def mochaSpecRows (text source : Str) : List TestRow :=
  ((text.splitlines.zipIdx 1).foldl (mochaLine digits source) ⟨[], false, []⟩).rows

end Readers

end OpenCollabEval.Reporter
