import Mathlib.Data.List.DropRight
import OpenCollabEval.Python.Text

/-!
# Lines of bytes

The lines of a file as `readline` and as `bytes.splitlines` cut them. A file of terminated lines and a
tail is read back as those lines and that tail.
-/

namespace Python

/-- The lines of some bytes, each with its line feed. -/
def physicalLines : List Nat → List (List Nat)
  | [] => []
  | b :: rest =>
    if b == 10 then [10] :: physicalLines rest
    else
      match physicalLines rest with
      | [] => [[b]]
      | line :: lines => (b :: line) :: lines

/-- `data.splitlines(keepends=True)`, which also ends a line at a carriage return. -/
def byteLines : List Nat → List (List Nat)
  | [] => []
  | 13 :: 10 :: rest => [13, 10] :: byteLines rest
  | b :: rest =>
    if b == 10 || b == 13 then [b] :: byteLines rest
    else
      match byteLines rest with
      | [] => [[b]]
      | line :: lines => (b :: line) :: lines

/-- `not line.strip()` -/
def isBlankLine (line : List Nat) : Bool := line.all fun b => (9 ≤ b && b ≤ 13) || b == 32

/-- The bytes of some terminated lines and of what follows the last line feed. -/
def joinLines (lines : List (List Nat)) (tail : List Nat) : List Nat :=
  lines.flatMap (· ++ [10]) ++ tail

/-- What follows the last line feed. -/
def lineTail (data : List Nat) : List Nat := data.rtakeWhile (· != 10)

/-- The bytes up to the last line feed. -/
def terminatedPart (data : List Nat) : List Nat := data.rdropWhile (· != 10)

/-- The lines of some bytes up to the last line feed. -/
def completeLines (data : List Nat) : List (List Nat) :=
  (physicalLines data).takeWhile fun line => line.getLast? == some 10

section Join

variable {lines : List (List Nat)} {tail : List Nat}

@[simp]
theorem joinLines_nil : joinLines [] tail = tail := rfl

theorem joinLines_cons (line : List Nat) :
    joinLines (line :: lines) tail = line ++ 10 :: joinLines lines tail := by
  simp [joinLines]

/-- A line feed ends the line that the tail had started. -/
theorem joinLines_append_lineFeed (rest : List Nat) :
    joinLines lines tail ++ 10 :: rest = joinLines (lines ++ [tail]) rest := by
  simp [joinLines]

theorem joinLines_append (rest : List Nat) :
    joinLines lines tail ++ rest = joinLines lines (tail ++ rest) := by
  simp [joinLines]

theorem physicalLines_append_lineFeed {line : List Nat} (h : 10 ∉ line) (rest : List Nat) :
    physicalLines (line ++ 10 :: rest) = (line ++ [10]) :: physicalLines rest := by
  induction line with
  | nil => rfl
  | cons b line ih =>
    simp only [List.mem_cons, not_or] at h
    have hb : (b == 10) = false := by simpa using Ne.symm h.1
    rw [List.cons_append, physicalLines, hb, ih h.2]
    rfl

theorem physicalLines_of_not_mem (h : 10 ∉ tail) (hne : tail ≠ []) :
    physicalLines tail = [tail] := by
  induction tail with
  | nil => exact absurd rfl hne
  | cons b tail ih =>
    simp only [List.mem_cons, not_or] at h
    have hb : (b == 10) = false := by simpa using Ne.symm h.1
    rw [physicalLines, hb]
    cases tail with
    | nil => rfl
    | cons c tail => rw [ih h.2 (by simp)]; rfl

/-- The lines of a file are read as they were written. -/
theorem physicalLines_joinLines (hlines : ∀ line ∈ lines, 10 ∉ line) (htail : 10 ∉ tail) :
    physicalLines (joinLines lines tail) =
      lines.map (· ++ [10]) ++ if tail = [] then [] else [tail] := by
  induction lines with
  | nil =>
    by_cases hne : tail = []
    · simp [hne, physicalLines]
    · simp [hne, physicalLines_of_not_mem htail hne]
  | cons line lines ih =>
    rw [joinLines_cons, physicalLines_append_lineFeed (hlines line (by simp)),
      ih fun other hother => hlines other (by simp [hother])]
    rfl

/-- Without carriage returns both ways of cutting lines are the same. -/
theorem byteLines_eq_physicalLines {data : List Nat} (h : 13 ∉ data) :
    byteLines data = physicalLines data := by
  induction data with
  | nil => rfl
  | cons b data ih =>
    simp only [List.mem_cons, not_or] at h
    have hb : b ≠ 13 := Ne.symm h.1
    rw [byteLines, physicalLines, ih h.2]
    · by_cases hfeed : b = 10
      · subst hfeed
        rfl
      · simp [hb, hfeed]
    · simp [hb]

/-- The terminated lines end in a line feed, backwards. -/
theorem reverse_joinLines :
    ∃ rest, (joinLines lines tail).reverse = tail.reverse ++ rest ∧
      rest.reverse = joinLines lines [] ∧ ∀ b ∈ rest.head?, b = 10 := by
  refine ⟨(joinLines lines []).reverse, by simp [joinLines], by simp, fun b hb => ?_⟩
  rcases List.eq_nil_or_concat lines with rfl | ⟨others, last, rfl⟩
  · simp at hb
  · simpa [joinLines, eq_comm] using hb

theorem takeWhile_ne_append {before rest : List Nat} (hbefore : 10 ∉ before)
    (hrest : ∀ b ∈ rest.head?, b = 10) :
    (before ++ rest).takeWhile (· != 10) = before ∧ (before ++ rest).dropWhile (· != 10) = rest := by
  have hall : ∀ b ∈ before, (b != 10) = true := by
    intro b hb
    simpa using fun heq : b = 10 => hbefore (heq ▸ hb)
  rw [List.takeWhile_append_of_pos hall, List.dropWhile_append_of_pos hall]
  cases rest with
  | nil => simp
  | cons b rest => simp [hrest b (by simp)]

theorem lineTail_joinLines (h : 10 ∉ tail) : lineTail (joinLines lines tail) = tail := by
  obtain ⟨rest, hrest, -, hhead⟩ := @reverse_joinLines lines tail
  rw [lineTail, List.rtakeWhile, hrest, (takeWhile_ne_append (by simpa using h) hhead).1,
    List.reverse_reverse]

theorem terminatedPart_joinLines (h : 10 ∉ tail) :
    terminatedPart (joinLines lines tail) = joinLines lines [] := by
  obtain ⟨rest, hrest, hjoin, hhead⟩ := @reverse_joinLines lines tail
  rw [terminatedPart, List.rdropWhile, hrest, (takeWhile_ne_append (by simpa using h) hhead).2, hjoin]

theorem joinLines_joinLines (others : List (List Nat)) (rest : List Nat) :
    joinLines lines (joinLines others rest) = joinLines (lines ++ others) rest := by
  simp [joinLines]

/-- Some bytes are complete lines and a tail. -/
theorem exists_joinLines (data : List Nat) : ∃ lines tail, data = joinLines lines tail ∧
    (∀ line ∈ lines, 10 ∉ line) ∧ 10 ∉ tail := by
  induction data with
  | nil => exact ⟨[], [], rfl, by simp, by simp⟩
  | cons b data ih =>
    obtain ⟨lines, tail, rfl, hlines, htail⟩ := ih
    by_cases hb : b = 10
    · refine ⟨[] :: lines, tail, by simp [joinLines_cons, hb], ?_, htail⟩
      exact List.forall_mem_cons.mpr ⟨by simp, hlines⟩
    · cases lines with
      | nil => exact ⟨[], b :: tail, rfl, by simp, by simp [htail, Ne.symm hb]⟩
      | cons line lines =>
        refine ⟨(b :: line) :: lines, tail, by simp [joinLines_cons], ?_, htail⟩
        obtain ⟨hline, hlines⟩ := List.forall_mem_cons.mp hlines
        exact List.forall_mem_cons.mpr ⟨by simp [hline, Ne.symm hb], hlines⟩

theorem completeLines_joinLines (hlines : ∀ line ∈ lines, 10 ∉ line) (htail : 10 ∉ tail) :
    completeLines (joinLines lines tail) = lines.map (· ++ [10]) := by
  have hterminated : ∀ line ∈ lines.map (· ++ [10]), (line.getLast? == some 10) = true := by
    intro line hline
    obtain ⟨text, -, rfl⟩ := List.mem_map.mp hline
    simp
  rw [completeLines, physicalLines_joinLines hlines htail,
    List.takeWhile_append_of_pos hterminated]
  by_cases hempty : tail = []
  · simp [hempty]
  · have hlast : (tail.getLast? == some 10) = false := by
      rw [beq_eq_false_iff_ne]
      intro hlast
      exact htail (List.mem_of_getLast? hlast)
    simp [hempty, hlast]

/-- The complete lines of a file that grows are those that it had and those after them. -/
theorem completeLines_append (data rest : List Nat) :
    completeLines (data ++ rest) = completeLines data ++
      completeLines ((data ++ rest).drop (completeLines data).flatten.length) := by
  obtain ⟨lines, tail, rfl, hlines, htail⟩ := exists_joinLines data
  obtain ⟨others, tail', hrest, hothers, htail'⟩ := exists_joinLines (tail ++ rest)
  have hall : ∀ line ∈ lines ++ others, 10 ∉ line := by
    intro line hline
    exact (List.mem_append.mp hline).elim (hlines line) (hothers line)
  have hdrop : (joinLines lines (joinLines others tail')).drop
      (lines.map (· ++ [10])).flatten.length = joinLines others tail' := by
    rw [joinLines, List.flatMap_def, List.drop_left]
  rw [completeLines_joinLines hlines htail, joinLines_append, hrest, hdrop, joinLines_joinLines,
    completeLines_joinLines hall htail', completeLines_joinLines hothers htail', List.map_append]

/-- Nothing complete follows the complete lines. -/
theorem completeLines_drop (data : List Nat) :
    completeLines (data.drop (completeLines data).flatten.length) = [] := by
  simpa using completeLines_append data []

theorem length_completeLines_le (data : List Nat) :
    (completeLines data).flatten.length ≤ data.length := by
  obtain ⟨lines, tail, rfl, hlines, htail⟩ := exists_joinLines data
  rw [completeLines_joinLines hlines htail, joinLines, List.flatMap_def, List.length_append]
  exact Nat.le_add_right _ _

end Join

end Python
