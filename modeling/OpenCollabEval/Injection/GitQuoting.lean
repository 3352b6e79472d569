import OpenCollabEval.Injection.PatchPaths
import OpenCollabEval.Python.Digits

/-!
# Git's spelling of paths

How Git writes the paths of a patch, and that the paths of a test patch are read back from it. A path
with a control character, a quote, a backslash or a byte that is not ASCII stands in quotes, any other
path as it is. `git apply --numstat -z` lists paths without quotes, one record for each entry.
-/

open Python

namespace OpenCollabEval

/-- The bytes of a path. -/
structure GitPath where
  bytes : List Nat
  nonempty : bytes ≠ []
  inRange : ∀ b ∈ bytes, 0 < b ∧ b < 256

/-- A path as Python decodes it. -/
def GitPath.text (path : GitPath) : Str := Str.decodeSurrogateEscape path.bytes

/-- The bytes that Git writes as a letter after a backslash. -/
def gitLetters : List (Nat × Nat) :=
  [(0x07, 97), (0x08, 98), (0x09, 116), (0x0A, 110), (0x0B, 118), (0x0C, 102), (0x0D, 114),
    (0x22, 34), (0x5C, 92)]

/-- A byte in quotes: as it is, as a letter or as three octal digits. -/
def gitQuotedByte (b : Nat) : Str :=
  match gitLetters.lookup b with
  | some letter => [92, letter]
  | none => if b < 32 || 127 ≤ b then [92, 48 + b / 64, 48 + b / 8 % 8, 48 + b % 8] else [b]

/-- Git's quoted form of a path. -/
def GitPath.quoted (path : GitPath) : Str := 34 :: (path.bytes.flatMap gitQuotedByte ++ [34])

/-- A byte that Git does not quote. -/
def isPlainByte (b : Nat) : Bool := 32 ≤ b && b < 127 && b != 34 && b != 92

/-- A path that Git does not quote. -/
def GitPath.isPlain (path : GitPath) : Bool := path.bytes.all isPlainByte

/-- What follows a path on its line: nothing, or a tab and more. -/
def afterTab : Option Str → Str
  | none => []
  | some more => 9 :: more

section Quoted

variable {rest : Str}

theorem quotedBytes_skip (skip : Nat) (c : Nat) :
    quotedBytes (skip + 1) (c :: rest) = quotedBytes skip rest := by
  rw [quotedBytes.eq_def]
  exact if_pos (Nat.succ_pos _)

/-- Three octal digits stand for one byte. -/
theorem quotedBytes_octal {b : Nat} (hb : b < 256) :
    quotedBytes 0 ([92, 48 + b / 64, 48 + b / 8 % 8, 48 + b % 8] ++ rest) =
      (quotedBytes 0 rest).map (b :: ·) := by
  have hhigh : isOctal (48 + b / 64) = true := by simp [isOctal]; omega
  have hmiddle : isOctal (48 + b / 8 % 8) = true := by simp [isOctal]; omega
  have hlow : isOctal (48 + b % 8) = true := by simp [isOctal]; omega
  have hvalue : ((0 * 8 + (48 + b / 64 - 48)) * 8 + (48 + b / 8 % 8 - 48)) * 8 + (48 + b % 8 - 48) =
      b := by omega
  simp only [List.cons_append, List.nil_append]
  rw [quotedBytes, if_neg (lt_irrefl 0), if_neg (by decide), if_neg (by decide)]
  simp only [List.take_succ_cons, List.take_zero, List.takeWhile_cons, List.takeWhile_nil, hhigh,
    hmiddle, hlow, if_true, List.isEmpty_cons, Bool.false_eq_true, if_false, List.foldl_cons,
    List.foldl_nil, hvalue, List.length_cons, List.length_nil]
  rw [appendByte, if_pos hb, quotedBytes_skip, quotedBytes_skip, quotedBytes_skip]

/-- A byte in quotes is read back. -/
theorem quotedBytes_gitQuotedByte {b : Nat} (hb : b < 256) :
    quotedBytes 0 (gitQuotedByte b ++ rest) = (quotedBytes 0 rest).map (b :: ·) := by
  by_cases hletter : b ∈ gitLetters.map Prod.fst
  · simp only [gitLetters, List.map_cons, List.map_nil, List.mem_cons, List.not_mem_nil,
      or_false] at hletter
    rcases hletter with rfl | rfl | rfl | rfl | rfl | rfl | rfl | rfl | rfl <;> rfl
  · have hnone : gitLetters.lookup b = none := by
      rw [List.lookup_eq_none_iff]
      intro entry hentry
      have hne : b ≠ entry.1 := fun heq => hletter (heq ▸ List.mem_map_of_mem hentry)
      simpa using hne
    rw [gitQuotedByte, hnone]
    dsimp only
    split_ifs with hescaped
    · exact quotedBytes_octal hb
    · have hquote : b ≠ 34 := fun h => hletter (h ▸ by decide)
      have hslash : b ≠ 92 := fun h => hletter (h ▸ by decide)
      have hascii : b < 128 := by
        simp at hescaped
        omega
      rw [List.singleton_append, quotedBytes.eq_def]
      dsimp only
      rw [if_neg (lt_irrefl 0), if_neg (by simpa using hquote),
        if_pos (by simpa using hslash), Str.utf8Char, if_pos hascii]
      rfl

/-- The bytes in quotes are read back up to the closing quote. -/
theorem quotedBytes_flatMap {bytes : List Nat} (hbytes : ∀ b ∈ bytes, b < 256) :
    quotedBytes 0 (bytes.flatMap gitQuotedByte ++ 34 :: rest) = .ok bytes := by
  induction bytes with
  | nil => rfl
  | cons b bytes ih =>
    rw [List.forall_mem_cons] at hbytes
    rw [List.flatMap_cons, List.append_assoc, quotedBytes_gitQuotedByte hbytes.1, ih hbytes.2]
    rfl

/-- The quoted form of a path decodes to the path, whatever follows it. -/
theorem decodeGitCPath_quoted (path : GitPath) (rest : Str) :
    decodeGitCPath (path.quoted ++ rest) = .ok path.text := by
  have hbytes := @quotedBytes_flatMap rest path.bytes fun b hb => (path.inRange b hb).2
  rw [GitPath.quoted, List.cons_append, List.append_assoc]
  change (quotedBytes 0 (path.bytes.flatMap gitQuotedByte ++ 34 :: rest)).map
    Str.decodeSurrogateEscape = _
  rw [hbytes]
  rfl

end Quoted

section Plain

/-- ASCII bytes are decoded as they are. -/
theorem utf8Scalar_ascii {b : Nat} {rest : List Nat} (hb : b < 128) :
    Str.utf8Scalar (b :: rest) = some (b, 1) := by
  have hrange : (decide (b ≤ 0x10FFFF) && !Str.isSurrogate b && Str.utf8Char b == [b]) = true := by
    rw [Str.utf8Char, if_pos hb]
    simp [Str.isSurrogate]
    omega
  unfold Str.utf8Scalar
  rcases rest with _ | ⟨c, _ | ⟨d, _ | ⟨e, rest⟩⟩⟩ <;>
    exact List.find?_cons_of_pos hrange

theorem decodeSurrogateEscape_ascii {bytes : List Nat} (h : ∀ b ∈ bytes, b < 128) :
    Str.decodeSurrogateEscape bytes = bytes := by
  unfold Str.decodeSurrogateEscape
  induction bytes with
  | nil => rfl
  | cons b bytes ih =>
    rw [List.forall_mem_cons] at h
    rw [Str.decodeFrom, if_neg (lt_irrefl 0), utf8Scalar_ascii h.1]
    exact congrArg (b :: ·) (ih h.2)

/-- A text without a separator is all of what comes before it. -/
theorem splitOnce_of_not_mem {text rest : Str} {sep : Nat} (h : sep ∉ text) :
    Str.splitOnce (text ++ sep :: rest) [sep] = (text, some rest) := by
  have hfind : Str.find [sep] (text ++ sep :: rest) = some text.length := by
    induction text with
    | nil => simp [Str.find]
    | cons c text ih =>
      rw [List.mem_cons, not_or] at h
      have hne : ¬[sep].isPrefixOf (c :: (text ++ sep :: rest)) = true := by
        simpa [List.isPrefixOf] using h.1
      rw [List.cons_append, Str.find, if_neg hne, ih h.2]
      rfl
  rw [Str.splitOnce, hfind]
  simp

theorem before_of_not_mem {text : Str} {sep : Nat} (h : sep ∉ text) :
    Str.before text [sep] = text := by
  have hfind : Str.find [sep] text = none := by
    induction text with
    | nil => simp [Str.find]
    | cons c text ih =>
      rw [List.mem_cons, not_or] at h
      have hne : ¬[sep].isPrefixOf (c :: text) = true := by
        simpa [List.isPrefixOf] using h.1
      rw [Str.find, if_neg hne, ih h.2]
      rfl
  rw [Str.before, Str.splitOnce, hfind]

variable {path : GitPath}

theorem GitPath.isPlain_iff : path.isPlain = true ↔ ∀ b ∈ path.bytes, isPlainByte b = true :=
  List.all_eq_true

theorem isPlainByte_iff {b : Nat} :
    isPlainByte b = true ↔ 32 ≤ b ∧ b < 127 ∧ b ≠ 34 ∧ b ≠ 92 := by
  simp [isPlainByte, and_assoc]

/-- Of the code points that Git does not quote, only the space is white space. -/
theorem isSpace_of_isPlainByte {b : Nat} (h : isPlainByte b = true) :
    Str.isSpace b = true ↔ b = 32 := by
  have hrange := isPlainByte_iff.mp h
  simp only [Str.isSpace]
  simp
  omega

/-- A path that Git does not quote is its bytes. -/
theorem GitPath.text_of_isPlain (h : path.isPlain = true) : path.text = path.bytes :=
  decodeSurrogateEscape_ascii fun b hb => by
    have hrange := isPlainByte_iff.mp (GitPath.isPlain_iff.mp h b hb)
    omega

/-- The form of a path without quotes decodes to what is left of the path without the spaces at its
end. -/
theorem decodeGitCPath_plain (h : path.isPlain = true) (more : Option Str) :
    decodeGitCPath (path.bytes ++ afterTab more) = .ok (Str.rstrip path.bytes) := by
  have htab : 9 ∉ path.bytes := fun hmem => by
    have hrange := isPlainByte_iff.mp (GitPath.isPlain_iff.mp h 9 hmem)
    omega
  have hbefore : Str.before (path.bytes ++ afterTab more) (lit "\t") = path.bytes := by
    rcases more with _ | more
    · rw [afterTab, List.append_nil]
      exact before_of_not_mem htab
    · exact congrArg Prod.fst (splitOnce_of_not_mem htab)
  obtain ⟨b, bytes, hbytes⟩ := List.exists_cons_of_ne_nil path.nonempty
  have hquote : b ≠ 34 := (isPlainByte_iff.mp (GitPath.isPlain_iff.mp h b (by simp [hbytes]))).2.2.1
  unfold decodeGitCPath
  split
  next quoted heq =>
    rw [hbytes, List.cons_append, List.cons.injEq] at heq
    exact absurd heq.1 hquote
  next => rw [hbefore]

/-- It is the path just when the path does not end in a space. -/
theorem decodeGitCPath_plain_iff (h : path.isPlain = true) (more : Option Str) :
    decodeGitCPath (path.bytes ++ afterTab more) = .ok path.text ↔
      path.bytes.getLast path.nonempty ≠ 32 := by
  rw [decodeGitCPath_plain h, GitPath.text_of_isPlain h, Except.ok.injEq, Str.rstrip, Str.rstripOf,
    List.rdropWhile_eq_self_iff]
  have hlast := GitPath.isPlain_iff.mp h _ (List.getLast_mem path.nonempty)
  constructor
  · intro hkept
    exact fun hspace => hkept path.nonempty ((isSpace_of_isPlainByte hlast).mpr hspace)
  · intro hne _ hspace
    exact hne ((isSpace_of_isPlainByte hlast).mp hspace)

end Plain

end OpenCollabEval
