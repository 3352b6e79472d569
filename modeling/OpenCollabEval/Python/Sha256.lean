import Mathlib.Data.Nat.Digits.Lemmas
import OpenCollabEval.Python.Runtime

/-!
# SHA-256

The digest function of `hashlib.sha256` on byte lists.
-/

namespace Python.Sha256

/-- Rotation of a 32-bit word to the right. -/
def rotr (n x : Nat) : Nat := (x >>> n ||| x <<< (32 - n)) % 2 ^ 32

/-- The round constants. -/
def constants : List Nat :=
  [0x428a2f98, 0x71374491, 0xb5c0fbcf, 0xe9b5dba5, 0x3956c25b, 0x59f111f1, 0x923f82a4, 0xab1c5ed5,
    0xd807aa98, 0x12835b01, 0x243185be, 0x550c7dc3, 0x72be5d74, 0x80deb1fe, 0x9bdc06a7, 0xc19bf174,
    0xe49b69c1, 0xefbe4786, 0x0fc19dc6, 0x240ca1cc, 0x2de92c6f, 0x4a7484aa, 0x5cb0a9dc, 0x76f988da,
    0x983e5152, 0xa831c66d, 0xb00327c8, 0xbf597fc7, 0xc6e00bf3, 0xd5a79147, 0x06ca6351, 0x14292967,
    0x27b70a85, 0x2e1b2138, 0x4d2c6dfc, 0x53380d13, 0x650a7354, 0x766a0abb, 0x81c2c92e, 0x92722c85,
    0xa2bfe8a1, 0xa81a664b, 0xc24b8b70, 0xc76c51a3, 0xd192e819, 0xd6990624, 0xf40e3585, 0x106aa070,
    0x19a4c116, 0x1e376c08, 0x2748774c, 0x34b0bcb5, 0x391c0cb3, 0x4ed8aa4a, 0x5b9cca4f, 0x682e6ff3,
    0x748f82ee, 0x78a5636f, 0x84c87814, 0x8cc70208, 0x90befffa, 0xa4506ceb, 0xbef9a3f7, 0xc67178f2]

/-- The eight words of the running digest. -/
structure Words where
  a : Nat
  b : Nat
  c : Nat
  d : Nat
  e : Nat
  f : Nat
  g : Nat
  h : Nat

/-- The words before the first block. -/
def Words.initial : Words :=
  ⟨0x6a09e667, 0xbb67ae85, 0x3c6ef372, 0xa54ff53a, 0x510e527f, 0x9b05688c, 0x1f83d9ab, 0x5be0cd19⟩

/-- Addition of words, each modulo `2 ^ 32`. -/
def Words.add (s t : Words) : Words :=
  ⟨(s.a + t.a) % 2 ^ 32, (s.b + t.b) % 2 ^ 32, (s.c + t.c) % 2 ^ 32, (s.d + t.d) % 2 ^ 32,
    (s.e + t.e) % 2 ^ 32, (s.f + t.f) % 2 ^ 32, (s.g + t.g) % 2 ^ 32, (s.h + t.h) % 2 ^ 32⟩

/-- The words in order. -/
def Words.toList (s : Words) : List Nat := [s.a, s.b, s.c, s.d, s.e, s.f, s.g, s.h]

/-- The bytes of a 64-bit number, most significant first. -/
def bytes64 (n : Nat) : List Nat :=
  [n >>> 56, n >>> 48, n >>> 40, n >>> 32, n >>> 24, n >>> 16, n >>> 8, n].map (· % 256)

/-- The message filled up to a whole number of blocks. -/
def pad (data : List Nat) : List Nat :=
  data ++ 0x80 :: List.replicate ((119 - data.length % 64) % 64) 0 ++ bytes64 (8 * data.length)

/-- The 32-bit words of some bytes. -/
def toWords : List Nat → List Nat
  | a :: b :: c :: d :: rest => (a <<< 24 + b <<< 16 + c <<< 8 + d) :: toWords rest
  | _ => []

/-- Prepend further words to a schedule that is listed from its last word to its first. -/
def extend : Nat → List Nat → List Nat
  | 0, ws => ws
  | n + 1, ws =>
    let w15 := ws.getD 14 0
    let w2 := ws.getD 1 0
    let s0 := (rotr 7 w15 ^^^ rotr 18 w15) ^^^ w15 >>> 3
    let s1 := (rotr 17 w2 ^^^ rotr 19 w2) ^^^ w2 >>> 10
    extend n (((ws.getD 15 0 + s0 + ws.getD 6 0 + s1) % 2 ^ 32) :: ws)

/-- One round, with its constant and its word of the schedule. -/
def round (s : Words) (input : Nat × Nat) : Words :=
  let s1 := (rotr 6 s.e ^^^ rotr 11 s.e) ^^^ rotr 25 s.e
  let choice := (s.e &&& s.f) ^^^ ((2 ^ 32 - 1 - s.e) &&& s.g)
  let t1 := s.h + s1 + choice + input.1 + input.2
  let s0 := (rotr 2 s.a ^^^ rotr 13 s.a) ^^^ rotr 22 s.a
  let majority := ((s.a &&& s.b) ^^^ (s.a &&& s.c)) ^^^ (s.b &&& s.c)
  ⟨(t1 + s0 + majority) % 2 ^ 32, s.a, s.b, s.c, (s.d + t1) % 2 ^ 32, s.e, s.f, s.g⟩

/-- One block of sixteen words. -/
def block (s : Words) (words : List Nat) : Words :=
  s.add ((constants.zip (extend 48 words.reverse).reverse).foldl round s)

/-- The blocks of some words, at most `n` of them. -/
def blocks : Nat → List Nat → List (List Nat)
  | 0, _ => []
  | n + 1, words => words.take 16 :: blocks n (words.drop 16)

/-- The words of the digest. -/
def digestWords (data : List Nat) : Words :=
  (blocks (data.length / 64 + (if data.length % 64 < 56 then 1 else 2)) (toWords (pad data))).foldl
    block .initial

/-- `hashlib.sha256(data).hexdigest()`. -/
def hexdigest (data : List Nat) : Str := (digestWords data).toList.flatMap (hexPadded 8)

example : hexdigest (lit "abc") =
    lit "ba7816bf8f01cfea414140de5dae2223b00361a396177a9cb410ff61f20015ad" := by decide +kernel

/-- Every word of a running digest has 32 bits. -/
def Words.Bounded (s : Words) : Prop := ∀ word ∈ s.toList, word < 2 ^ 32

theorem Words.bounded_add (s t : Words) : (s.add t).Bounded := by
  simp only [Bounded, toList, add, List.forall_mem_cons, List.not_mem_nil, false_implies,
    implies_true, and_true]
  refine ⟨?_, ?_, ?_, ?_, ?_, ?_, ?_, ?_⟩ <;> exact Nat.mod_lt _ (by decide)

/-- The words of every digest have 32 bits: the initial ones do, and so do those after a block. -/
theorem bounded_digestWords (data : List Nat) : (digestWords data).Bounded := by
  have hfold (rest : List (List Nat)) (s : Words) (hs : s.Bounded) :
      (rest.foldl block s).Bounded := by
    induction rest generalizing s with
    | nil => exact hs
    | cons words rest ih => exact ih (block s words) (Words.bounded_add _ _)
  exact hfold _ _ (by unfold Words.Bounded; decide)

/-- A 32-bit word has eight hexadecimal digits. -/
theorem length_hexPadded_word {word : Nat} (h : word < 2 ^ 32) : (hexPadded 8 word).length = 8 := by
  have hdigits : (Nat.digits 16 word).length ≤ 8 :=
    (Nat.digits_length_le_iff (by decide) word).mpr (by simpa using h)
  simp only [hexPadded, List.length_reverse, List.length_append, List.length_map,
    List.length_replicate]
  omega

/-- A digest has 64 digits. -/
theorem length_hexdigest (data : List Nat) : (hexdigest data).length = 64 := by
  have hwords := bounded_digestWords data
  simp only [Words.Bounded, Words.toList, List.forall_mem_cons, List.not_mem_nil] at hwords
  obtain ⟨ha, hb, hc, hd, he, hf, hg, hh, -⟩ := hwords
  simp only [hexdigest, Words.toList, List.flatMap_cons, List.flatMap_nil, List.length_append,
    List.length_nil, length_hexPadded_word ha, length_hexPadded_word hb, length_hexPadded_word hc,
    length_hexPadded_word hd, length_hexPadded_word he, length_hexPadded_word hf,
    length_hexPadded_word hg, length_hexPadded_word hh]

/-- Padded hexadecimal text has hexadecimal digits only. -/
theorem mem_hexPadded {width n c : Nat} (h : c ∈ hexPadded width n) :
    (48 ≤ c ∧ c ≤ 57) ∨ (97 ≤ c ∧ c ≤ 102) := by
  simp only [hexPadded, List.mem_reverse, List.mem_append, List.mem_map, List.mem_replicate] at h
  rcases h with ⟨digit, hdigit, rfl⟩ | ⟨-, rfl⟩
  · have hlt := Nat.digits_lt_base (by decide) hdigit
    simp only [hexDigit]
    split <;> omega
  · omega

/-- A digest has hexadecimal digits only. -/
theorem mem_hexdigest {data : List Nat} {c : Nat} (h : c ∈ hexdigest data) :
    (48 ≤ c ∧ c ≤ 57) ∨ (97 ≤ c ∧ c ≤ 102) := by
  obtain ⟨word, -, hc⟩ := List.mem_flatMap.mp h
  exact mem_hexPadded hc

end Python.Sha256
