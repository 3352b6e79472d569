import OpenCollabEval.Python.Sha256

/-!
# Environment of the evaluator

Beyond the interpreter's own tables, the evaluator relies on the patch library, on the Python parser
and on the text of one of its own functions, which it sends into the container.
-/

open Python

namespace OpenCollabEval

/-- What the modelled code takes from outside. -/
structure Env extends Runtime where
  /-- The called functions of a source line: `some (owner, name)` for `owner.name(…)` and
  `some ("", name)` for `name(…)`. `none` when the line does not parse. -/
  callFunctions : Str → Option (List (Option (Str × Str)))
  /-- The modules that the import statements of a source line name. `none` when the line does not
  parse. -/
  importedModules : Str → Option (List Str)
  /-- `split_patch_blocks`. -/
  splitPatchBlocks : Str → List (List Str)
  /-- `patch_block_target_path`. -/
  patchBlockTargetPath : List Str → Str
  /-- `normalize_patch_path`. -/
  normalizePatchPath : Str → Str
  /-- The source text of the function that instruments a Tutanota test suite. -/
  tutanotaPatcherSource : Str

/-- The interpreter on ASCII texts, for candidates without a patch. -/
def asciiEnv : Env where
  isPrintable c := 32 ≤ c && c ≤ 126
  isWord c := Str.isAsciiAlnum c || c == 95
  isControl c := c < 32 || c == 127
  lower s := s.map fun c => if 65 ≤ c && c ≤ 90 then c + 32 else c
  sha256 := Sha256.hexdigest
  sha256_ne_nil data := List.ne_nil_of_length_pos (by rw [Sha256.length_hexdigest]; decide)
  sha1 data := hexPadded 40 (Nat.ofDigits 256 data)
  callFunctions _ := some []
  importedModules _ := some []
  splitPatchBlocks _ := []
  patchBlockTargetPath _ := []
  normalizePatchPath path := path
  tutanotaPatcherSource := []

end OpenCollabEval
