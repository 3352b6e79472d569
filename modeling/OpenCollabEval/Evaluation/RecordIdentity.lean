import OpenCollabEval.Env

/-!
# Record identity

Digests and identity fields of persisted evaluation records. A digest is compared without regard to
hexadecimal case, and a field that has several names must not carry two values.
-/

open Python

namespace OpenCollabEval

/-- `[0-9a-f]`. -/
def isLowerHex (c : Nat) : Bool := Str.isDigit c || (97 ≤ c && c ≤ 102)

/-- `[0-9a-fA-F]`. -/
def isHex (c : Nat) : Bool := isLowerHex c || (65 ≤ c && c ≤ 70)

/-- `[0-9a-f]{64}`, matched in full. -/
def isLowerSha256 (s : Str) : Bool := s.length == 64 && s.all isLowerHex

/-- The digests of the interpreter are well formed. -/
theorem isLowerSha256_hexdigest (data : List Nat) :
    isLowerSha256 (Sha256.hexdigest data) = true := by
  simp only [isLowerSha256, Sha256.length_hexdigest, beq_self_eq_true, Bool.true_and,
    List.all_eq_true]
  intro c hc
  have hrange := Sha256.mem_hexdigest hc
  simp only [isLowerHex, Str.isDigit, Bool.or_eq_true, Bool.and_eq_true, decide_eq_true_iff]
  exact hrange

/-- `[0-9a-fA-F]{64}`, matched in full. -/
def isSha256 (s : Str) : Bool := s.length == 64 && s.all isHex

theorem isSha256_of_isLowerSha256 {s : Str} (h : isLowerSha256 s = true) : isSha256 s = true := by
  simp only [isLowerSha256, isSha256, Bool.and_eq_true, List.all_eq_true] at h ⊢
  exact ⟨h.1, fun c hc => by simp [isHex, h.2 c hc]⟩

/-- `s.lower()` of a hexadecimal text. -/
def lowerHex (s : Str) : Str := s.map fun c => if 65 ≤ c && c ≤ 70 then c + 32 else c

/-- A strict, lower-case digest, `none` for anything else. -/
def canonicalSha256 (value : Json) : Option Str :=
  match value with
  | .str s => if isSha256 s then some (lowerHex s) else none
  | _ => none

/-- Two strict digests are equal up to hexadecimal case. -/
def sha256Equal (left right : Json) : Bool :=
  (canonicalSha256 left).isSome && canonicalSha256 left == canonicalSha256 right

/-- `value in (None, "")`. -/
def isAbsent : Json → Bool
  | .null => true
  | .str s => s.isEmpty
  | _ => false

/-- The values of some fields that are present, `none` when one of them is no string. -/
def presentValues (payload : Obj) : List Str → Option (List Str)
  | [] => some []
  | field :: fields =>
    let value := payload.get field
    if isAbsent value then presentValues payload fields
    else
      match value.asStr with
      | some s => (presentValues payload fields).map (s :: ·)
      | none => none

/-- The value that all of a list share, empty for an empty list. -/
def sharedValue (values : List Str) : Option Str :=
  match values with
  | [] => some []
  | first :: rest => if rest.all (· == first) then some first else none

/-- The value that the aliases of a field share, `none` on conflict. -/
def directPayloadAliasValue (payload : Json) (fields : List Str) : Option Str :=
  match payload with
  | .dict payload => (presentValues payload fields).bind sharedValue
  | _ => none

/-- `solver-[0-9a-f]{32}`, matched in full. -/
def isSolverId (s : Str) : Bool :=
  s.startsWith "solver-" && (s.drop 7).length == 32 && (s.drop 7).all isLowerHex

/-- The task that the aliases name; an anonymous solver id gives way to a benchmark instance id. -/
def taskIdentityAliasValue (payload : Json) (fields : List Str) : Option Str :=
  let anonymous := match payload with
    | .dict entries =>
      (match (Obj.get entries "instance_id").asStr with
        | some instanceId => !instanceId.isEmpty && !isSolverId instanceId
        | none => false) &&
      match (Obj.get entries "task_id").asStr with
        | some taskId => isSolverId taskId
        | none => false
    | _ => false
  directPayloadAliasValue payload (if anonymous then fields.filter (· != lit "task_id") else fields)

/-- The task that a direct-evaluation payload names. -/
def directPayloadTaskId (payload : Json) : Option Str :=
  taskIdentityAliasValue payload ["task", "instance_id", "task_id"]

/-- The public patch digest of a payload. Digests are compared in lower case; malformed text is kept
so that the proof can reject it. -/
def directPayloadPatchSha (payload : Json) : Option Str :=
  match payload with
  | .dict entries =>
    ((presentValues entries ["patch_sha256", "patch_sha", "model_patch_sha256"]).map
      (·.map fun s => (canonicalSha256 (.str s)).getD s)).bind sharedValue
  | _ => none

/-- `strict_integer`. -/
def strictInteger : Json → Option Int
  | .int n => some n
  | .str s =>
    let text := s.strip
    let digits := Str.removePrefix text "-"
    -- `int` refuses longer texts
    if digits.isEmpty || !digits.all Str.isDigit || 4300 < digits.length then none
    else some (if text.startsWith "-" then -(digitsValue digits : Int) else digitsValue digits)
  | _ => none

end OpenCollabEval
