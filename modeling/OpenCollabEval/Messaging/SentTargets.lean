import OpenCollabEval.Env
import OpenCollabEval.Python.Pattern
import OpenCollabEval.Order.AugmentingSearch
import OpenCollabEval.Order.Pairing
import Mathlib.Data.Prod.Lex
import Mathlib.Data.List.Sort

/-!
# Targets of the messages that were sent

A seat's transcript has receipts of queued messages, and the event log has the scheduler's decisions.
One send may have left both. A receipt and an event that do not contradict each other are counted as one
send, in a one-to-one matching that overlaps as much as possible; what remains is the least number of
sends that explains both.
-/

open Python

namespace OpenCollabEval

/-- The interpreter with the Unicode tables that role names are compared with. -/
structure MessageEnv extends Runtime where
  /-- `unicodedata.normalize("NFC", s)`. -/
  nfc : Str → Str
  /-- `s.casefold()`. -/
  casefold : Str → Str

/-- A successful queue receipt, with the call that produced it. -/
structure QueuedReceipt where
  aid : Int
  target : Str
  arguments : Obj
  toolCallId : Str := []

section SameSend

variable (env : MessageEnv) (receipt : QueuedReceipt) (event : Obj)

/-- `role_key`. -/
def roleKey (role : Str) : Str := env.casefold (env.nfc role.strip)

/-- The target by the resolved agent id. -/
def aidTarget (event : Obj) : Option Str :=
  (event.get "to_aid").asInt.map fun aid => lit "aid:" ++ intStr aid

/-- `event_target`: the resolved role, and the agent id where there is none. -/
def eventTarget : Option Str :=
  match event.get "to_role" with
  | .str role => if role.isEmpty then aidTarget event else some (lit "role:" ++ roleKey env role)
  | _ => aidTarget event

/-- The recipient of the receipt is the one of the event. -/
def sameRecipient : Bool :=
  match (event.get "to_aid").asInt with
  | some aid => receipt.aid == aid
  | none => eventTarget env event == some receipt.target

/-- The event names no other tool call. -/
def sameCall : Bool :=
  match event.get "tool_call_id" with
  | .str callId => callId.isEmpty || callId == receipt.toolCallId
  | _ => true

/-- The event has no other content. -/
def sameContent : Bool :=
  match event.get "content" with
  | .str content => (receipt.arguments.get "content").eqStr content
  | _ => true

/-- The event has no other length of one of the texts. -/
def sameLength (name : String) : Bool :=
  match event.get (lit name ++ lit "_chars") with
  | .null => true
  | length =>
    match receipt.arguments.get name with
    | .str value => length.eqInt value.length
    | _ => false

/-- The summary of the event begins the one that was asked for. -/
def sameSummary : Bool :=
  match event.get "summary" with
  | .str summary =>
    match receipt.arguments.get "summary" with
    | .str requested => requested.startsWith summary
    | _ => false
  | _ => true

/-- The event has no other number of bytes. -/
def sameBytes : Except PyErr Bool :=
  match event.get "content_bytes" with
  | .null => return true
  | bytes =>
    match receipt.arguments.get "content" with
    | .str content => do
      let encoded ← content.encode
      return bytes.eqInt encoded.length
    | _ => return false

/-- `p{least,most}`, for `most = least + more`. -/
def repeated (p : Pattern) : Nat → Nat → Pattern
  | 0, 0 => .empty
  | 0, more + 1 => .opt (.seq p (repeated p 0 more))
  | least + 1, more => .seq p (repeated p least more)

/-- `_COMMIT_REF`: seven to forty hexadecimal digits, with no letter or digit around them. -/
def commitRef : Pattern :=
  .concat [.look fun previous _ => !previous.any Str.isAsciiAlnum,
    .group 0 (repeated (.chars fun c => Str.isDigit c || (97 ≤ c && c ≤ 102)) 7 33),
    .look fun _ rest => !rest.head?.any Str.isAsciiAlnum]

/-- The commits that the texts of a call refer to, each once. -/
def requestedRefs (arguments : Obj) : List Str :=
  (["summary", "content"].flatMap fun name =>
    (commitRef.finditer (env.strOrEmpty (arguments.get (lit name)))).map (·.group 0)).eraseDups

/-- The event refers to no other commits. -/
def sameRefs : Bool :=
  match event.get "commit_refs" with
  | .list items =>
    match Json.asStrs items with
    | some refs =>
      (requestedRefs env receipt.arguments).take refs.length == refs &&
        (event.get "commit_refs_found").asInt.all fun found =>
          ((requestedRefs env receipt.arguments).length : Int) == found
    | none => true
  | _ => true

/-- `_same_send`: nothing in the receipt contradicts the event. -/
def sameSend : Except PyErr Bool := do
  if !(sameRecipient env receipt event && sameCall receipt event && sameContent receipt event &&
      sameLength receipt event "summary" && sameLength receipt event "content" &&
      sameSummary receipt event) then return false
  if !(← sameBytes receipt event) then return false
  return sameRefs env receipt event

end SameSend

section SentTargets

variable (env : MessageEnv)

/-- How much an event says: whether it names the call, whether it has the content, and the number of
the other fields that it has. -/
def detail (event : Obj) : Bool ×ₗ Bool ×ₗ Nat :=
  toLex ((event.get "tool_call_id").truthy, toLex ((event.get "content").asStr.isSome,
    (["summary", "summary_chars", "content_chars", "content_bytes", "commit_refs",
      "commit_refs_found"].filter fun key => !(event.get (lit key) matches .null)).length))

/-- The events that have a target. -/
def withTarget (events : List Obj) : List Obj := events.filter fun event => (eventTarget env event).isSome

/-- The events that have a target, the most detailed first. -/
def orderedEvents (events : List Obj) : List Obj :=
  (withTarget env events).insertionSort (detail · ≥ detail ·)

/-- The positions of the receipts that an event can be matched with. -/
def compatible (receipts : List QueuedReceipt) (event : Obj) : Except PyErr (List Nat) := do
  let same ← receipts.mapM fun receipt => sameSend env receipt event
  return same.zipIdx.filterMap fun item => if item.1 then some item.2 else none

/-- `sent_targets`, with at most `limit` rounds of each inner loop. -/
def sentTargets (limit : Nat) (receipts : List QueuedReceipt) (events : List Obj) :
    Except PyErr (Option (List Str)) := do
  let compatible ← (orderedEvents env events).mapM (compatible env receipts)
  let matched := matchAll (fun event => compatible.getD event []) limit
    (List.range (orderedEvents env events).length)
  return matched.map fun matched =>
    events.filterMap (eventTarget env) ++ (leftOver matched receipts).map QueuedReceipt.target

end SentTargets

end OpenCollabEval
