import OpenCollabEval.Messaging.SentTargets

/-!
# The least number of sends

The targets of the sends are those of the events, and those of the receipts that a maximum pairing with
the events leaves over. Their number is therefore the least number of sends behind the two lists: it does
not depend on the order of either, and no further receipt or event makes it smaller.
-/

open Python

namespace OpenCollabEval

section Compatible

variable (env : MessageEnv) {receipts : List QueuedReceipt} {events : List Obj}

/-- Nothing in the receipt contradicts the event. -/
def SameSend (receipt : QueuedReceipt) (event : Obj) : Prop := sameSend env receipt event = .ok true

/-- The content of a call has no lone surrogates. -/
def QueuedReceipt.Encodable (receipt : QueuedReceipt) : Prop :=
  ∀ content, receipt.arguments.get "content" = .str content → content.any Str.isSurrogate = false

/-- The comparison of a receipt with an event. -/
def agrees (receipt : QueuedReceipt) (event : Obj) : Bool :=
  (sameSend env receipt event).toOption.getD false

variable {env}

theorem sameBytes_returns {receipt : QueuedReceipt} (h : receipt.Encodable) (event : Obj) :
    Returns (sameBytes receipt event) := by
  rw [sameBytes]
  split
  · exact returns_ok _
  · split
    next content hcontent =>
      rw [Str.encode, if_neg (by rw [h content hcontent]; exact Bool.false_ne_true)]
      exact returns_ok _
    next => exact returns_ok _

/-- A content without lone surrogates can be compared with every event. -/
theorem sameSend_eq_ok {receipt : QueuedReceipt} (h : receipt.Encodable) (event : Obj) :
    sameSend env receipt event = .ok (agrees env receipt event) := by
  obtain ⟨bytes, hbytes⟩ := sameBytes_returns h event
  have hreturns : Returns (sameSend env receipt event) := by
    rw [sameSend, hbytes]
    split_ifs
    · exact returns_ok _
    · cases bytes <;> exact returns_ok _
  obtain ⟨same, hsame⟩ := hreturns
  rw [agrees, hsame]
  rfl

theorem agrees_iff {receipt : QueuedReceipt} (h : receipt.Encodable) (event : Obj) :
    agrees env receipt event = true ↔ SameSend env receipt event := by
  rw [SameSend, sameSend_eq_ok h, Except.ok.injEq]

/-- The receipts that an event can be matched with. -/
theorem compatible_eq_ok (h : ∀ receipt ∈ receipts, receipt.Encodable) (event : Obj) :
    compatible env receipts event = .ok ((receipts.map (agrees env · event)).zipIdx.filterMap fun item =>
      if item.1 then some item.2 else none) := by
  rw [compatible, mapM_eq_ok_map fun receipt hreceipt => sameSend_eq_ok (h receipt hreceipt) event]
  rfl

/-- Their positions. -/
theorem mem_compatible (h : ∀ receipt ∈ receipts, receipt.Encodable) (event : Obj) (position : Nat) :
    position ∈ ((receipts.map (agrees env · event)).zipIdx.filterMap fun item =>
        if item.1 then some item.2 else none) ↔
      ∃ receipt, receipts[position]? = some receipt ∧ SameSend env receipt event := by
  simp only [List.mem_filterMap, Prod.exists, List.mem_zipIdx_iff_getElem?, List.getElem?_map,
    Option.map_eq_some_iff, Option.ite_none_right_eq_some, Option.some.injEq]
  constructor
  · rintro ⟨same, index, ⟨receipt, hreceipt, rfl⟩, hsame, rfl⟩
    exact ⟨receipt, hreceipt, (agrees_iff (h receipt (List.mem_of_getElem? hreceipt)) event).mp hsame⟩
  · rintro ⟨receipt, hreceipt, hsame⟩
    exact ⟨_, position, ⟨receipt, hreceipt, rfl⟩,
      (agrees_iff (h receipt (List.mem_of_getElem? hreceipt)) event).mpr hsame, rfl⟩

/-- The comparisons that the matching works on. -/
theorem compatible_adjacent (env : MessageEnv) (h : ∀ receipt ∈ receipts, receipt.Encodable) (ordered : List Obj) :
    ∃ rows, ordered.mapM (compatible env receipts) = .ok rows ∧
      AdjacentItems (SameSend env) receipts ordered (fun event => rows.getD event []) := by
  refine ⟨_, mapM_eq_ok_map fun event _ => compatible_eq_ok h event, fun left right => ?_⟩
  dsimp only
  rw [List.getD_eq_getElem?_getD, List.getElem?_map]
  cases hevent : ordered[left]? with
  | none => simp
  | some event =>
    rw [Option.map_some, Option.getD_some, mem_compatible h]
    constructor
    · rintro ⟨receipt, hreceipt, hsame⟩
      exact ⟨receipt, event, hreceipt, rfl, hsame⟩
    · rintro ⟨receipt, other, hreceipt, hother, hsame⟩
      obtain rfl := Option.some.inj hother
      exact ⟨receipt, hreceipt, hsame⟩

end Compatible

section Floor

variable {env : MessageEnv} {receipts receipts' : List QueuedReceipt} {events events' : List Obj}
  {limit : Nat}

theorem perm_orderedEvents (events : List Obj) :
    (orderedEvents env events).Perm (withTarget env events) := List.perm_insertionSort _ _

/-- Every event that has a target counts. -/
theorem length_targets (events : List Obj) :
    (events.filterMap (eventTarget env)).length = (withTarget env events).length := by
  induction events with
  | nil => rfl
  | cons event rest ih =>
    rw [withTarget] at ih ⊢
    cases h : eventTarget env event with
    | none => simp [h, ih]
    | some target => simp [h, ih]

/-- What `sent_targets` returns: the targets of the events, and those of the receipts that a maximum
pairing leaves over. -/
structure SentBy (env : MessageEnv) (receipts : List QueuedReceipt) (events : List Obj)
    (targets : List Str) (pairs : List (QueuedReceipt × Obj)) (rest : List QueuedReceipt) : Prop where
  targets_eq : targets = events.filterMap (eventTarget env) ++ rest.map QueuedReceipt.target
  rest_sublist : rest.Sublist receipts
  receipts_perm : receipts.Perm (pairs.map Prod.fst ++ rest)
  maximum : IsMaximumPairing (SameSend env) receipts (withTarget env events) pairs

/-- The searches end, and what they match is a maximum pairing. -/
theorem sentTargets_sentBy (env : MessageEnv) (hlimit : events.length < limit)
    (hreceipts : ∀ receipt ∈ receipts, receipt.Encodable) :
    ∃ targets pairs rest, sentTargets env limit receipts events = .ok (some targets) ∧
      SentBy env receipts events targets pairs rest := by
  obtain ⟨rows, hrows, hadj⟩ := compatible_adjacent env hreceipts (orderedEvents env events)
  have hle : (orderedEvents env events).length ≤ events.length :=
    (perm_orderedEvents events).length_eq.trans_le (List.length_filter_le ..)
  have hwithin : ∀ left right, right ∈ (fun event => rows.getD event []) left →
      right ∈ Finset.range receipts.length := by
    intro left right hright
    obtain ⟨receipt, event, hreceipt, -⟩ := (hadj left right).mp hright
    exact Finset.mem_range.mpr (List.getElem?_eq_some_iff.mp hreceipt).1
  have hrounds : (List.range (orderedEvents env events).length).length < limit := by
    rw [List.length_range]
    omega
  obtain ⟨matched, hmatched, hmax⟩ := matchAll_isMaximum List.nodup_range hwithin hrounds
  refine ⟨_, pairsOf matched receipts (orderedEvents env events), leftOver matched receipts, ?_,
    rfl, ?_, perm_pairsOf_leftOver hmax.toIsMatching, ?_⟩
  · rw [sentTargets, hrows]
    change Except.ok (Option.map _ (matchAll _ _ _)) = _
    rw [hmatched]
    rfl
  · have hsublist : (leftOver matched receipts).Sublist (receipts.zipIdx.map Prod.fst) :=
      List.filter_sublist.map Prod.fst
    rwa [List.zipIdx_map_fst] at hsublist
  · exact (isMaximumPairing_pairsOf hadj hmax).perm (.refl _) (perm_orderedEvents events)

/-- The number of sends. -/
theorem SentBy.length_eq {targets : List Str} {pairs : List (QueuedReceipt × Obj)}
    {rest : List QueuedReceipt} (h : SentBy env receipts events targets pairs rest) :
    targets.length + pairs.length = (withTarget env events).length + receipts.length := by
  have hperm := h.receipts_perm.length_eq
  rw [List.length_append, List.length_map] at hperm
  rw [h.targets_eq, List.length_append, List.length_map, length_targets]
  omega

/-- Further receipts and events do not make the number smaller. -/
theorem SentBy.length_mono {targets targets' : List Str} {pairs pairs' : List (QueuedReceipt × Obj)}
    {rest rest' : List QueuedReceipt} (h : SentBy env receipts events targets pairs rest)
    (h' : SentBy env receipts' events' targets' pairs' rest') (hreceipts : receipts.Subperm receipts')
    (hevents : events.Subperm events') : targets.length ≤ targets'.length := by
  have hle := h.maximum.length_le_add h'.maximum hreceipts (hevents.filter _)
  have hlength := h.length_eq
  have hlength' := h'.length_eq
  omega

/-- `sent_targets` counts the least number of sends: it returns the targets of the events and of the
receipts that a maximum pairing leaves over, and neither the order of the lists nor more items in them make
the number of sends smaller. -/
theorem sentTargets_floor (env : MessageEnv) (hlimit : events.length < limit)
    (hreceipts : ∀ receipt ∈ receipts, receipt.Encodable) :
    ∃ targets pairs rest, sentTargets env limit receipts events = .ok (some targets) ∧
      SentBy env receipts events targets pairs rest ∧
      targets.length = (withTarget env events).length + receipts.length - pairs.length ∧
      (∀ receipts' events', receipts'.Perm receipts → events'.Perm events →
        ∃ targets', sentTargets env limit receipts' events' = .ok (some targets') ∧
          targets'.length = targets.length) ∧
      ∀ receipts' events', receipts'.Subperm receipts → events'.Subperm events →
        ∃ targets', sentTargets env limit receipts' events' = .ok (some targets') ∧
          targets'.length ≤ targets.length := by
  obtain ⟨targets, pairs, rest, hsent, hby⟩ := sentTargets_sentBy env hlimit hreceipts
  have hlength := hby.length_eq
  refine ⟨targets, pairs, rest, hsent, hby, by omega, ?_, ?_⟩
  · intro receipts' events' hperm hperm'
    obtain ⟨targets', pairs', rest', hsent', hby'⟩ := sentTargets_sentBy env
      (hperm'.length_eq.trans_lt hlimit) fun receipt hmem => hreceipts receipt (hperm.mem_iff.mp hmem)
    exact ⟨targets', hsent', le_antisymm (hby'.length_mono hby hperm.subperm hperm'.subperm)
      (hby.length_mono hby' hperm.symm.subperm hperm'.symm.subperm)⟩
  · intro receipts' events' hsub hsub'
    obtain ⟨targets', pairs', rest', hsent', hby'⟩ := sentTargets_sentBy env
      (hsub'.length_le.trans_lt hlimit) fun receipt hmem => hreceipts receipt (hsub.subset hmem)
    exact ⟨targets', hsent', hby'.length_mono hby hsub hsub'⟩

/-- The Unicode tables on ASCII texts. -/
def asciiMessageEnv : MessageEnv where
  toRuntime := asciiEnv.toRuntime
  nfc := id
  casefold := asciiEnv.lower

/-- A call to the coder. -/
def queuedForCoder (content callId : String) : QueuedReceipt where
  aid := 1
  target := "role:coder"
  arguments := Obj.of [("to_role", "coder"), ("content", content)]
  toolCallId := callId

/-- Three calls to the coder. -/
def coderCalls : List QueuedReceipt :=
  [queuedForCoder "plan" "a", queuedForCoder "test" "b", queuedForCoder "fix" "c"]

/-- A decision that names only the recipient, and the decision on the second call. -/
def coderDecisions : List Obj :=
  [Obj.of [("to_role", "Coder"), ("to_aid", .int 1)],
    Obj.of [("to_role", "coder"), ("tool_call_id", "b"), ("content_bytes", .int 4)]]

theorem coderCalls_encodable : ∀ receipt ∈ coderCalls, receipt.Encodable := by
  have hcall : ∀ content callId, (lit content).any Str.isSurrogate = false →
      (queuedForCoder content callId).Encodable := by
    intro content callId hclean text htext
    obtain rfl : lit content = text := by simpa [queuedForCoder] using htext
    exact hclean
  rintro receipt hreceipt
  obtain rfl | rfl | rfl : receipt = queuedForCoder "plan" "a" ∨
      receipt = queuedForCoder "test" "b" ∨ receipt = queuedForCoder "fix" "c" := by
    simpa [coderCalls] using hreceipt
  all_goals exact hcall _ _ (by decide)

theorem sentTargets_floor_sample :
    ∃ targets pairs rest, sentTargets asciiMessageEnv 3 coderCalls coderDecisions = .ok (some targets) ∧
      SentBy asciiMessageEnv coderCalls coderDecisions targets pairs rest := by
  have hlimit : coderDecisions.length < 3 := by decide
  obtain ⟨targets, pairs, rest, hsent, hby, -⟩ :=
    sentTargets_floor asciiMessageEnv hlimit coderCalls_encodable
  exact ⟨targets, pairs, rest, hsent, hby⟩

/-- Both decisions are on calls, so that there were three sends. -/
example : sentTargets asciiMessageEnv 3 coderCalls coderDecisions =
    .ok (some ["role:coder", "role:coder", "role:coder"]) := by
  decide +kernel

end Floor

end OpenCollabEval
