import OpenCollabEval.Quarantine.Marker

/-!
# The quarantine of a report

`quarantine_report` call by call and operation by operation, beside a writer that puts new reports
at the path. A call tries to rename the report, then to make a hard link and to retire the path, and
last to write a metadata marker. Every operation of a call may fail, and a report may be published
between any two of them.

The state keeps book of the reports that a call was made for and of those that a call took from the
path. The code has neither list.
-/

open Python

namespace OpenCollabEval

/-- A call of `quarantine_report`: the suffix, and the report that was found at the path. -/
structure QuarantineCall where
  suffix : Str
  identity : FileIdentity
  serial : Nat

/-- Where a call stands. -/
inductive QuarantinePhase where
  /-- No call was made, or the last one found no report. -/
  | idle
  | replacing (call : QuarantineCall)
  | linking (call : QuarantineCall) (ordinal : Nat)
  /-- The identity of the path is read. -/
  | comparing (call : QuarantineCall) (ordinal : Nat)
  /-- The identity of the link is read. -/
  | comparingLink (call : QuarantineCall) (ordinal : Nat) (current : Option FileIdentity)
  | discarding (call : QuarantineCall) (ordinal : Nat)
  | retiring (call : QuarantineCall) (ordinal : Nat)
  | marking (call : QuarantineCall) (ordinal : Nat)
  /-- An open marker, and what is left to be written to it; then it is synchronized. -/
  | writing (call : QuarantineCall) (ordinal : Nat) (inode : FileIdentity) (rest : List Nat)
  | removing (call : QuarantineCall) (ordinal : Nat)
  | closing (call : QuarantineCall) (ordinal : Nat) (created : Bool)
  | returned (call : QuarantineCall) (target : Option Str)
  | raised

/-- The call that is under way. -/
def QuarantinePhase.call : QuarantinePhase → Option QuarantineCall
  | .replacing call | .linking call _ | .comparing call _ | .comparingLink call _ _
  | .discarding call _ | .retiring call _ | .marking call _ | .writing call _ _ _
  | .removing call _ | .closing call _ _ => some call
  | .idle | .returned _ _ | .raised => none

/-- The directory of the report, the calls made so far, and the phase of the last one. -/
structure QuarantineState where
  directory : QuarantineDirectory
  /-- How many files there have been. -/
  serials : Nat
  phase : QuarantinePhase
  called : List Nat
  retired : List Nat

/-- What the file system does with an operation: it fails, or a new file gets an inode number, or so
many bytes are written. -/
structure FileAnswer where
  failed : Bool
  inode : FileIdentity
  amount : Nat

/-- What happens next. -/
inductive QuarantineAction where
  /-- A new report replaces what is at the path. -/
  | publish (inode : FileIdentity) (content : List Nat)
  | call (suffix : Str) (replaceFirst : Bool) (answer : FileAnswer)
  /-- The call that is under way does its next operation. -/
  | operate (answer : FileAnswer)

/-- The name of a marker. -/
def QuarantineCall.marker (call : QuarantineCall) (name : Str) (ordinal : Nat) : Str :=
  name ++ markerTag call.suffix ordinal

/-- The next attempt at a hard link, after the last one a metadata marker. -/
def QuarantineCall.linkAt (call : QuarantineCall) (ordinal : Nat) : QuarantinePhase :=
  if ordinal < 100 then .linking call ordinal else .marking call 0

/-- The next attempt at a metadata marker. -/
def QuarantineCall.markAt (call : QuarantineCall) (ordinal : Nat) : QuarantinePhase :=
  if ordinal < 100 then .marking call ordinal else .returned call none

namespace QuarantineState

variable (s : QuarantineState)

/-- The call goes on. -/
def enter (phase : QuarantinePhase) : QuarantineState := { s with phase }

/-- The call goes on with a changed directory. -/
def proceed (directory : QuarantineDirectory) (phase : QuarantinePhase) : QuarantineState :=
  { s with directory, phase }

/-- The call goes on after the path was taken away. -/
def retire (name : Str) (directory : QuarantineDirectory) (phase : QuarantinePhase) :
    QuarantineState :=
  { s with
    directory
    phase
    retired :=
      match s.directory.lookup name, directory.lookup name with
      | some identity, none => (s.directory.inodes identity).serial :: s.retired
      | _, _ => s.retired }

/-- A report is published: a new file gets the name of the report. -/
def publish (name : Str) (inode : FileIdentity) (content : List Nat) : QuarantineState :=
  { s with
    directory := (s.directory.setInode inode ⟨s.serials, .regular, content⟩).put name inode
    serials := s.serials + 1 }

/-- `quarantine_report` up to its first operation. -/
def start (name suffix : Str) (replaceFirst : Bool) (answer : FileAnswer) : QuarantineState :=
  if quarantineSuffixes.contains suffix then
    match if answer.failed then none else regularIdentity s.directory name with
    | none => s.enter .idle
    | some identity =>
      let serial := (s.directory.inodes identity).serial
      let call : QuarantineCall := ⟨suffix, identity, serial⟩
      { s with
        phase := if replaceFirst then .replacing call else .linking call 0
        called := serial :: s.called }
  else s.enter .raised

/-- The file system does what it is asked to, unless it fails. -/
def attempt {α : Type} (answer : FileAnswer) (result : Option α) : Option α :=
  if answer.failed then none else result

/-- The next operation of the call that is under way. -/
def operate (name : Str) (answer : FileAnswer) : Option QuarantineState :=
  match s.phase with
  | .idle | .returned _ _ | .raised => none
  | .replacing call =>
    match attempt answer (s.directory.rename name (name ++ call.suffix)) with
    | some directory => some (s.retire name directory (.returned call (some (name ++ call.suffix))))
    | none => some (s.enter (.linking call 0))
  | .linking call ordinal =>
    if answer.failed then some (s.enter (.marking call 0))
    else
      match s.directory.link name (call.marker name ordinal) with
      | .ok directory => some (s.proceed directory (.comparing call ordinal))
      | .error .fileExists => some (s.enter (call.linkAt (ordinal + 1)))
      | .error .other => some (s.enter (.marking call 0))
  | .comparing call ordinal =>
    some (s.enter (.comparingLink call ordinal
      (attempt answer (regularIdentity s.directory name))))
  | .comparingLink call ordinal current =>
    let linked := attempt answer (regularIdentity s.directory (call.marker name ordinal))
    if current != some call.identity || linked != some call.identity then
      some (s.enter (.discarding call ordinal))
    else some (s.enter (.retiring call ordinal))
  | .discarding call ordinal =>
    match attempt answer (s.directory.unlink (call.marker name ordinal)) with
    | some directory => some (s.proceed directory (call.linkAt (ordinal + 1)))
    | none => some (s.enter (call.linkAt (ordinal + 1)))
  | .retiring call ordinal =>
    let target := some (call.marker name ordinal)
    match attempt answer (s.directory.unlink name) with
    | some directory => some (s.retire name directory (.returned call target))
    | none => some (s.enter (.returned call target))
  | .marking call ordinal =>
    match attempt answer (s.directory.create (call.marker name ordinal) answer.inode s.serials) with
    | some directory =>
      if s.directory.isFree answer.inode then
        some { s with
          directory
          serials := s.serials + 1
          phase := .writing call ordinal answer.inode (markerPayload call.identity) }
      else none
    | none => some (s.enter (call.markAt (ordinal + 1)))
  | .writing call ordinal _ [] =>
    some (s.enter (if answer.failed then .removing call ordinal else .closing call ordinal true))
  | .writing call ordinal inode rest =>
    if answer.failed || answer.amount = 0 then some (s.enter (.removing call ordinal))
    else some (s.proceed (s.directory.append inode (rest.take answer.amount))
      (.writing call ordinal inode (rest.drop answer.amount)))
  | .removing call ordinal =>
    match attempt answer (s.directory.unlink (call.marker name ordinal)) with
    | some directory => some (s.proceed directory (.closing call ordinal false))
    | none => some (s.enter (.closing call ordinal false))
  | .closing call ordinal created =>
    some (s.enter
      (if answer.failed then .raised
      else if created then .returned call (some (call.marker name ordinal))
      else call.markAt (ordinal + 1)))

/-- One step: `none` when the action is not possible. A number is only given to a file when no name
leads to it. -/
def step (name : Str) : QuarantineAction → Option QuarantineState
  | .publish inode content =>
    if s.directory.isFree inode then some (s.publish name inode content) else none
  | .call suffix replaceFirst answer =>
    if s.phase.call.isNone then some (s.start name suffix replaceFirst answer) else none
  | .operate answer => s.operate name answer

end QuarantineState

/-- What an operation of a call can lead to. -/
inductive OperationOf (name : Str) (s : QuarantineState) (answer : FileAnswer) :
    QuarantineState → Prop where
  | replaced {call : QuarantineCall} {d : QuarantineDirectory} (hphase : s.phase = .replacing call)
      (hrename : s.directory.rename name (name ++ call.suffix) = some d) :
      OperationOf name s answer (s.retire name d (.returned call (some (name ++ call.suffix))))
  | unreplaced {call : QuarantineCall} (hphase : s.phase = .replacing call) :
      OperationOf name s answer (s.enter (.linking call 0))
  | linked {call : QuarantineCall} {ordinal : Nat} {d : QuarantineDirectory}
      (hphase : s.phase = .linking call ordinal)
      (hlink : s.directory.link name (call.marker name ordinal) = .ok d) :
      OperationOf name s answer (s.proceed d (.comparing call ordinal))
  | unlinked {call : QuarantineCall} {ordinal : Nat} {next : QuarantinePhase}
      (hphase : s.phase = .linking call ordinal)
      (hnext : next = call.linkAt (ordinal + 1) ∨ next = .marking call 0) :
      OperationOf name s answer (s.enter next)
  | compared {call : QuarantineCall} {ordinal : Nat} {current : Option FileIdentity}
      (hphase : s.phase = .comparing call ordinal)
      (hcurrent : ∀ i, current = some i → regularIdentity s.directory name = some i) :
      OperationOf name s answer (s.enter (.comparingLink call ordinal current))
  | refused {call : QuarantineCall} {ordinal : Nat} {current : Option FileIdentity}
      (hphase : s.phase = .comparingLink call ordinal current) :
      OperationOf name s answer (s.enter (.discarding call ordinal))
  | accepted {call : QuarantineCall} {ordinal : Nat}
      (hphase : s.phase = .comparingLink call ordinal (some call.identity))
      (hlinked : regularIdentity s.directory (call.marker name ordinal) = some call.identity) :
      OperationOf name s answer (s.enter (.retiring call ordinal))
  | discarded {call : QuarantineCall} {ordinal : Nat} {d : QuarantineDirectory}
      (hphase : s.phase = .discarding call ordinal)
      (hunlink : s.directory.unlink (call.marker name ordinal) = some d) :
      OperationOf name s answer (s.proceed d (call.linkAt (ordinal + 1)))
  | kept {call : QuarantineCall} {ordinal : Nat} (hphase : s.phase = .discarding call ordinal)
      (hunlink : QuarantineState.attempt answer (s.directory.unlink (call.marker name ordinal)) =
        none) :
      OperationOf name s answer (s.enter (call.linkAt (ordinal + 1)))
  | retired {call : QuarantineCall} {ordinal : Nat} {d : QuarantineDirectory}
      (hphase : s.phase = .retiring call ordinal) (hunlink : s.directory.unlink name = some d) :
      OperationOf name s answer (s.retire name d (.returned call (some (call.marker name ordinal))))
  | unretired {call : QuarantineCall} {ordinal : Nat} (hphase : s.phase = .retiring call ordinal) :
      OperationOf name s answer (s.enter (.returned call (some (call.marker name ordinal))))
  | created {call : QuarantineCall} {ordinal : Nat} {d : QuarantineDirectory}
      (hphase : s.phase = .marking call ordinal)
      (hcreate : s.directory.create (call.marker name ordinal) answer.inode s.serials = some d)
      (hfree : s.directory.isFree answer.inode = true) :
      OperationOf name s answer { s with
        directory := d
        serials := s.serials + 1
        phase := .writing call ordinal answer.inode (markerPayload call.identity) }
  | uncreated {call : QuarantineCall} {ordinal : Nat} (hphase : s.phase = .marking call ordinal) :
      OperationOf name s answer (s.enter (call.markAt (ordinal + 1)))
  | synced {call : QuarantineCall} {ordinal : Nat} {inode : FileIdentity}
      (hphase : s.phase = .writing call ordinal inode []) :
      OperationOf name s answer (s.enter (.closing call ordinal true))
  | wrote {call : QuarantineCall} {ordinal : Nat} {inode : FileIdentity} {written left : List Nat}
      (hphase : s.phase = .writing call ordinal inode (written ++ left)) (hwritten : written ≠ []) :
      OperationOf name s answer (s.proceed (s.directory.append inode written)
        (.writing call ordinal inode left))
  | unwritten {call : QuarantineCall} {ordinal : Nat} {inode : FileIdentity} {rest : List Nat}
      (hphase : s.phase = .writing call ordinal inode rest) :
      OperationOf name s answer (s.enter (.removing call ordinal))
  | removed {call : QuarantineCall} {ordinal : Nat} {d : QuarantineDirectory}
      (hphase : s.phase = .removing call ordinal)
      (hunlink : s.directory.unlink (call.marker name ordinal) = some d) :
      OperationOf name s answer (s.proceed d (.closing call ordinal false))
  | unremoved {call : QuarantineCall} {ordinal : Nat} (hphase : s.phase = .removing call ordinal) :
      OperationOf name s answer (s.enter (.closing call ordinal false))
  | closed {call : QuarantineCall} {ordinal : Nat} (hphase : s.phase = .closing call ordinal true) :
      OperationOf name s answer (s.enter (.returned call (some (call.marker name ordinal))))
  | unclosed {call : QuarantineCall} {ordinal : Nat} {created : Bool} {next : QuarantinePhase}
      (hphase : s.phase = .closing call ordinal created)
      (hnext : next = .raised ∨ next = call.markAt (ordinal + 1)) :
      OperationOf name s answer (s.enter next)

variable {name : Str} {s s' : QuarantineState} {answer : FileAnswer}

theorem attempt_eq_some {α : Type} {result : Option α} {a : α}
    (h : QuarantineState.attempt answer result = some a) : result = some a := by
  rw [QuarantineState.attempt] at h
  split_ifs at h
  exact h

/-- A call finds no report, or it begins with a rename or a link. -/
theorem QuarantineState.start_cases (s : QuarantineState) (name suffix : Str) (replaceFirst : Bool)
    (answer : FileAnswer) :
    (s.start name suffix replaceFirst answer = s.enter .idle ∨
      s.start name suffix replaceFirst answer = s.enter .raised) ∨
      ∃ identity, suffix ∈ quarantineSuffixes ∧
        regularIdentity s.directory name = some identity ∧
        ∃ call phase, call = ⟨suffix, identity, (s.directory.inodes identity).serial⟩ ∧
          (phase = .replacing call ∨ phase = .linking call 0) ∧
          s.start name suffix replaceFirst answer =
            { s with phase, called := call.serial :: s.called } := by
  rw [start]
  by_cases hsuffix : quarantineSuffixes.contains suffix = true
  · rw [if_pos hsuffix]
    cases hidentity : if answer.failed then none else regularIdentity s.directory name with
    | none => exact .inl (.inl rfl)
    | some identity =>
      split_ifs at hidentity
      refine .inr ⟨identity, List.contains_iff_mem.mp hsuffix, hidentity, _, _, rfl, ?_, rfl⟩
      cases replaceFirst with
      | true => exact .inl rfl
      | false => exact .inr rfl
  · rw [if_neg hsuffix]
    exact .inl (.inr rfl)

/-- An operation leads to one of these. -/
theorem QuarantineState.operate_cases (h : s.operate name answer = some s') :
    OperationOf name s answer s' := by
  rw [operate] at h
  split at h
  case h_1 | h_2 | h_3 => cases h
  case h_4 call hphase =>
    split at h
    next d hrename =>
      cases h
      exact .replaced hphase (attempt_eq_some hrename)
    next =>
      cases h
      exact .unreplaced hphase
  case h_5 call ordinal hphase =>
    split_ifs at h
    · cases h
      exact .unlinked hphase (.inr rfl)
    · split at h
      next d hlink =>
        cases h
        exact .linked hphase hlink
      next =>
        cases h
        exact .unlinked hphase (.inl rfl)
      next =>
        cases h
        exact .unlinked hphase (.inr rfl)
  case h_6 call ordinal hphase =>
    cases h
    exact .compared hphase fun i => attempt_eq_some
  case h_7 call ordinal current hphase =>
    dsimp only at h
    split_ifs at h with hdiffers
    · cases h
      exact .refused hphase
    · cases h
      simp only [Bool.or_eq_true, bne_iff_ne, ne_eq, not_or, not_not] at hdiffers
      rw [hdiffers.1] at hphase
      exact .accepted hphase (attempt_eq_some hdiffers.2)
  case h_8 call ordinal hphase =>
    split at h
    next d hunlink =>
      cases h
      exact .discarded hphase (attempt_eq_some hunlink)
    next hunlink =>
      cases h
      exact .kept hphase hunlink
  case h_9 call ordinal hphase =>
    dsimp only at h
    split at h
    next d hunlink =>
      cases h
      exact .retired hphase (attempt_eq_some hunlink)
    next =>
      cases h
      exact .unretired hphase
  case h_10 call ordinal hphase =>
    split at h
    next d hcreate =>
      split_ifs at h with hfree
      cases h
      exact .created hphase (attempt_eq_some hcreate) hfree
    next =>
      cases h
      exact .uncreated hphase
  case h_11 call ordinal inode hphase =>
    cases h
    split_ifs
    · exact .unwritten hphase
    · exact .synced hphase
  case h_12 call ordinal inode rest hne hphase =>
    split_ifs at h with hfails
    · cases h
      exact .unwritten hphase
    · cases h
      simp only [Bool.or_eq_true, decide_eq_true_eq, not_or] at hfails
      refine .wrote ?_ ?_
      · rw [List.take_append_drop, hphase]
      · intro htake
        rcases List.take_eq_nil_iff.mp htake with hzero | hnil
        · exact hfails.2 hzero
        · exact hne hnil
  case h_13 call ordinal hphase =>
    split at h
    next d hunlink =>
      cases h
      exact .removed hphase (attempt_eq_some hunlink)
    next =>
      cases h
      exact .unremoved hphase
  case h_14 call ordinal created hphase =>
    cases h
    split_ifs with hfailed hcreated
    · exact .unclosed hphase (.inl rfl)
    · rw [hcreated] at hphase
      exact .closed hphase
    · exact .unclosed hphase (.inr rfl)

end OpenCollabEval
