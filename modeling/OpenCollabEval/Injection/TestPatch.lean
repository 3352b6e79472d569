import OpenCollabEval.Injection.PatchPaths

/-!
# Test patch injection

`apply_test_patch` over a worktree of tracked, untracked and ignored paths. What the environment does
is a `Behavior`: how each command ends, what a failing `git apply` leaves, which deadlines expire, and
at which awaits the caller is cancelled.
-/

open Python

namespace OpenCollabEval

/-- What Git knows of a path. -/
inductive Tracking where
  | tracked (blob : List Nat)
  | untracked
  | ignored
  deriving DecidableEq

/-- A worktree: what Git knows of each path, and what is there. -/
structure Worktree where
  tracking : Str → Tracking
  content : Str → Option (List Nat)

/-- What an awaited operation raises. -/
inductive Raised where
  | exception
  | cancelled
  | other
  deriving DecidableEq

/-- The result of a command. -/
structure CommandResult where
  returncode : Int
  stdoutTruncated : Bool
  stderrTruncated : Bool
  stdout : Str

/-- A result that is not known to be complete. -/
def CommandResult.incomplete (r : CommandResult) : Bool :=
  r.returncode ≠ 0 || r.stdoutTruncated || r.stderrTruncated

/-- How a command that only reads ends: it works, or its result is incomplete, or it raises. -/
inductive Answer where
  | works
  | fails (r : CommandResult) (incomplete : r.incomplete = true)
  | raises (e : Raised)

/-- The result of a command that reads, by the output of one that works. -/
def Answer.result (output : Str) : Answer → Except Raised CommandResult
  | .works => .ok ⟨0, false, false, output⟩
  | .fails r _ => .ok r
  | .raises e => .error e

/-- The points of a rollback at which its own deadline may be found expired. -/
inductive RollbackPoint where
  | checkout
  | clean
  | status
  deriving DecidableEq

/-- What happens in the rollback of one path. -/
structure PathRollback where
  checkout : Except Raised CommandResult
  checkoutTookEffect : Bool
  clean : Except Raised CommandResult
  cleanTookEffect : Bool
  status : Answer
  expired : Option RollbackPoint

/-- How the removal of the staging file ends. -/
inductive CleanupEnd where
  | removed
  | raised
  | timedOut

/-- What the environment does. -/
structure Behavior where
  stage : Option Raised
  numstat : Answer
  check : Except Raised CommandResult
  apply : Except Raised CommandResult
  /-- What `git apply` leaves at the paths it may change. -/
  applied : Str → Option (List Nat)
  rollback : Str → PathRollback
  /-- What a rollback leaves that is stopped by the last deadline. -/
  stopped : Option (Str → Option (List Nat))
  rollbackCancelled : Bool
  cleanup : CleanupEnd
  cleanupCancelled : Bool

/-- A patch with what Git says of it: the output of numstat, and the paths that applying it may
change, which numstat lists. -/
structure PatchFile where
  text : Str
  numstat : Str
  paths : List Str
  listed : ∀ ps, numstatPaths numstat = .ok ps → ∀ p ∈ paths, p ∈ ps

/-- What `apply_test_patch` raises. -/
inductive InjectionError where
  | isolation (touchedPaths : List Str) (cancelled : Bool)
  | cancelled
  | exception
  | other
  deriving DecidableEq

/-- What was raised, as an error of the injection. -/
def Raised.error : Raised → InjectionError
  | .exception => .exception
  | .cancelled => .cancelled
  | .other => .other

namespace Worktree

variable (w : Worktree)

/-- What `git status` reports of a path. -/
def statusOf (path : Str) : Option String :=
  match w.tracking path with
  | .tracked blob =>
    match w.content path with
    | none => some " D "
    | some bytes => if bytes = blob then none else some " M "
  | .untracked => if (w.content path).isSome then some "?? " else none
  | .ignored => none

/-- `git status --porcelain=v1 -z` of one path. -/
def statusOutput (path : Str) : Str :=
  match w.statusOf path with
  | none => []
  | some code => lit code ++ path ++ [0]

/-- The worktree with another content at some paths. -/
def setContent (paths : List Str) (content : Str → Option (List Nat)) : Worktree :=
  { w with content := fun path => if paths.contains path then content path else w.content path }

/-- `git checkout` of a path restores it when it is tracked. -/
def checkout (path : Str) : Worktree :=
  match w.tracking path with
  | .tracked blob => w.setContent [path] fun _ => some blob
  | _ => w

/-- `git clean -fq` of a path removes it when it is untracked. -/
def clean (path : Str) : Worktree :=
  match w.tracking path with
  | .untracked => w.setContent [path] fun _ => none
  | _ => w

end Worktree

/-- A command that changes a path: its effect is sure when it succeeds. -/
def tookEffect (result : Except Raised CommandResult) (flag : Bool) : Bool :=
  match result with
  | .ok r => flag || r.returncode == 0
  | .error _ => flag

/-- What the rollback of one path comes to. -/
inductive PathVerdict where
  | proven
  | failed
  | expired
  | raised (e : Raised)
  deriving DecidableEq

/-- A result that makes the rollback go on: only a base exception does not. -/
def propagates (result : Except Raised CommandResult) : Option Raised :=
  match result with
  | .error .exception => none
  | .error e => some e
  | .ok _ => none

/-- `(stdout or "").strip("\0\r\n ")` is not empty. -/
def isDirty (stdout : Str) : Bool :=
  !(Str.stripOf (fun c => c == 0 || c == 13 || c == 10 || c == 32) stdout).isEmpty

/-- The proof that a path is clean. -/
def provePath (w : Worktree) (path : Str) (o : PathRollback) : PathVerdict :=
  if o.expired = some .status then .expired
  else
    match o.status.result (w.statusOutput path) with
    | .error .exception => .failed
    | .error e => .raised e
    | .ok r => if r.incomplete || isDirty r.stdout then .failed else .proven

/-- The rollback of one path. -/
def rollbackPath (w : Worktree) (path : Str) (o : PathRollback) : Worktree × PathVerdict :=
  if o.expired = some .checkout then (w, .expired)
  else
    let w := if tookEffect o.checkout o.checkoutTookEffect then w.checkout path else w
    match propagates o.checkout with
    | some e => (w, .raised e)
    | none =>
      if o.expired = some .clean then (w, .expired)
      else
        let w := if tookEffect o.clean o.cleanTookEffect then w.clean path else w
        match propagates o.clean with
        | some e => (w, .raised e)
        | none => (w, provePath w path o)

/-- The rollback of some paths: what it leaves, whether every path was proven clean, and what it
raised other than its own error. -/
def rollbackPaths (b : Behavior) (w : Worktree) : List Str → Worktree × Bool × Option Raised
  | [] => (w, true, none)
  | path :: rest =>
    let (w, verdict) := rollbackPath w path (b.rollback path)
    match verdict with
    | .proven => rollbackPaths b w rest
    | .failed =>
      let (w, _, raised) := rollbackPaths b w rest
      (w, false, raised)
    | .expired => (w, false, none)
    | .raised e => (w, false, some e)

/-- `_rollback_failed_apply`: the error that it ends in. -/
def rollbackFailedApply (b : Behavior) (w : Worktree) (touched : List Str) :
    Worktree × Option InjectionError :=
  if touched.isEmpty then (w, some (.isolation [] false))
  else
    match rollbackPaths b w touched with
    | (w, _, some e) => (w, some e.error)
    | (w, proven, none) => (w, if proven then none else some (.isolation touched.eraseDups false))

/-- `_compensate_failed_mutation`: the error that it ends in. -/
def compensateFailedMutation (b : Behavior) (w : Worktree) (touched : List Str)
    (original : Option Raised) : Worktree × Option InjectionError :=
  let cancelled := original = some .cancelled || b.rollbackCancelled
  match b.stopped with
  | some content =>
    (w.setContent touched content, some (.isolation touched.eraseDups cancelled))
  | none =>
    match rollbackFailedApply b w touched with
    | (w, some (.isolation paths _)) => (w, some (.isolation paths cancelled))
    | (w, some _) => (w, some (.isolation touched.eraseDups cancelled))
    | (w, none) =>
      (w, if cancelled then some .cancelled
        else if original = some .other then some .other else none)

/-- The result of an awaited call. -/
abbrev Injected := Worktree × Except InjectionError (List Str)

/-- `return []` after a compensation that did not raise. -/
def compensated (b : Behavior) (w : Worktree) (touched : List Str) (original : Option Raised) :
    Injected :=
  match compensateFailedMutation b w touched original with
  | (w, some e) => (w, .error e)
  | (w, none) => (w, .ok [])

/-- The paths that the headers and numstat name. -/
def allTouched (touched listed : List Str) : List Str := (touched ++ listed).eraseDups

/-- The mutating command and what follows it. -/
def applyChecked (patch : PatchFile) (b : Behavior) (w : Worktree) (touched : List Str) :
    Injected :=
  let changed := w.setContent patch.paths b.applied
  match b.apply with
  | .error e => compensated b changed touched (some e)
  | .ok r =>
    if r.returncode = 0 then (changed, .ok touched) else compensated b changed touched none

/-- `_apply_staged_test_patch`. -/
def applyStagedTestPatch (patch : PatchFile) (b : Behavior) (w : Worktree) (touched : List Str) :
    Injected :=
  match b.numstat.result patch.numstat with
  | .error .exception => (w, .ok [])
  | .error e => (w, .error e.error)
  | .ok r =>
    if r.incomplete then (w, .ok [])
    else
      match numstatPaths r.stdout with
      | .error _ => (w, .ok [])
      | .ok listed =>
        if (pathBoundError (allTouched touched listed)).isSome then (w, .ok [])
        else
          match b.check with
          | .error e => (w, .error e.error)
          | .ok r =>
            if r.returncode = 0 then applyChecked patch b w (allTouched touched listed)
            else (w, .ok [])

/-- The known paths and the cancellation of what was raised before. -/
def provenance (touched : List Str) : Option InjectionError → List Str × Bool
  | some (.isolation paths cancelled) => ((paths ++ touched).eraseDups, cancelled)
  | some .cancelled => (touched, true)
  | _ => (touched, false)

/-- `_finish_staged_patch_cleanup`: the error that it ends in. -/
def finishStagedPatchCleanup (b : Behavior) (touched : List Str) (original : Option InjectionError)
    (mutationApplied : Bool) : Option InjectionError :=
  let (known, wasCancelled) := provenance touched original
  let cancelled := wasCancelled || b.cleanupCancelled
  match b.cleanup with
  | .raised | .timedOut => some (.isolation known cancelled)
  | .removed =>
    if mutationApplied && cancelled then some (.isolation known cancelled)
    else
      match original with
      | some (.isolation paths c) => some (.isolation paths c)
      | _ => if cancelled then some .cancelled else original

/-- A patch that is refused before it is staged. -/
def refusedText (text : Str) : Bool :=
  text.strip.isEmpty || maxTestPatchBytes < text.encodeSurrogatePass.length ||
    (pathBoundError (touchedFiles text)).isSome

/-- `apply_test_patch`. -/
def applyTestPatch (patch : PatchFile) (b : Behavior) (w : Worktree) : Injected :=
  if refusedText patch.text then (w, .ok [])
  else
    match b.stage with
    | some .exception => (w, .ok [])
    | some e => (w, .error e.error)
    | none =>
      match applyStagedTestPatch patch b w (touchedFiles patch.text) with
      | (w, .error e) =>
        (w, .error ((finishStagedPatchCleanup b (touchedFiles patch.text) (some e) false).getD e))
      | (w, .ok result) =>
        match finishStagedPatchCleanup b result none !result.isEmpty with
        | some e => (w, .error e)
        | none => (w, .ok result)

end OpenCollabEval
