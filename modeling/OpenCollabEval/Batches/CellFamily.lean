import OpenCollabEval.Python.JsonLoads
import OpenCollabEval.Python.Runtime
import Mathlib.Logic.Relation

/-!
# The cell of a batch

`cell_model_family` reads the batch records of a directory and finds the batches that are connected to
one of them because one retries or replaces the other. A second pass follows the parents of each member
to find cycles.
-/

open Python

namespace OpenCollabEval

/-- What is wrong with a member of a cell. -/
inductive CellFault where
  | missingRecord (member : Str)
  | noReadableSpec (member : Str)
  | bothRelations (member : Str)
  | invalidReplaces (member : Str)
  | invalidRetry (member : Str)
  | pointsToItself (member : Str)
  | relationCycle (member : Str)
  deriving DecidableEq

/-- The text of the `SpecError`. -/
def CellFault.message (rt : Runtime) : CellFault → Str
  | missingRecord member =>
    lit "batch " ++ rt.reprStr member ++ lit ": its batch record is missing or unreadable"
  | noReadableSpec member =>
    lit "batch " ++ rt.reprStr member ++ lit ": its batch record has no readable spec"
  | bothRelations member =>
    lit "batch " ++ rt.reprStr member ++ lit ": retry_of and replaces cannot both be set"
  | invalidReplaces member => lit "batch " ++ rt.reprStr member ++ lit ": invalid replaces relation"
  | invalidRetry member => lit "batch " ++ rt.reprStr member ++ lit ": invalid retry_of relation"
  | pointsToItself member => lit "batch " ++ rt.reprStr member ++ lit ": relation points to itself"
  | relationCycle member => lit "batch relation cycle reaches " ++ rt.reprStr member

/-- The exceptions of `cell_model_family`: a `SpecError` of its own, or one that passes through. -/
inductive CellError where
  | specError (fault : CellFault)
  | other (error : PyErr)
  deriving DecidableEq

/-- A directory that `*.launch/batch.json` matches, and the text of its record: `none` when
`read_regular_text` raises an `OSError` or a `ValueError`. -/
structure LaunchRecord where
  directory : Str
  text : Option Str

/-- `path.parent.name.removesuffix(".launch")`. -/
def LaunchRecord.name (launch : LaunchRecord) : Str :=
  if launch.directory.endsWith ".launch" then
    launch.directory.take (launch.directory.length - (lit ".launch").length)
  else launch.directory

/-- The record of a launch directory; `OSError` and `ValueError` are caught, a `RecursionError` is not. -/
def LaunchRecord.read (depth : Nat) (launch : LaunchRecord) : Except PyErr (Option Obj) :=
  match launch.text with
  | none => .ok none
  | some text =>
    match loads depth text with
    | .ok record => .ok record.asDict
    | .error .recursionError => .error .recursionError
    | .error _ => .ok none

/-- `records` after one launch directory. -/
def addRecord (depth : Nat) (records : Obj) (launch : LaunchRecord) : Except PyErr Obj := do
  match ← launch.read depth with
  | some record => return records.set launch.name (.dict record)
  | none => return records

/-- The records of all launch directories, in the order of their paths. -/
def readBatchRecords (depth : Nat) (root : List LaunchRecord) : Except PyErr Obj :=
  root.foldlM (addRecord depth) []

/-- `record.get("spec")`. -/
def specOf : Json → Json
  | .dict record => Obj.get record "spec"
  | _ => .null

/-- The specs of all records, with the spec that is about to be recorded under `name`. -/
def specsOf (records : Obj) (name : Str) (current : Option Obj) : Obj :=
  let specs : Obj := records.map fun entry => (entry.1, specOf entry.2)
  match current with
  | some spec => specs.set name (.dict spec)
  | none => specs

/-- A name that a relation may point to: a string that is not empty. -/
def relationName : Json → Option Str
  | .str s => if s.isEmpty then none else some s
  | _ => none

/-- `replaces.get("batch")` of a dict. -/
def replacedBatch : Json → Json
  | .dict replaces => Obj.get replaces "batch"
  | _ => .null

/-- The batches that a spec names as retried or replaced, however malformed it is otherwise. -/
def relations : Json → List Str
  | .dict spec =>
    [Obj.get spec "retry_of", replacedBatch (Obj.get spec "replaces")].filterMap relationName
  | _ => []

/-- `children.get(member, [])`. -/
def childrenOf (specs : Obj) (member : Str) : List Str :=
  specs.flatMap fun entry => ((relations entry.2).filter (· == member)).map fun _ => entry.1

/-- A parent that is not the member itself. -/
def pointedParent (member parent : Str) : Except CellError (Option Str) :=
  if parent = member then .error (.specError (.pointsToItself member)) else .ok (some parent)

/-- `parent_of(member, spec)`. -/
def parentOf (member : Str) : Json → Except CellError (Option Str)
  | .dict spec =>
    match Obj.get spec "replaces", Obj.get spec "retry_of" with
    | .null, .null => .ok none
    | .null, retry =>
      match relationName retry with
      | some parent => pointedParent member parent
      | none => .error (.specError (.invalidRetry member))
    | replaces, .null =>
      match relationName (replacedBatch replaces) with
      | some parent => pointedParent member parent
      | none => .error (.specError (.invalidReplaces member))
    | _, _ => .error (.specError (.bothRelations member))
  | _ => .error (.specError (.noReadableSpec member))

/-- A new member leaves fewer records outside of the family. -/
theorem unseen_lt {specs : Obj} {seen : List Str} {member : Str} (hnew : seen.contains member = false)
    (hspec : (specs.lookup member).isSome = true) :
    (specs.filter fun entry => !(seen ++ [member]).contains entry.1).length <
      (specs.filter fun entry => !seen.contains entry.1).length := by
  obtain ⟨spec, hspec⟩ := Option.isSome_iff_exists.mp hspec
  obtain ⟨before, after, hspecs, -⟩ := List.lookup_eq_some_iff.mp hspec
  have hfilter : (specs.filter fun entry => !(seen ++ [member]).contains entry.1) =
      (specs.filter fun entry => !seen.contains entry.1).filter fun entry => entry.1 != member := by
    rw [List.filter_filter]
    apply List.filter_congr
    intro entry _
    by_cases h : entry.1 = member <;> simp [h]
  rw [hfilter]
  apply List.length_filter_lt_length_iff_exists.mpr
  refine ⟨(member, spec), ?_, by simp⟩
  rw [List.mem_filter, hspecs]
  simpa using hnew

/-- The first pass: `ready` lists the stack from its top. -/
def searchCell (specs : Obj) (family : List Str) : List Str → Except CellError (List Str)
  | [] => .ok family
  | member :: ready =>
    if _hseen : family.contains member then searchCell specs family ready
    else
      match _hspec : specs.lookup member with
      | none | some .null => .error (.specError (.missingRecord member))
      | some spec =>
        match parentOf member spec with
        | .error e => .error e
        | .ok parent =>
          searchCell specs (family ++ [member])
            ((childrenOf specs member).reverse ++ parent.toList ++ ready)
termination_by ready => ((specs.filter fun entry => !family.contains entry.1).length, ready.length)
decreasing_by
  · exact Prod.Lex.right _ (by simp)
  · exact Prod.Lex.left _ _ (unseen_lt (by simpa using _hseen) (by simp [_hspec]))

/-- The chain of a member up to its end or to a batch whose chain is known to end. -/
def walkChain (specs : Obj) (done chain : List Str) : Option Str → Except CellError (List Str)
  | none => .ok chain
  | some cursor =>
    if done.contains cursor then .ok chain
    else if _hchain : chain.contains cursor then .error (.specError (.relationCycle cursor))
    else
      match _hspec : specs.lookup cursor with
      | none => .error (.other (.keyError cursor))
      | some spec =>
        match parentOf cursor spec with
        | .error e => .error e
        | .ok parent => walkChain specs done (chain ++ [cursor]) parent
termination_by (specs.filter fun entry => !chain.contains entry.1).length
decreasing_by exact unseen_lt (by simpa using _hchain) (by simp [_hspec])

/-- The second pass over the members of the family. -/
def checkChains (specs : Obj) (done : List Str) : List Str → Except CellError Unit
  | [] => .ok ()
  | member :: rest => do
    let chain ← walkChain specs done [] (some member)
    checkChains specs (done ++ chain) rest

/-- Both passes over some specs. -/
def cellFamily (specs : Obj) (name : Str) : Except CellError (List Str) := do
  let family ← searchCell specs [] [name]
  checkChains specs [] family
  return family

/-- `cell_model_family(root, name, current_spec)`. -/
def cellModelFamily (depth : Nat) (root : List LaunchRecord) (name : Str) (current : Option Obj) :
    Except CellError (List Str × Obj) := do
  let records ← (readBatchRecords depth root).mapError .other
  let family ← cellFamily (specsOf records name current) name
  return (family, records)

end OpenCollabEval
