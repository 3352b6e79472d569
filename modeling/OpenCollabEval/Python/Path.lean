import OpenCollabEval.Python.Text

/-!
# POSIX paths

`pathlib.PurePosixPath` as a function of its text: empty and `.` components vanish, `..` stays, and
exactly two leading slashes are a root of their own.
-/

namespace Python

/-- A `PurePosixPath`: its root and its components. -/
structure PosixPath where
  root : Str
  components : List Str
  deriving DecidableEq

namespace PosixPath

/-- The slash. -/
def slash : Nat := 47

/-- `PurePosixPath(s)`. -/
def ofStr (s : Str) : PosixPath where
  root :=
    if s.startsWith "//" && !s.startsWith "///" then "//"
    else if s.startsWith "/" then "/" else ""
  components := (Str.splitChar slash s).filter fun part => !(part.isEmpty || part == lit ".")

variable (p : PosixPath)

/-- `p.parts`. -/
def parts : List Str := if p.root.isEmpty then p.components else p.root :: p.components

/-- `p.is_absolute()`. -/
def isAbsolute : Bool := !p.root.isEmpty

/-- `p.as_posix()`. -/
def asPosix : Str :=
  if p.parts.isEmpty then "." else p.root ++ Str.join [slash] p.components

/-- `p.parent`. -/
def parent : PosixPath := { p with components := p.components.dropLast }

/-- `p.name`. -/
def name : Str := p.components.getLastD []

/-- `p.stem`: the name without its last suffix. -/
def stem : Str :=
  let ending := p.name.rtakeWhile (· != 46)
  let kept := p.name.length - ending.length
  -- a dot that starts or ends the name does not separate a suffix
  if 1 < kept && !ending.isEmpty then p.name.take (kept - 1) else p.name

/-- `p` lies below `ancestor`: `ancestor in p.parents`. -/
def below (ancestor : PosixPath) : Bool :=
  ancestor.root == p.root && ancestor.components.isPrefixOf p.components &&
    ancestor.components.length < p.components.length

end PosixPath

end Python
