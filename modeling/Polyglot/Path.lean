/-!
# Paths

A path is a text of names with slashes between them. Repeated slashes and inner single
points do not matter, two points lead upwards, and a slash at the front makes the path
absolute. A path that is joined to another replaces it when it is absolute.

The main statement is that joining keeps an absolute right side as it is.
-/

set_option autoImplicit false

namespace Polyglot.Path

/-- A step of a path. -/
inductive Component where
  /-- The root, at the front of an absolute path. -/
  | root
  /-- A single point at the front of a relative path. -/
  | current
  /-- Two points. -/
  | parent
  /-- A name. -/
  | normal (name : String)
  deriving DecidableEq, Repr

/-- The text of a component. -/
def Component.text : Component → String
  | .root => "/"
  | .current => "."
  | .parent => ".."
  | .normal name => name

/-- Whether a path is absolute. -/
def isAbsolute (path : String) : Bool :=
  path.toList.head? == some '/'

/-- The pieces of some characters between slashes. -/
def splitSlashes : List Char → List (List Char)
  | [] => [[]]
  | c :: rest =>
    if c = '/' then [] :: splitSlashes rest
    else match splitSlashes rest with
      | piece :: pieces => (c :: piece) :: pieces
      | [] => [[c]]

/-- The pieces of a path between slashes, without the empty ones. -/
def pieces (path : String) : List String :=
  ((splitSlashes path.toList).filter fun piece => !piece.isEmpty).map String.ofList

/-- The component of a piece that is not a single point. -/
def componentOf (piece : String) : Component :=
  if piece = ".." then .parent else .normal piece

/-- The components of a path. A single point counts at the front of a relative path only. -/
def components (path : String) : List Component :=
  let steps := pieces path
  let inner (steps : List String) := (steps.filter fun step => step != ".").map componentOf
  if isAbsolute path then .root :: inner steps
  else match steps with
    | "." :: rest => .current :: inner rest
    | steps => inner steps

/-- The path of the right side taken relative to the left side. -/
def join (base path : String) : String :=
  if isAbsolute path || base.isEmpty then path
  else if base.toList.getLast? = some '/' then base ++ path
  else base ++ "/" ++ path

/-- Whether a path ends in a slash. -/
def endsInSlash (path : String) : Bool :=
  path.toList.getLast? == some '/'

/--
The path as an absolute one with single slashes, relative to a process directory. A
double slash at the front and a slash at the end are kept, steps upwards too.
-/
def absolute (processDirectory path : String) : String :=
  let steps := (components path).filter fun step => step != .current
  let chars := path.toList
  let start :=
    if !isAbsolute path then processDirectory
    else if chars.take 2 = ['/', '/'] ∧ chars.take 3 ≠ ['/', '/', '/'] then "//"
    else "/"
  let whole := (steps.filter fun step => step != .root).foldl (fun path step => join path step.text) start
  if endsInSlash path && !endsInSlash whole then whole ++ "/" else whole

/-- An absolute right side stays as it is. -/
theorem join_of_isAbsolute {base path : String} (absolutePath : isAbsolute path = true) :
    join base path = path := by
  simp [join, absolutePath]

/-- Whether every step of a path is a name. -/
def isInside (path : String) : Bool :=
  (components path).all fun step => match step with
    | .normal _ => true
    | _ => false

end Polyglot.Path
