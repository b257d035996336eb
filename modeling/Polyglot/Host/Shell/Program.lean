import Polyglot.Host.Tool.Installed

/-!
# Finding and starting programs

A program is found by its path, or by its name in the directories of the search path. A
file that is started is an installed program, a script that names its interpreter, or
neither.
-/

set_option autoImplicit false

namespace Polyglot.Host.Shell

open Polyglot.Text (Bytes)

/-- How a file is started. -/
inductive Starting where
  /-- An installed program. -/
  | program (name : String)
  /-- A script, with the path of its interpreter and the argument that it gives to it. -/
  | script (interpreter : String) (argument : Option String)
  /-- A file that is neither. -/
  | unknown (contents : Bytes)
  deriving DecidableEq, Repr

/-- The interpreter that the first line of a script names. -/
def interpreterOf? (contents : Bytes) : Option (String × Option String) :=
  match contents with
  | 0x23 :: 0x21 :: rest =>
    let line := (Text.lossy (rest.takeWhile (· != 10))).toList
    let isBlank (c : Char) : Bool := c == ' ' || c == '\t'
    let line := ((line.dropWhile isBlank).reverse.dropWhile isBlank).reverse
    let path := line.takeWhile fun c => !isBlank c
    let argument := (line.drop path.length).dropWhile isBlank
    if path.isEmpty then none
    else some (String.ofList path, if argument.isEmpty then none else some (String.ofList argument))
  | _ => none

/-- How the file at a path is started, if it can be. -/
def startingOf (tree : Tree) (directory path : String) : Except OsError Starting := do
  match ← tree.lookup directory path with
  | (_, .program name) => .ok (.program name)
  | (_, .file contents true) =>
    match interpreterOf? contents with
    | some (interpreter, argument) => .ok (.script interpreter argument)
    | none => .ok (.unknown contents)
  | _ => .error .accessDenied

/-- The directories of the search path. -/
def searchDirectories (bindings : List (String × String)) : List String :=
  ((bindings.lookup "PATH").getD "").splitOn ":"

/-- Whether a program of the given path can be started. -/
def isProgram (tree : Tree) (path : String) : Bool :=
  match tree.lookup "/" path with
  | .ok (_, node) => node.isExecutable
  | .error _ => false

/-- The path of a program that is found by its name. -/
def findProgram? (tree : Tree) (directories : List String) (name : String) : Option String :=
  if name.isEmpty then none
  else (directories.map fun directory => Path.join directory name).find? (isProgram tree)

end Polyglot.Host.Shell
