import Polyglot.Host.Action

/-!
# The machine that the service runs on

The service asks three things of its machine: the directory in which it runs itself,
the path of a program that is installed under a name, and what a program will do when
it is started. How programs behave is left open, so what is said about the service
holds on every machine.
-/

set_option autoImplicit false

namespace Polyglot.Host

/-- What the service asks of its machine. -/
structure Platform where
  /-- The directory in which the service runs, as an absolute path. -/
  directory : String
  /-- The path of the program that is installed under a name, or why there is none. -/
  find : Tree → String → Except OsError String
  /--
  What the program at a path will do when it is started under a name, with arguments
  and in a directory, or why it cannot start.
  -/
  start : Tree → String → String → List String → String → Except OsError (Action Exit)

namespace Platform

/-- The path of the program that is installed under a name, if there is one. -/
def find? (platform : Platform) (tree : Tree) (name : String) : Option String :=
  (platform.find tree name).toOption

/-- Whether a program is installed under a name. -/
def isInstalled (platform : Platform) (tree : Tree) (name : String) : Bool :=
  (platform.find? tree name).isSome

/-- Whether a text cannot be handed to the operating system. -/
def hasZero (text : String) : Bool :=
  text.toList.any fun c => c.toNat == 0

/-- The path of a directory without links and steps upwards, if a program can run in it. -/
def enter (platform : Platform) (tree : Tree) (directory : String) : Except OsError String := do
  match ← tree.lookup platform.directory directory with
  | (location, .directory _) => .ok (Tree.pathOf location)
  | _ => .error .notDirectory

/-- What a program will do when it is started in a directory, or why it cannot be. -/
def launch (platform : Platform) (tree : Tree) (program : String) (arguments : List String)
    (directory : String) : Except OsError (Action Exit) :=
  if (program :: directory :: arguments).any hasZero then .error .embeddedZero
  else do
    platform.start tree program program arguments (← platform.enter tree directory)

/-- The path of a program whose name holds a slash, relative to the directory it will run in. -/
def pathIn (platform : Platform) (program directory : String) : String :=
  Path.absolute platform.directory (Path.join directory program)

/--
The path at which a program is started: a name without slashes is looked up, and
anything else is taken relative to the directory in which the program will run.
-/
def resolve (platform : Platform) (tree : Tree) (program directory : String) : Option String :=
  if program.toList.contains '/' then some (platform.pathIn program directory)
  else platform.find? tree program

/--
What a program will do when it is started under the name it is called by, or why it
cannot be. The directory is entered before the program is looked up.
-/
def call (platform : Platform) (tree : Tree) (program : String) (arguments : List String)
    (directory : String) : Except OsError (Action Exit) :=
  if (program :: directory :: arguments).any hasZero then .error .embeddedZero
  else do
    let place ← platform.enter tree directory
    let path ← if program.toList.contains '/' then .ok (platform.pathIn program place)
      else platform.find tree program
    platform.start tree path program arguments place

end Platform

end Polyglot.Host
