import Polyglot.Host.Platform
import Polyglot.Host.Shell.Run

/-!
# A machine with a shell and the usual programs

The file tree of a fresh machine holds the installed programs, two devices and a
directory for temporary files. Programs are found in the directories of the search
path, and scripts are run by the shell.
-/

set_option autoImplicit false

namespace Polyglot.Host.Machine

/-- A directory with the given entries. -/
def directoryOf (entries : List (String × Node)) : Node :=
  .directory (Table.ofList entries)

/-- The directory of the installed programs. -/
def programs : Node :=
  directoryOf ((["sh", "dash", "env", "timeout", "nohup", "setsid"] ++ Tool.names).map fun name => (name, .program name))

/-- The file tree of a fresh machine. -/
def freshTree : Tree :=
  directoryOf
    [("bin", .link "usr/bin"), ("usr", directoryOf [("bin", programs), ("local", directoryOf [("bin", .emptyDirectory)])]),
     ("dev", directoryOf [("null", .device false), ("zero", .device true)]),
     ("etc", directoryOf [("passwd", .file [] false)]), ("tmp", .emptyDirectory), ("root", .emptyDirectory)]

/-- The search path of a fresh machine. -/
def usualPath : String := "/usr/local/bin:/usr/bin:/bin"

/-- The number of steps that a program may take. -/
def steps : Nat := 1000000

/-- The path of the program that stands under a name in the first of some directories. -/
def findIn (directories : List String) (tree : Tree) (name : String) : Except OsError String :=
  if name.toList.contains '/' then .error .notFound
  else match Shell.findProgram? tree directories name with
    | some path => .ok path
    | none =>
      let stands (directory : String) : Bool :=
        match tree.lookup "/" (Path.join directory name) with
        | .ok _ => true
        | .error _ => false
      if !name.isEmpty && directories.any stands then .error .accessDenied else .error .notFound

/-- The machine whose programs see the given search path, and whose service runs in the given directory. -/
def platform (searchPath directory : String) : Platform where
  directory := directory
  find := findIn (searchPath.splitOn ":")
  start tree path name arguments place :=
    Shell.start steps tree
      ⟨name, arguments, place, [("PATH", searchPath), ("HOME", "/root"), ("LC_ALL", "C")]⟩ path

end Polyglot.Host.Machine
