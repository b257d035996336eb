import Polyglot.Failure

/-!
# Backend descriptions

A language is served in one of three ways: by a worker process that answers request
lines on its standard streams, by a process that serves requests over a loopback port,
or by a build command that runs once per job in a directory of its own.
-/

set_option autoImplicit false

namespace Polyglot

/-- A program to run, followed by its arguments. -/
abbrev CommandLine := List String

/-- A job with a known answer, sent to a proxied backend before it is used. -/
structure ReadyCheck where
  /-- The source of the job. -/
  code : String
  /-- The class that holds the entry method. -/
  className : String
  /-- The entry method. -/
  methodName : String
  /-- The output that a working backend answers, up to blanks at its end. -/
  expected : String
  deriving DecidableEq, Repr

/-- How to build and run one job. -/
structure Build where
  /-- The file that receives the code of the job. -/
  entryFile : String
  /-- The file that receives the library source of the job. -/
  libraryFile : String
  /-- The command that builds and runs the job. -/
  command : CommandLine
  /-- The command that reports the version of the toolchain. -/
  version : CommandLine
  deriving DecidableEq, Repr

/-- How a language is served. -/
inductive Backend where
  /-- A process that answers one line for every request line. -/
  | worker (start : CommandLine) (directory : String) (version : Option CommandLine)
  /-- A process that answers requests over a loopback port. -/
  | proxied (start : CommandLine) (directory : String) (port : UInt16)
      (version : Option CommandLine) (check : Option ReadyCheck)
  /-- A command that builds and runs each job. -/
  | ephemeral (build : Build)
  deriving DecidableEq, Repr

namespace Backend

/-- The name of the strategy. -/
def strategy : Backend → String
  | .worker .. => "persistent_worker"
  | .proxied .. => "proxied_http"
  | .ephemeral _ => "ephemeral_build"

/-- The command that reports the version, if there is one. -/
def versionCommand? : Backend → Option CommandLine
  | .worker _ _ version => version
  | .proxied _ _ _ version _ => version
  | .ephemeral build => some build.version

/-- The directory of a long-lived backend. -/
def directory? : Backend → Option String
  | .worker _ directory _ => some directory
  | .proxied _ directory .. => some directory
  | .ephemeral _ => none

/-- The command that runs the backend or the job. -/
def mainCommand : Backend → CommandLine
  | .worker start .. => start
  | .proxied start .. => start
  | .ephemeral build => build.command

/-- A reason for not registering a backend. -/
inductive Defect where
  /-- A file of a build has no name. -/
  | unnamedFile
  /-- Both files of a build have the same name. -/
  | sameFile
  /-- There is no program to run. -/
  | emptyCommand
  deriving DecidableEq, Repr

/-- The wording of a defect. -/
def Defect.message : Defect → String
  | .unnamedFile => "entry and stdlib file names are required"
  | .sameFile => "entry and stdlib files must differ"
  | .emptyCommand => "empty command"

/-- The first defect of the files of a build. -/
def fileDefect? : Backend → Option Defect
  | .ephemeral build =>
    if build.entryFile.isEmpty || build.libraryFile.isEmpty then some .unnamedFile
    else if build.entryFile = build.libraryFile then some .sameFile
    else none
  | _ => none

/-- The first defect of a backend. -/
def defect? (backend : Backend) : Option Defect :=
  backend.fileDefect?.or (if backend.mainCommand.isEmpty then some .emptyCommand else none)

end Backend

end Polyglot
