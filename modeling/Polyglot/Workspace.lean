import Polyglot.Backend.Spec
import Polyglot.Host.Platform
import Polyglot.Job

/-!
# Directories of jobs

A job that is built and run by a command gets a directory of its own below a common
root. The name of the directory is a stamp and the language of the job with every
character that is not a Latin letter or a digit replaced. Stamps strictly increase, so
no two jobs of one runner share a directory.

A directory is removed when its job succeeds and is kept for inspection when it fails.
A job fails if its command ends with anything but status zero, or writes anything to
the standard error.
-/

set_option autoImplicit false

namespace Polyglot

open Polyglot.Host (Tree OsError Platform Outcome)

/-! ## Stamps -/

namespace Stamp

/-- The stamp that follows the last one when the clock shows the given time. -/
def next (last clock : Nat) : Nat :=
  max clock (last + 1)

/-- A stamp is greater than the last one. -/
theorem last_lt_next (last clock : Nat) : last < next last clock := by
  unfold next
  omega

/-- A stamp is not behind the clock. -/
theorem clock_le_next (last clock : Nat) : clock ≤ next last clock := by
  unfold next
  omega

end Stamp

/-! ## Names -/

/-- The character that stands for a character of a language in the name of a directory. -/
def plainChar (c : Char) : Char :=
  if c.isAlphanum then c.toLower else '_'

/-- The language in the name of a directory. -/
def plainName (language : String) : String :=
  language.map plainChar

/-- The path of the directory of a job. -/
def workspacePath (root language : String) (stamp : Nat) : String :=
  Path.join root (toString stamp ++ "_" ++ plainName language)

/-! ## Preparing and removing a directory -/

/-- An operation on the file tree that may fail half-way and keeps what it has done. -/
abbrev Filing (α : Type) := ExceptT Failure (StateM Tree) α

namespace Workspace

/-- Applies an operation of the file tree, with the failure that a refusal means. -/
def apply (failure : OsError → Failure) (operation : Tree → Except OsError Tree) : Filing Unit := do
  match operation (← get) with
  | .ok tree => set tree
  | .error reason => throw (failure reason)

/-- Makes a directory and its missing ancestors, with the failure that a refusal means. -/
def ensure (failure : OsError → Failure) (directory path : String) : Filing Unit := do
  let (answer, tree) := (← get).ensureDirectory directory path
  set tree
  match answer with
  | .ok _ => pure ()
  | .error reason => throw (failure reason)

/-- Makes the directory of a job. -/
def create (directory root path : String) : Filing Unit := do
  ensure (fun reason =>
      .workspace ("Failed to create workspace root " ++ root ++ ": " ++ reason.message))
    directory root
  apply (fun reason =>
      if reason = .exists then .workspace ("Workspace already exists: " ++ path)
      else .workspace ("Failed to create workspace " ++ path ++ ": " ++ reason.message))
    fun tree => tree.makeDirectory directory path

/-- The path without its last step. -/
def parentOf (path : String) : String :=
  ((Host.Tree.ancestry path).drop 1).head?.getD ""

/-- Writes a file inside the directory of a job; a name that leads elsewhere is refused. -/
def writeFile (directory path name contents : String) : Filing Unit := do
  if !Path.isInside name then
    throw (.workspace ("File name escapes the workspace: " ++ name))
  let target := Path.join path name
  ensure (fun reason => .io reason.message) directory (parentOf target)
  apply (fun reason => .workspace ("Failed to write " ++ target ++ ": " ++ reason.message))
    fun tree => tree.write directory target (Text.utf8 contents) false

/-- Removes the directory of a job, if it is there. -/
def remove (directory path : String) : Filing Unit := do
  match (← get).remove directory path with
  | .ok tree => set tree
  | .error _ => pure ()

end Workspace

/-! ## Running a job -/

/-- Builds and runs jobs below a common root. -/
structure Runner where
  /-- The directory that holds the directories of jobs. -/
  root : String
  /-- The bound on the time of a job in milliseconds. -/
  timeoutMs : Option Nat
  /-- The last stamp that was used. -/
  lastStamp : Nat
  deriving DecidableEq, Repr

/-- The output of a command, or the failure that its end means. -/
def outputOf (timeoutMs : Option Nat) (outcome : Outcome) : Except Failure String :=
  match outcome.exit with
  | none => .error (.timeout (timeoutMs.getD 0 / 1000))
  | some exit =>
    if exit.isSuccess && outcome.stderr.isEmpty then .ok (Text.lossy outcome.stdout)
    else if outcome.stderr.isEmpty then
      .error (.buildOrRuntime ("Process exited with status: " ++ exit.message))
    else .error (.buildOrRuntime (Text.lossy outcome.stderr))

namespace Runner

/-- Runs the command of a build in the directory of a job. -/
def execute (platform : Platform) (timeoutMs : Option Nat) (path program : String)
    (arguments : List String) : Filing String := do
  match platform.resolve (← get) program path with
  | none => throw (.commandNotFound program)
  | some resolved =>
    match platform.launch (← get) resolved arguments path with
    | .error reason =>
      throw (.workspace ("Failed to spawn " ++ resolved ++ ": " ++ reason.message))
    | .ok action =>
      let (outcome, tree) := action.run timeoutMs (← get)
      set tree
      match outputOf timeoutMs outcome with
      | .ok output => pure output
      | .error failure => throw failure

/-- Prepares the directory of a job, runs its command, and removes the directory on success. -/
def runIn (platform : Platform) (runner : Runner) (path : String) (job : Job) (build : Build)
    (program : String) (arguments : List String) : Filing String := do
  Workspace.create platform.directory runner.root path
  Workspace.writeFile platform.directory path build.entryFile job.code
  Workspace.writeFile platform.directory path build.libraryFile job.library
  let output ← execute platform runner.timeoutMs path program arguments
  Workspace.remove platform.directory path
  pure output

/-- Builds and runs a job: its output or failure, the runner, and the file tree. -/
def run (platform : Platform) (runner : Runner) (clock : Nat) (tree : Tree) (job : Job)
    (build : Build) : Except Failure String × Runner × Tree :=
  match build.command with
  | [] => (.error (.configuration (job.language ++ ": empty build command")), runner, tree)
  | program :: arguments =>
    let stamp := Stamp.next runner.lastStamp clock
    let path := workspacePath runner.root job.language stamp
    let (answer, tree) := (runIn platform runner path job build program arguments).run.run tree
    (answer, { runner with lastStamp := stamp }, tree)

end Runner

end Polyglot
