import Polyglot.Http.Exchange
import Polyglot.Process
import Polyglot.Workspace

/-!
# What the service meets outside itself

The service starts processes, talks to ports, runs programs to their end, builds jobs
in directories of their own and reads the clock. All of that happens in a world whose
nature is left open, so what is said about the service holds in every world.

The world of a machine has a file tree, servers behind its ports and a clock that moves
on with every reading.
-/

set_option autoImplicit false

namespace Polyglot

open Polyglot.Host (OsError Outcome Platform Tree Waiting)
open Polyglot.Http (Network)

/-- What the service can do in a world. -/
structure Environment (ω σ : Type) where
  /-- How processes are started and react. -/
  processes : Processes ω σ
  /-- The servers behind the ports. -/
  network : Network ω
  /--
  Runs a program with arguments to its end, with no input and no bound on its time, in
  a directory or where the service itself runs.
  -/
  run : ω → String → List String → Option String → Except OsError Outcome × ω
  /-- Builds and runs a job. -/
  build : Runner → ω → Job → Build → Except Failure String × Runner × ω
  /-- Reads the clock, in microseconds. -/
  clock : ω → Nat × ω

/-- The world of a machine. -/
structure World (ν : Type) where
  /-- The file tree. -/
  tree : Tree
  /-- The servers behind the ports. -/
  servers : ν
  /-- The next reading of the clock, in microseconds. -/
  time : Nat

namespace World

variable {ν σ : Type}

/-- The processes of the file tree as processes of the world. -/
def processes (within : Processes Tree σ) : Processes (World ν) σ where
  resolve world := within.resolve world.tree
  launch world program arguments directory := do
    let (tree, process, events) ← within.launch world.tree program arguments directory
    .ok ({ world with tree := tree }, process, events)
  receive world process bytes :=
    let (tree, process, events) := within.receive world.tree process bytes
    ({ world with tree := tree }, process, events)
  finish world process :=
    let (tree, process, events) := within.finish world.tree process
    ({ world with tree := tree }, process, events)

/-- The servers as a network of the world. -/
def network (within : Network ν) : Network (World ν) where
  accepts world port patience :=
    let (accepted, servers) := within.accepts world.servers port patience
    (accepted, { world with servers := servers })
  post world port body :=
    let (exchange, servers) := within.post world.servers port body
    (exchange, { world with servers := servers })

/-- Runs a program to its end, with no input and no bound on its time. -/
def run (platform : Platform) (world : World ν) (program : String) (arguments : List String)
    (directory : Option String) : Except OsError Outcome × World ν :=
  match platform.call world.tree program arguments (directory.getD platform.directory) with
  | .error reason => (.error reason, world)
  | .ok action =>
    let (outcome, tree) := action.run none world.tree
    (.ok outcome, { world with tree := tree })

/-- Reads the clock. -/
def clock (world : World ν) : Nat × World ν :=
  (world.time, { world with time := world.time + 1 })

/-- Builds and runs a job under the stamp that the clock gives. -/
def build (platform : Platform) (runner : Runner) (world : World ν) (job : Job) (build : Build) :
    Except Failure String × Runner × World ν :=
  let (time, world) := world.clock
  let (answer, runner, tree) := runner.run platform time world.tree job build
  (answer, runner, { world with tree := tree })

/-- What the service can do on a machine with the given servers. -/
def environment (platform : Platform) (servers : Network ν) : Environment (World ν) Waiting where
  processes := processes (Host.processes platform)
  network := network servers
  run := run platform
  build := build platform
  clock := clock

end World

end Polyglot
