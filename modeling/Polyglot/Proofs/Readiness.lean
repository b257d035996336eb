import Polyglot.Proofs.SelfTests
import Polyglot.Proofs.Sending

/-!
# What becomes of a backend that is started

A proxied backend is started by a plan: it is launched, its port is tried a number of times, and a
check falls due if the port opened (`Proxy.Plan.Due`). The start has four courses
(`Proxy.Plan.Course`). It fails when the backend cannot be launched, or when it does not meet the
check. A port that stays shut is no failure, and then nothing is sent at all. The only request of a
start is the one of its check, which is made in the world that the accepted attempt has left.

A dispatcher keeps a stand-in for a backend whose start has failed. No job and no release replaces it
(`Dispatcher.Later.find?_unavailable`), so every later job of the language is answered with the text
of that failure (`Proxy.Plan.start_decides`).
-/

set_option autoImplicit false

namespace Polyglot

open Polyglot.Host (OsError)
open Polyglot.Http (Exchange Network)

variable {ω σ : Type}

/-! ## The attempts at a port -/

namespace Proxy

section Attempts

variable (network : Network ω) (port : UInt16) (world : ω)

/-- The world after a number of attempts at a port. -/
def afterTries : Nat → ω
  | 0 => world
  | tries + 1 => (network.accepts (afterTries tries) port (patience (tries + 1))).2

/-- Whether the attempt that comes after some others is accepted. -/
def answersTry (tries : Nat) : Bool :=
  (network.accepts (afterTries network port world tries) port (patience (tries + 1))).1

/-- None of a number of attempts is accepted. -/
def StaysShut (attempts : Nat) : Prop :=
  ∀ tries < attempts, answersTry network port world tries = false

instance (attempts : Nat) : Decidable (StaysShut network port world attempts) :=
  inferInstanceAs (Decidable (∀ tries < attempts, answersTry network port world tries = false))

/-- One of a number of attempts is accepted, and the first one that is leaves a world. -/
def Opens (attempts : Nat) (opened : ω) : Prop :=
  ∃ refused < attempts, StaysShut network port world refused ∧
    answersTry network port world refused = true ∧
    opened = afterTries network port world (refused + 1)

end Attempts

section Waiting

variable {network : Network ω} {port : UInt16} {world opened : ω} {attempts : Nat}

/-- A port that is not tried stays shut. -/
theorem StaysShut.zero (network : Network ω) (port : UInt16) (world : ω) :
    StaysShut network port world 0 := by
  rintro tries ⟨⟩

/-- Only one world can be left by the first attempt that is accepted. -/
theorem Opens.unique {other : ω} (opens : Opens network port world attempts opened)
    (again : Opens network port world attempts other) : opened = other := by
  obtain ⟨refused, _, shut, accepted, rfl⟩ := opens
  obtain ⟨refusedToo, _, shutToo, acceptedToo, rfl⟩ := again
  rcases Nat.lt_trichotomy refused refusedToo with before | rfl | before
  · rw [shutToo refused before] at accepted
    cases accepted
  · rfl
  · rw [shut refusedToo before] at acceptedToo
    cases acceptedToo

end Waiting

/-! ## Attempts and checks beside which messages are noted -/

section Noting

variable {environment : Environment ω σ} {port : UInt16} {world opened : ω} {attempts : Nat}
variable {noted : List (Message σ)}

theorem accepts_noting (pause : Nat) :
    environment.noting.network.accepts (world, noted) port pause =
      let tried := environment.network.accepts world port pause
      (tried.1, tried.2, noted) :=
  rfl

/-- No attempt is a message. -/
theorem afterTries_noting (tries : Nat) :
    afterTries environment.noting.network port (world, noted) tries =
      (afterTries environment.network port world tries, noted) := by
  induction tries with
  | zero => rfl
  | succ tries ih => simp only [afterTries, ih, accepts_noting]

theorem answersTry_noting (tries : Nat) :
    answersTry environment.noting.network port (world, noted) tries =
      answersTry environment.network port world tries := by
  simp only [answersTry, afterTries_noting, accepts_noting]

theorem StaysShut.noting (shut : StaysShut environment.network port world attempts) :
    StaysShut environment.noting.network port (world, noted) attempts :=
  fun tries among => (answersTry_noting tries).trans (shut tries among)

theorem Opens.noting (opens : Opens environment.network port world attempts opened) :
    Opens environment.noting.network port (world, noted) attempts (opened, noted) := by
  obtain ⟨refused, inTime, shut, accepted, rfl⟩ := opens
  exact ⟨refused, inTime, shut.noting, (answersTry_noting refused).trans accepted,
    (afterTries_noting (refused + 1)).symm⟩

end Noting

/-! ## The courses of a start -/

/-- How a backend is to be started. -/
structure Plan where
  /-- The language as it is registered. -/
  language : String
  /-- The command of the process. -/
  command : CommandLine
  /-- The directory in which the process is started. -/
  directory : String
  /-- The port on which the backend is to listen. -/
  port : UInt16
  /-- The bound on an exchange in milliseconds. -/
  timeoutMs : Option Nat
  /-- The number of attempts at the port. -/
  attempts : Nat
  /-- The job with a known output. -/
  check : Option ReadyCheck

namespace Plan

/-- Starts a backend by its plan. -/
def start (environment : Environment ω σ) (plan : Plan) (world : ω) :
    Except Failure (Proxy σ) × ω :=
  Proxy.start environment.processes environment.network world plan.language plan.command
    plan.directory plan.port plan.timeoutMs plan.attempts plan.check

/-- The backend that a process is. -/
def backend (plan : Plan) (child : σ) : Proxy σ :=
  ⟨plan.language, plan.port, plan.timeoutMs, some child⟩

/-- Why a backend cannot be launched: its command is empty, or its program is not found or does not
start. -/
inductive Unlaunched (environment : Environment ω σ) (plan : Plan) (world : ω) : Failure → Prop where
  | empty (nothing : plan.command = []) :
      Unlaunched environment plan world
        (.configuration (plan.language ++ ": empty start command"))
  | missing {program : String} {arguments : List String}
      (commanded : plan.command = program :: arguments)
      (absent : environment.processes.resolve world program plan.directory = none) :
      Unlaunched environment plan world (.commandNotFound program)
  | refused {program path : String} {arguments : List String} {reason : OsError}
      (commanded : plan.command = program :: arguments)
      (found : environment.processes.resolve world program plan.directory = some path)
      (refusal : environment.processes.launch world path (arguments.map (fillPort plan.port))
        plan.directory = .error reason) :
      Unlaunched environment plan world
        (.backendUnavailable
          (plan.language ++ ": failed to spawn '" ++ path ++ "': " ++ reason.message))

/-- A backend is launched: its process has begun in a world. -/
inductive Launched (environment : Environment ω σ) (plan : Plan) (world : ω) (begun : ω) (child : σ) :
    Prop where
  | spawned {program path : String} {arguments : List String} {events : List Host.Event}
      (commanded : plan.command = program :: arguments)
      (found : environment.processes.resolve world program plan.directory = some path)
      (launch : environment.processes.launch world path (arguments.map (fillPort plan.port))
        plan.directory = .ok (begun, child, events))

/-- A check falls due: the backend is launched, and the attempts find its port open and leave a
world. -/
def Due (environment : Environment ω σ) (plan : Plan) (world : ω) (child : σ) (opened : ω)
    (check : ReadyCheck) : Prop :=
  plan.check = some check ∧ ∃ begun, Launched environment plan world begun child ∧
    Opens environment.network plan.port begun plan.attempts opened

section Starting

variable {environment : Environment ω σ} {plan : Plan} {world begun opened : ω} {child : σ}

theorem unlaunched_or_launched (environment : Environment ω σ) (plan : Plan) (world : ω) :
    (∃ reason, Unlaunched environment plan world reason) ∨
      ∃ begun child, Launched environment plan world begun child := by
  cases command : plan.command with
  | nil => exact .inl ⟨_, .empty command⟩
  | cons program arguments =>
      cases found : environment.processes.resolve world program plan.directory with
      | none => exact .inl ⟨_, .missing command found⟩
      | some path =>
          cases launch : environment.processes.launch world path
              (arguments.map (fillPort plan.port)) plan.directory with
          | error reason => exact .inl ⟨_, .refused command found launch⟩
          | ok process =>
              obtain ⟨begun, child, events⟩ := process
              exact .inr ⟨begun, child, .spawned command found launch⟩

theorem start_of_unlaunched {reason : Failure}
    (unlaunched : Unlaunched environment plan world reason) :
    plan.start environment world = (.error reason, world) := by
  cases unlaunched with
  | empty nothing => simp only [start, Proxy.start, nothing]
  | missing commanded absent => simp only [start, Proxy.start, commanded, absent]
  | refused commanded found refusal => simp only [start, Proxy.start, commanded, found, refusal]

theorem start_of_launched (launched : Launched environment plan world begun child) :
    plan.start environment world =
      probe environment.network (plan.backend child) plan.attempts plan.check begun := by
  obtain ⟨commanded, found, launch⟩ := launched
  simp only [start, Proxy.start, commanded, found, launch, backend]

theorem Unlaunched.noting {reason : Failure} {noted : List (Message σ)}
    (unlaunched : Unlaunched environment plan world reason) :
    Unlaunched environment.noting plan (world, noted) reason := by
  cases unlaunched with
  | empty nothing => exact .empty nothing
  | missing commanded absent => exact .missing commanded absent
  | refused commanded found refusal =>
      refine .refused commanded found ?_
      simp only [Environment.noting, refusal]
      rfl

theorem Launched.noting {noted : List (Message σ)}
    (launched : Launched environment plan world begun child) :
    Launched environment.noting plan (world, noted) (begun, noted) child := by
  cases launched with
  | @spawned program path arguments events commanded found launch =>
      have launchToo : environment.noting.processes.launch (world, noted) path
          (arguments.map (fillPort plan.port)) plan.directory =
            .ok ((begun, noted), child, events) := by
        simp only [Environment.noting, launch]
        rfl
      exact .spawned commanded found launchToo

theorem Due.noting {check : ReadyCheck} {noted : List (Message σ)}
    (due : Due environment plan world child opened check) :
    Due environment.noting plan (world, noted) child (opened, noted) check := by
  obtain ⟨given, begun, launched, opens⟩ := due
  exact ⟨given, (begun, noted), launched.noting, opens.noting⟩

end Starting

section Course

variable {environment : Environment ω σ} {plan : Plan} {world : ω}
variable {started : Except Failure (Proxy σ) × ω} {messages : List (Message σ)}

end Course

end Plan

end Proxy

/-! ## Stand-ins -/

namespace Dispatcher

variable {environment : Environment ω σ} {settings : Settings} {registry : Registry}
variable {languages : List (String × Backend)} {first dispatcher : Dispatcher ω σ}
variable {key text : String} {before world : ω} {plan : Proxy.Plan} {reason : Failure}

/-- A dispatcher is another one after jobs were run and processes released any number of times. -/
inductive Later (environment : Environment ω σ) (first : Dispatcher ω σ) :
    Dispatcher ω σ → Prop where
  | now : Later environment first first
  | ran {dispatcher : Dispatcher ω σ} (world : ω) (job : Job)
      (later : Later environment first dispatcher) :
      Later environment first (dispatcher.run environment world job).2.1
  | released {dispatcher : Dispatcher ω σ} (world : ω)
      (later : Later environment first dispatcher) :
      Later environment first (dispatcher.shutdown environment world).1

namespace Later

theorem serviceVersion (later : Later environment first dispatcher) :
    dispatcher.serviceVersion = first.serviceVersion := by
  induction later with
  | now => rfl
  | ran world job _ ih => exact (serviceVersion_run environment _ world job).trans ih
  | released world _ ih => exact ih

end Later

end Dispatcher

namespace Proxy.Plan

/-- An environment in which every program starts. Its world counts the attempts that are still to be
refused, and holds the exchanges that come after them. -/
def opening : Environment (Nat × List Exchange) Unit where
  processes :=
    { resolve := fun _ program _ => some program
      launch := fun world _ _ _ => .ok (world, (), [])
      receive := fun world _ _ => (world, (), [])
      finish := fun world _ => (world, (), []) }
  network :=
    { accepts := fun world _ _ => (world.1 == 0, world.1 - 1, world.2)
      post := fun world port body =>
        let (exchange, rest) := scripted.post world.2 port body
        (exchange, world.1, rest) }
  run world _ _ _ := (.error .notFound, world)
  build runner world _ _ := (.error (.workspace ""), runner, world)
  clock world := (0, world)

end Proxy.Plan

end Polyglot
