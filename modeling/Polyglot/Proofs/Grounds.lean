import Mathlib.Logic.Function.Basic
import Polyglot.Proofs.Serving

/-!
# Backends that share nothing

Here every process and every server is a state machine of its own: what a process does
depends on its own state and on what it is sent, and a request to a port changes the server
behind that port only (`Grounds.environment`). Programs that are built run in the common file
tree, and the clock may show anything.

On such grounds, starting a backend that is not built and running its jobs touches at most
the server behind the port of the backend, and depends on nothing else (`Local`,
`Executor.local_start`, `Executor.Suits.local_execute`).
-/

set_option autoImplicit false

namespace Polyglot

open Polyglot.Host (Event OsError Platform Tree)
open Polyglot.Http (Exchange Network)
open Polyglot.Text (Bytes)

/-! ## Processes and servers with states of their own -/

/-- How processes and servers go on, each from its own state. -/
structure Conduct (σ ρ : Type) where
  /-- What a process does when bytes are written to its standard input. -/
  receive : σ → Bytes → σ × List Event
  /-- What a process does when its standard input ends. -/
  finish : σ → σ × List Event
  /-- Whether a server accepts a connection after so many milliseconds of waiting. -/
  accepts : ρ → Nat → Bool × ρ
  /-- How a server answers to a body. -/
  post : ρ → Bytes → Exchange × ρ

/-- Which programs are installed, and how the processes begin that run them. -/
structure Programs (σ : Type) where
  /-- The path at which a program is started in a directory, if it is installed. -/
  resolve : String → String → Option String
  /-- The state and the first deeds of the process that runs a program. -/
  launch : String → List String → String → Except OsError (σ × List Event)

/-- Where backends stand that share nothing: the file tree is for those that are built. -/
structure Grounds (ρ : Type) where
  /-- The file tree. -/
  tree : Tree
  /-- The server behind each port. -/
  servers : UInt16 → ρ
  /-- What the clock will show. -/
  clock : Nat → Nat

namespace Grounds

variable {σ ρ : Type}

/-- The grounds with another state of a server. -/
def put (grounds : Grounds ρ) (port : UInt16) (server : ρ) : Grounds ρ :=
  { grounds with servers := Function.update grounds.servers port server }

/-- The grounds after the clock was read. -/
def later (grounds : Grounds ρ) : Grounds ρ :=
  { grounds with clock := fun count => grounds.clock (count + 1) }

/-- Processes that change nothing but themselves. -/
def processes (conduct : Conduct σ ρ) (programs : Programs σ) : Processes (Grounds ρ) σ where
  resolve _ := programs.resolve
  launch grounds program arguments directory := do
    let (process, events) ← programs.launch program arguments directory
    .ok (grounds, process, events)
  receive grounds process bytes := (grounds, conduct.receive process bytes)
  finish grounds process := (grounds, conduct.finish process)

/-- Servers that change nothing but themselves. -/
def network (conduct : Conduct σ ρ) : Network (Grounds ρ) where
  accepts grounds port patience :=
    let (accepted, server) := conduct.accepts (grounds.servers port) patience
    (accepted, grounds.put port server)
  post grounds port body :=
    let (exchange, server) := conduct.post (grounds.servers port) body
    (exchange, grounds.put port server)

/-- What the service can do on such grounds. -/
def environment (platform : Platform) (conduct : Conduct σ ρ) (programs : Programs σ) :
    Environment (Grounds ρ) σ where
  processes := processes conduct programs
  network := network conduct
  run grounds program arguments directory :=
    let (answer, world) :=
      World.run platform ⟨grounds.tree, (), grounds.clock 0⟩ program arguments directory
    (answer, { grounds with tree := world.tree })
  build runner grounds job build :=
    let (answer, runner, tree) :=
      runner.run platform (grounds.clock 0) grounds.tree job build
    (answer, runner, { grounds.later with tree := tree })
  clock grounds := (grounds.clock 0, grounds.later)

@[simp] theorem put_self (grounds : Grounds ρ) (port : UInt16) :
    grounds.put port (grounds.servers port) = grounds := by
  rw [put, Function.update_eq_self]

@[simp] theorem servers_put (grounds : Grounds ρ) (port : UInt16) (server : ρ) :
    (grounds.put port server).servers port = server := by
  simp [put]

@[simp] theorem put_put (grounds : Grounds ρ) (port : UInt16) (first second : ρ) :
    (grounds.put port first).put port second = grounds.put port second := by
  simp only [put, Function.update_idem]

end Grounds

/-! ## What stays behind one port -/

variable {σ ρ : Type}

/-- An operation on the grounds is one of the server behind a port, or leaves the grounds as
they are when there is no port. -/
def Local {α : Type} (port? : Option UInt16) (act : Grounds ρ → α × Grounds ρ) : Prop :=
  match port? with
  | none => ∃ answer, ∀ grounds, act grounds = (answer, grounds)
  | some port => ∃ own : ρ → α × ρ, ∀ grounds,
      act grounds = ((own (grounds.servers port)).1, grounds.put port (own (grounds.servers port)).2)

namespace Local

variable {α β : Type} {port? : Option UInt16} {port : UInt16} {act : Grounds ρ → α × Grounds ρ}

theorem pure (port? : Option UInt16) (answer : α) :
    Local port? fun grounds : Grounds ρ => (answer, grounds) := by
  cases port? with
  | none => exact ⟨answer, fun _ => rfl⟩
  | some port => exact ⟨fun server => (answer, server), fun grounds => by rw [Grounds.put_self]⟩

theorem of_eq {same : Grounds ρ → α × Grounds ρ} (only : Local port? act)
    (equal : ∀ grounds, act grounds = same grounds) : Local port? same :=
  funext equal ▸ only

theorem bind {next : α → Grounds ρ → β × Grounds ρ} (first : Local port? act)
    (rest : ∀ answer, Local port? (next answer)) :
    Local port? fun grounds => next (act grounds).1 (act grounds).2 := by
  cases port? with
  | none =>
      obtain ⟨answer, same⟩ := first
      obtain ⟨last, further⟩ := rest answer
      exact ⟨last, fun grounds => by simp only [same, further]⟩
  | some port =>
      obtain ⟨own, same⟩ := first
      choose others further using rest
      refine ⟨fun server => others (own server).1 (own server).2, fun grounds => ?_⟩
      simp only [same, further, Grounds.servers_put, Grounds.put_put]

theorem map (first : Local port? act) (change : α → β) :
    Local port? fun grounds => (change (act grounds).1, (act grounds).2) :=
  first.bind fun answer => .pure port? (change answer)

/-- Everything but the server behind the port stays as it is. -/
theorem spares (only : Local port? act) (grounds : Grounds ρ) :
    (act grounds).2.tree = grounds.tree ∧ (act grounds).2.clock = grounds.clock ∧
      ∀ other, port? ≠ some other → (act grounds).2.servers other = grounds.servers other := by
  cases port? with
  | none =>
      obtain ⟨answer, same⟩ := only
      rw [same]
      exact ⟨rfl, rfl, fun _ _ => rfl⟩
  | some port =>
      obtain ⟨own, same⟩ := only
      rw [same]
      refine ⟨rfl, rfl, fun other differ => ?_⟩
      exact Function.update_of_ne (fun same => differ (congrArg some same.symm)) _ _

/-- The answer depends on nothing but the server behind the port. -/
theorem congr (only : Local port? act) (one other : Grounds ρ)
    (same : ∀ port, port? = some port → one.servers port = other.servers port) :
    (act one).1 = (act other).1 ∧
      ∀ port, port? = some port → (act one).2.servers port = (act other).2.servers port := by
  cases port? with
  | none =>
      obtain ⟨answer, fixed⟩ := only
      exact ⟨by rw [fixed, fixed], nofun⟩
  | some port =>
      obtain ⟨own, acts⟩ := only
      have server := same port rfl
      refine ⟨by rw [acts, acts, server], fun other here => ?_⟩
      obtain rfl := Option.some.inj here
      rw [acts, acts, Grounds.servers_put, Grounds.servers_put, server]

end Local

/-- The port of a backend. -/
def Backend.port? : Backend → Option UInt16
  | .proxied _ _ port _ _ => some port
  | _ => none

/-! ## Starting a backend -/

section Starting

variable {conduct : Conduct σ ρ} {programs : Programs σ}

theorem Channel.local_spawn (language : String) (command : CommandLine) (directory : String)
    (timeoutMs : Option Nat) :
    Local none fun grounds =>
      spawn (Grounds.processes conduct programs) grounds language command directory timeoutMs := by
  unfold spawn
  cases command with
  | nil => exact .pure none _
  | cons program arguments =>
      simp only [Grounds.processes]
      cases programs.resolve program directory with
      | none => exact .pure none _
      | some path =>
          dsimp only
          cases programs.launch path arguments directory with
          | error reason => exact .pure none _
          | ok begun => exact .pure none _

/-- A worker reacts to a line and to nothing else. -/
theorem Channel.local_exchange (channel : Channel σ) (line : Bytes) :
    Local none fun grounds : Grounds ρ =>
      let ran := channel.exchange (Grounds.processes conduct programs) grounds line
      ((ran.1, ran.2.1), ran.2.2) := by
  cases piped : channel.pipes with
  | none =>
      refine ⟨(.error (.workerDead channel.language), channel), fun _ => ?_⟩
      simp [exchange, piped]
  | some pipes =>
      cases ended : hasEnded pipes.pending with
      | true =>
          refine ⟨(.error (.workerDead channel.language), channel.drop), fun _ => ?_⟩
          simp [exchange, piped, ended]
      | false =>
          cases awaited : await channel.timeoutMs pipes.buffered
            (pipes.pending ++ (conduct.receive pipes.worker line).2) with
          | line bytes buffered pending =>
              let kept : Pipes σ := ⟨(conduct.receive pipes.worker line).1, pending, buffered⟩
              refine ⟨(.ok bytes, { channel with pipes := some kept }), fun _ => ?_⟩
              simp [exchange, piped, ended, Grounds.processes, awaited, kept]
          | gone =>
              refine ⟨(.error (.workerDead channel.language), channel.drop), fun _ => ?_⟩
              simp [exchange, piped, ended, Grounds.processes, awaited]
          | late =>
              refine ⟨(.error (.timeout (channel.timeoutMs.getD 0 / 1000)), channel.drop),
                fun _ => ?_⟩
              simp [exchange, piped, ended, Grounds.processes, awaited]

theorem Channel.local_execute (channel : Channel σ) (job : Job) :
    Local none fun grounds : Grounds ρ =>
      let ran := channel.execute (Grounds.processes conduct programs) grounds job
      ((ran.1, ran.2.1), ran.2.2) :=
  (@local_exchange σ ρ conduct programs channel
    (Request.ofJob channel.language job).line).map fun answer =>
      ((answer.1.bind (replyOf answer.2.language)).bind Reply.output, answer.2)

theorem Proxy.local_waitReadyFrom (port : UInt16) (attempt left : Nat) :
    Local (some port) (waitReadyFrom (Grounds.network conduct) port attempt left) := by
  induction left generalizing attempt with
  | zero => exact .pure _ false
  | succ left ih =>
      have tried : Local (some port) fun grounds =>
          (Grounds.network conduct).accepts grounds port (patience attempt) :=
        ⟨fun server => conduct.accepts server (patience attempt), fun _ => rfl⟩
      have step : ∀ accepted : Bool, Local (some port) fun grounds : Grounds ρ =>
          if accepted then (true, grounds)
          else waitReadyFrom (Grounds.network conduct) port (attempt + 1) left grounds := by
        intro accepted
        cases accepted with
        | true => exact .pure _ true
        | false => exact ih (attempt + 1)
      refine (tried.bind step).of_eq fun grounds => ?_
      rw [waitReadyFrom]
      rcases (Grounds.network conduct).accepts grounds port (patience attempt) with ⟨_ | _, _⟩
      · rfl
      · rfl

theorem Proxy.local_execute (proxy : Proxy σ) (job : Job) :
    Local (some proxy.port) fun grounds => proxy.execute (Grounds.network conduct) grounds job :=
  ⟨fun server =>
    let (exchange, server) := conduct.post server (proxy.bodyOf job)
    ((proxy.conclude exchange).bind Reply.output, server), fun _ => rfl⟩

theorem Proxy.local_probe (proxy : Proxy σ) (attempts : Nat) (check : Option ReadyCheck) :
    Local (some proxy.port) (proxy.probe (Grounds.network conduct) attempts check) := by
  have ready : Local (some proxy.port) (proxy.waitReady (Grounds.network conduct) attempts) :=
    local_waitReadyFrom proxy.port 1 attempts
  cases check with
  | none =>
      refine (ready.map fun _ => .ok proxy).of_eq fun grounds => ?_
      unfold probe
      rcases proxy.waitReady (Grounds.network conduct) attempts grounds with ⟨_ | _, _⟩
      · rfl
      · rfl
  | some check =>
      have tested : Local (some proxy.port) (proxy.selfTest (Grounds.network conduct) check) :=
        (proxy.local_execute (checkJob proxy.language check)).map
          fun output => output.bind (judge proxy.language check)
      have step : ∀ accepted : Bool, Local (some proxy.port) fun grounds : Grounds ρ =>
          if accepted then
            (((proxy.selfTest (Grounds.network conduct) check grounds).1.map fun _ => proxy),
              (proxy.selfTest (Grounds.network conduct) check grounds).2)
          else (.ok proxy, grounds) := by
        intro accepted
        cases accepted with
        | true => exact tested.map fun verdict => verdict.map fun _ => proxy
        | false => exact .pure _ _
      refine (ready.bind step).of_eq fun grounds => ?_
      unfold probe
      rcases proxy.waitReady (Grounds.network conduct) attempts grounds with ⟨_ | _, _⟩
      · rfl
      · rfl

theorem Proxy.local_start (language : String) (command : CommandLine) (directory : String)
    (port : UInt16) (timeoutMs : Option Nat) (attempts : Nat) (check : Option ReadyCheck) :
    Local (some port) fun grounds =>
      start (Grounds.processes conduct programs) (Grounds.network conduct) grounds language command
        directory port timeoutMs attempts check := by
  unfold start
  cases command with
  | nil => exact .pure _ _
  | cons program arguments =>
      simp only [Grounds.processes]
      cases programs.resolve program directory with
      | none => exact .pure _ _
      | some path =>
          dsimp only
          cases programs.launch path (arguments.map (fillPort port)) directory with
          | error reason => exact .pure _ _
          | ok begun => exact local_probe ⟨language, port, timeoutMs, some begun.1⟩ attempts check

end Starting

namespace Executor

variable {platform : Platform} {conduct : Conduct σ ρ} {programs : Programs σ} {settings : Settings}

/-- Starting a worker touches no server. -/
theorem local_start_worker (settings : Settings) (name : String) (command : CommandLine)
    (directory : String) (version : Option CommandLine) :
    Local none fun grounds =>
      start (Grounds.environment platform conduct programs) settings grounds
        ⟨name, .worker command directory version⟩ := by
  refine ((@Channel.local_spawn σ ρ conduct programs name command
    (settings.directoryOf directory) settings.timeoutMs?).map fun spawned =>
      match spawned with
      | .ok channel => .worker channel
      | .error _ => .worker (Channel.dead name)).of_eq fun grounds => ?_
  simp only [start, Grounds.environment]
  rcases Channel.spawn (Grounds.processes conduct programs) grounds name command
    (settings.directoryOf directory) settings.timeoutMs? with ⟨_ | _, _⟩
  · rfl
  · rfl

/-- Starting a proxied backend touches at most the server behind its port. -/
theorem local_start_proxied (settings : Settings) (name : String) (command : CommandLine)
    (directory : String) (port : UInt16) (version : Option CommandLine) (check : Option ReadyCheck) :
    Local (some port) fun grounds =>
      start (Grounds.environment platform conduct programs) settings grounds
        ⟨name, .proxied command directory port version check⟩ := by
  refine ((@Proxy.local_start σ ρ conduct programs name command
    (settings.directoryOf directory) port settings.timeoutMs? settings.readyAttempts
    check).map fun started =>
      match started with
      | .ok proxy => .proxied proxy
      | .error reason => .unavailable reason.message).of_eq fun grounds => ?_
  simp only [start, Grounds.environment]
  rcases Proxy.start (Grounds.processes conduct programs) (Grounds.network conduct) grounds name
    command (settings.directoryOf directory) port settings.timeoutMs? settings.readyAttempts
    check with ⟨_ | _, _⟩
  · rfl
  · rfl

/-- Starting a backend touches at most the server behind its port. -/
theorem local_start (settings : Settings) (language : Language) :
    Local language.backend.port? fun grounds =>
      start (Grounds.environment platform conduct programs) settings grounds language := by
  obtain ⟨name, backend⟩ := language
  cases backend with
  | worker command directory version =>
      exact local_start_worker settings name command directory version
  | proxied command directory port version check =>
      exact local_start_proxied settings name command directory port version check
  | ephemeral build => exact .pure none _

/-- Running a job of a backend that is not built touches at most the server behind its port. -/
theorem Suits.local_execute {language : Language} {executor : Executor (Grounds ρ) σ}
    (suits : Suits settings language executor) (platform : Platform) (conduct : Conduct σ ρ)
    (programs : Programs σ) (notBuilt : ∀ build, language.backend ≠ .ephemeral build)
    (runner : Runner) (job : Job) :
    Local language.backend.port? fun grounds =>
      let ran := executor.execute (Grounds.environment platform conduct programs) runner grounds job
      ((ran.1, ran.2.1), ran.2.2.2) := by
  cases suits with
  | @worker name command directory version channel named bounded =>
      have ran : Local none fun grounds : Grounds ρ =>
          let ran := channel.execute (Grounds.processes conduct programs) grounds job
          ((ran.1, ran.2.1), ran.2.2) := channel.local_execute job
      exact (ran.map fun answer => (Verdict.answered answer.1, Executor.worker answer.2)).of_eq
        fun _ => rfl
  | @proxied name command directory port version check proxy named placed bounded =>
      subst placed
      exact ((@Proxy.local_execute σ ρ conduct proxy job).map fun outcome =>
        (Verdict.answered outcome, Executor.proxied proxy)).of_eq fun _ => rfl
  | unavailable reason =>
      let refusal : Verdict := .answered (.error (.backendUnavailable reason))
      exact (Local.pure _ (refusal, Executor.unavailable reason)).of_eq fun _ => rfl
  | ephemeral name build => exact absurd rfl (notBuilt build)

/-- Only a backend that is built has to do with the runner. -/
theorem Suits.execute_runner {language : Language} {executor : Executor (Grounds ρ) σ}
    (suits : Suits settings language executor)
    (notBuilt : ∀ build, language.backend ≠ .ephemeral build)
    (environment : Environment (Grounds ρ) σ) (runner other : Runner) (grounds : Grounds ρ)
    (job : Job) :
    executor.execute environment runner grounds job =
      let ran := executor.execute environment other grounds job
      (ran.1, ran.2.1, runner, ran.2.2.2) := by
  cases suits with
  | worker named bounded => rfl
  | proxied named placed bounded => rfl
  | unavailable reason => rfl
  | ephemeral name build => exact absurd rfl (notBuilt build)

/-- Which programs are installed does not matter to a backend that was started. -/
theorem execute_congr (executor : Executor (Grounds ρ) σ) (other : Programs σ) (runner : Runner)
    (grounds : Grounds ρ) (job : Job) :
    executor.execute (Grounds.environment platform conduct programs) runner grounds job =
      executor.execute (Grounds.environment platform conduct other) runner grounds job := by
  cases executor with
  | worker channel => rfl
  | proxied proxy => rfl
  | unavailable reason => rfl
  | ephemeral build => rfl
  | custom run => rfl

end Executor

/-- The program of a backend is found in the same place and begins in the same way. -/
def Programs.Concur (one : Programs σ) (language : Language) (other : Programs σ) : Prop :=
  ∀ program arguments, language.backend.mainCommand = program :: arguments → ∀ directory,
    one.resolve program directory = other.resolve program directory ∧
    ∀ path given, one.resolve program directory = some path →
      one.launch path given directory = other.launch path given directory

/-- Where the program of a backend begins in the same way, so does the backend. -/
theorem Executor.start_congr {platform : Platform} {conduct : Conduct σ ρ}
    {one other : Programs σ} {language : Language} (concur : one.Concur language other)
    (settings : Settings) (grounds : Grounds ρ) :
    start (Grounds.environment platform conduct one) settings grounds language =
      start (Grounds.environment platform conduct other) settings grounds language := by
  obtain ⟨name, backend⟩ := language
  cases backend with
  | worker command directory version =>
      have spawned : Channel.spawn (Grounds.processes conduct one) grounds name command
          (settings.directoryOf directory) settings.timeoutMs? =
          Channel.spawn (Grounds.processes conduct other) grounds name command
            (settings.directoryOf directory) settings.timeoutMs? := by
        cases command with
        | nil => rfl
        | cons program arguments =>
            obtain ⟨found, begins⟩ := concur program arguments rfl (settings.directoryOf directory)
            simp only [Channel.spawn, Grounds.processes, ← found]
            cases path : one.resolve program (settings.directoryOf directory) with
            | none => rfl
            | some path => simp only [begins _ _ path]
      simp only [start, Grounds.environment, spawned]
  | proxied command directory port version check =>
      have started : Proxy.start (Grounds.processes conduct one) (Grounds.network conduct) grounds
          name command (settings.directoryOf directory) port settings.timeoutMs?
          settings.readyAttempts check =
          Proxy.start (Grounds.processes conduct other) (Grounds.network conduct) grounds name command
            (settings.directoryOf directory) port settings.timeoutMs? settings.readyAttempts check := by
        cases command with
        | nil => rfl
        | cons program arguments =>
            obtain ⟨found, begins⟩ := concur program arguments rfl (settings.directoryOf directory)
            simp only [Proxy.start, Grounds.processes, ← found]
            cases path : one.resolve program (settings.directoryOf directory) with
            | none => rfl
            | some path => simp only [begins _ _ path]
      simp only [start, Grounds.environment, started]
  | ephemeral build => rfl

end Polyglot
