import Polyglot.Envelope
import Polyglot.Environment
import Polyglot.Proxy
import Polyglot.Settings
import Polyglot.Text.Quoted
import Polyglot.Worker

/-!
# Dispatching jobs

Every served language has an executor, and a job is run by the executor whose language
has the same normal form. Whatever happens to a job, the caller receives an envelope:
an executor that crashes is reported like a backend that cannot be reached.

A dispatcher is started from a registry. A backend that does not start keeps its
language served: its worker is dead from the beginning, or every job is answered with
the reason for which its proxied backend was given up.
-/

set_option autoImplicit false

namespace Polyglot

/-- What becomes of a job that an executor was given. -/
inductive Verdict where
  /-- The executor answered. -/
  | answered (outcome : Except Failure String)
  /-- The task that ran the executor crashed with a message. -/
  | crashed (task : Nat) (message : String)

/-- The outcome of a job, of which a crash is a failure. -/
def Verdict.outcome : Verdict → Except Failure String
  | .answered outcome => outcome
  | .crashed task message =>
    .error (.backendUnavailable
      ("job task failed: task " ++ toString task ++ " panicked with message " ++
        Text.quoted message))

/-- What runs the jobs of a language. -/
inductive Executor (ω σ : Type) where
  /-- A channel to a worker process. -/
  | worker (channel : Channel σ)
  /-- A backend behind a port. -/
  | proxied (proxy : Proxy σ)
  /-- A proxied backend that was given up, with the reason. -/
  | unavailable (reason : String)
  /-- A build for every job. -/
  | ephemeral (build : Build)
  /-- Anything else that answers jobs. -/
  | custom (run : ω → Job → Verdict × ω)

namespace Executor

variable {ω σ : Type}

/-- The name of the strategy. -/
def strategy : Executor ω σ → String
  | .worker _ => "persistent_worker"
  | .proxied _ => "proxied_http"
  | .unavailable _ => "unavailable"
  | .ephemeral _ => "ephemeral_build"
  | .custom _ => "custom"

/-- Runs a job; all builds share one runner. -/
def execute (environment : Environment ω σ) (runner : Runner) (executor : Executor ω σ)
    (world : ω) (job : Job) : Verdict × Executor ω σ × Runner × ω :=
  match executor with
  | .worker channel =>
    let (outcome, channel, world) := channel.execute environment.processes world job
    (.answered outcome, .worker channel, runner, world)
  | .proxied proxy =>
    let (outcome, world) := proxy.execute environment.network world job
    (.answered outcome, executor, runner, world)
  | .unavailable reason => (.answered (.error (.backendUnavailable reason)), executor, runner, world)
  | .ephemeral build =>
    let (outcome, runner, world) := environment.build runner world job build
    (.answered outcome, executor, runner, world)
  | .custom run =>
    let (verdict, world) := run world job
    (verdict, executor, runner, world)

/-- Releases the process of an executor. -/
def shutdown (environment : Environment ω σ) (executor : Executor ω σ) (world : ω) :
    Executor ω σ × ω :=
  match executor with
  | .worker channel =>
    let (channel, world) := channel.close environment.processes world
    (.worker channel, world)
  | .proxied proxy =>
    let (proxy, world) := proxy.shutdown environment.processes world
    (.proxied proxy, world)
  | _ => (executor, world)

/-- Starts what runs the jobs of a language. -/
def start (environment : Environment ω σ) (settings : Settings) (world : ω)
    (language : Language) : Executor ω σ × ω :=
  match language.backend with
  | .worker command directory _ =>
    match Channel.spawn environment.processes world language.name command
        (settings.directoryOf directory) settings.timeoutMs? with
    | (.ok channel, world) => (.worker channel, world)
    | (.error _, world) => (.worker (Channel.dead language.name), world)
  | .proxied command directory port _ check =>
    match Proxy.start environment.processes environment.network world language.name command
        (settings.directoryOf directory) port settings.timeoutMs? settings.readyAttempts check with
    | (.ok proxy, world) => (.proxied proxy, world)
    | (.error reason, world) => (.unavailable reason.message, world)
  | .ephemeral build => (.ephemeral build, world)

end Executor

/-- The executors of the served languages. -/
structure Dispatcher (ω σ : Type) where
  /-- The executors under the normal forms of their languages, in increasing order of these. -/
  executors : List (String × Executor ω σ)
  /-- What builds the jobs of all languages that are built. -/
  runner : Runner
  /-- The version that every envelope reports. -/
  serviceVersion : String

namespace Dispatcher

variable {ω σ : Type}

/-- The dispatcher of the given executors; of two for one language the later one stays. -/
def ofList (executors : List (String × Executor ω σ)) (runner : Runner) (serviceVersion : String) :
    Dispatcher ω σ :=
  ⟨Table.ofList (executors.map fun entry => (normalForm entry.1, entry.2)), runner, serviceVersion⟩

/-- Starts the executors of some languages, in order. -/
def startAll (environment : Environment ω σ) (settings : Settings) :
    List Language → ω → List (String × Executor ω σ) × ω
  | [], world => ([], world)
  | language :: languages, world =>
    let (executor, world) := Executor.start environment settings world language
    let (executors, world) := startAll environment settings languages world
    ((language.name, executor) :: executors, world)

/-- Starts the executors of all registered languages. -/
def start (environment : Environment ω σ) (settings : Settings) (registry : Registry) (world : ω) :
    Dispatcher ω σ × ω :=
  let (executors, world) := startAll environment settings registry.toList world
  (ofList executors ⟨settings.workspaceRoot, settings.timeoutMs?, 0⟩ settings.serviceVersion, world)

/-- The normal forms of the served languages, in increasing order. -/
def languages (dispatcher : Dispatcher ω σ) : List String :=
  dispatcher.executors.map (·.1)

/-- Runs a job and answers its output. -/
def run (environment : Environment ω σ) (dispatcher : Dispatcher ω σ) (world : ω) (job : Job) :
    Except Failure String × Dispatcher ω σ × ω :=
  let key := normalForm job.language
  match Table.find? key dispatcher.executors with
  | none => (.error (.unknownLanguage job.language), dispatcher, world)
  | some executor =>
    let (verdict, executor, runner, world) :=
      executor.execute environment dispatcher.runner world job
    (verdict.outcome,
      { dispatcher with
        executors := Table.insert key executor dispatcher.executors
        runner := runner }, world)

/-- The milliseconds between two readings of the clock, as a word of 64 bits. -/
def elapsedMs (before after : Nat) : Nat :=
  (after - before) / 1000 % UInt64.size

/-- Runs a job and answers an envelope, whatever happens. -/
def handle (environment : Environment ω σ) (dispatcher : Dispatcher ω σ) (world : ω) (job : Job) :
    Envelope × Dispatcher ω σ × ω :=
  let (before, world) := environment.clock world
  let (outcome, dispatcher, world) := dispatcher.run environment world job
  let (after, world) := environment.clock world
  (Envelope.ofOutcome (elapsedMs before after) dispatcher.serviceVersion outcome, dispatcher, world)

/-- Releases the processes of some executors, in order. -/
def shutdownAll (environment : Environment ω σ) :
    List (String × Executor ω σ) → ω → List (String × Executor ω σ) × ω
  | [], world => ([], world)
  | (key, executor) :: executors, world =>
    let (executor, world) := executor.shutdown environment world
    let (executors, world) := shutdownAll environment executors world
    ((key, executor) :: executors, world)

/-- Releases the processes of all executors. -/
def shutdown (environment : Environment ω σ) (dispatcher : Dispatcher ω σ) (world : ω) :
    Dispatcher ω σ × ω :=
  let (executors, world) := shutdownAll environment dispatcher.executors world
  ({ dispatcher with executors := executors }, world)

end Dispatcher

end Polyglot
