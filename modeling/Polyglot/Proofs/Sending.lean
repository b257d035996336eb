import Polyglot.Proofs.Messages
import Polyglot.Proofs.Serving

/-!
# What is sent to a backend

The service sends bytes to a backend in two ways: a line to a worker and a body to a port. Every
message can be noted beside the world (`Environment.noting`), which changes nothing else
(`Channel.execute_noting`, `Proxy.execute_noting`).

A job of a language with a long-lived backend makes one message at most (`Executor.messages`), and
the message names the language as it was registered (`Executor.Suits.read_messages`). The spelling
by which a caller names the language chooses the executor and goes no further, so two jobs that
differ in nothing else have the same answer and the same messages, and leave everything in the same
state (`Dispatcher.sends_registered_name`).
-/

set_option autoImplicit false

namespace Polyglot

open Polyglot.Text (Bytes)

variable {ω σ : Type}

/-! ## Messages -/

/-- What the service sends to a backend. -/
inductive Message (σ : Type) where
  /-- A line to the standard input of a worker. -/
  | line (worker : σ) (bytes : Bytes)
  /-- The body of a request to a port. -/
  | body (port : UInt16) (bytes : Bytes)
  deriving DecidableEq

/-- The bytes of a message. -/
def Message.bytes : Message σ → Bytes
  | .line _ bytes => bytes
  | .body _ bytes => bytes

/-- The environment in a world beside which every message is noted, the latest one last. -/
def Environment.noting (environment : Environment ω σ) :
    Environment (ω × List (Message σ)) σ where
  processes :=
    { resolve := fun world => environment.processes.resolve world.1
      launch := fun world program arguments directory => do
        let (after, worker, events) ←
          environment.processes.launch world.1 program arguments directory
        .ok ((after, world.2), worker, events)
      receive := fun world worker bytes =>
        let (after, worker', events) := environment.processes.receive world.1 worker bytes
        ((after, world.2 ++ [.line worker bytes]), worker', events)
      finish := fun world worker =>
        let (after, worker, events) := environment.processes.finish world.1 worker
        ((after, world.2), worker, events) }
  network :=
    { accepts := fun world port patience =>
        let (accepted, after) := environment.network.accepts world.1 port patience
        (accepted, (after, world.2))
      post := fun world port body =>
        let (exchange, after) := environment.network.post world.1 port body
        (exchange, (after, world.2 ++ [.body port body])) }
  run world program arguments directory :=
    let (outcome, after) := environment.run world.1 program arguments directory
    (outcome, (after, world.2))
  build runner world job build :=
    let (outcome, runner, after) := environment.build runner world.1 job build
    (outcome, runner, (after, world.2))
  clock world :=
    let (time, after) := environment.clock world.1
    (time, (after, world.2))

/-- The message that a channel makes of a line: none when its worker is known to be gone. -/
def Channel.messages (channel : Channel σ) (line : Bytes) : List (Message σ) :=
  match channel.pipes with
  | some pipes => if hasEnded pipes.pending then [] else [.line pipes.worker line]
  | none => []

/-- The messages that a job makes when an executor with a long-lived backend runs it. -/
def Executor.messages (job : Job) : Executor ω σ → List (Message σ)
  | .worker channel => channel.messages (Request.ofJob channel.language job).line
  | .proxied proxy => [.body proxy.port (proxy.bodyOf job)]
  | _ => []

/-! ## Messages are noted -/

section Noting

variable (environment : Environment ω σ) (world : ω) (noted : List (Message σ))

theorem Channel.exchange_noting (channel : Channel σ) (line : Bytes) :
    channel.exchange environment.noting.processes (world, noted) line =
      let plain := channel.exchange environment.processes world line
      (plain.1, plain.2.1, plain.2.2, noted ++ channel.messages line) := by
  unfold exchange messages
  cases channel.pipes with
  | none => simp
  | some pipes =>
      cases gone : hasEnded pipes.pending with
      | true => simp [gone]
      | false =>
          simp only [gone, Environment.noting, Bool.false_eq_true, if_false]
          split <;> rfl

/-- A channel answers a job as ever, and its message is noted. -/
theorem Channel.execute_noting (channel : Channel σ) (job : Job) :
    channel.execute environment.noting.processes (world, noted) job =
      let plain := channel.execute environment.processes world job
      (plain.1, plain.2.1, plain.2.2,
        noted ++ channel.messages (Request.ofJob channel.language job).line) := by
  simp only [execute, submit, exchange_noting]

/-- A proxied backend answers a job as ever, and its message is noted. -/
theorem Proxy.execute_noting (proxy : Proxy σ) (job : Job) :
    proxy.execute environment.noting.network (world, noted) job =
      let plain := proxy.execute environment.network world job
      (plain.1, plain.2, noted ++ [.body proxy.port (proxy.bodyOf job)]) :=
  rfl

end Noting

namespace Executor.Suits

variable {settings : Settings} {name : String} {backend : Backend}

/-- What is noted of a job are the messages that it makes. -/
theorem noted_execute {executor : Executor (ω × List (Message σ)) σ}
    (suits : Suits settings ⟨name, backend⟩ executor)
    (longLived : ∀ build, backend ≠ .ephemeral build) (environment : Environment ω σ)
    (runner : Runner) (world : ω) (noted : List (Message σ)) (job : Job) :
    (executor.execute environment.noting runner (world, noted) job).2.2.2.2 =
      noted ++ executor.messages job := by
  cases suits with
  | worker named bounded =>
      rw [Executor.execute, Channel.execute_noting]
      rfl
  | proxied named placed bounded =>
      rw [Executor.execute, Proxy.execute_noting]
      rfl
  | unavailable reason => exact (List.append_nil noted).symm
  | ephemeral name build => exact absurd rfl (longLived build)

variable {executor : Executor ω σ}

/-- Every message holds the job under the name of the language. -/
theorem read_messages (suits : Suits settings ⟨name, backend⟩ executor) (job : Job) :
    ∀ message ∈ executor.messages job,
      Request.read message.bytes = .ok (Request.ofJob name job) := by
  intro message member
  cases suits with
  | @worker _ _ _ _ channel named bounded =>
      subst named
      simp only [messages, Channel.messages] at member
      split at member
      · split at member
        · cases member
        · rw [List.mem_singleton.mp member]
          exact Request.read_line _
      · cases member
  | proxied named placed bounded =>
      subst named
      rw [List.mem_singleton.mp member]
      simp only [Message.bytes, Proxy.bodyOf]
      exact Request.read_render _
  | unavailable reason => cases member
  | ephemeral name build => cases member

/-- An executor with a long-lived backend does not look at the spelling of the language. -/
theorem execute_spelling (suits : Suits settings ⟨name, backend⟩ executor)
    (longLived : ∀ build, backend ≠ .ephemeral build) (environment : Environment ω σ)
    (runner : Runner) (world : ω) (job : Job) (spelling : String) :
    executor.execute environment runner world { job with language := spelling } =
      executor.execute environment runner world job := by
  cases suits with
  | worker named bounded => rfl
  | proxied named placed bounded => rfl
  | unavailable reason => rfl
  | ephemeral name build => exact absurd rfl (longLived build)

end Executor.Suits

namespace Dispatcher

variable {environment : Environment ω σ} {settings : Settings} {registry : Registry}
variable {languages : List (String × Backend)} {name : String} {backend : Backend}

/-- There is an executor for every language that was registered, under the name without blanks
at its ends. -/
theorem Serves.exists_executor {dispatcher : Dispatcher ω σ} (enrols : registry.Enrols languages)
    (serves : Serves environment settings registry dispatcher)
    (listed : (name, backend) ∈ languages) : ∃ executor,
    Table.find? (normalForm name) dispatcher.executors = some executor ∧
      executor.Suits settings ⟨Text.trim name, backend⟩ := by
  obtain ⟨executor, found, working⟩ := serves.exists_of_mem enrols (enrols.mem_entries listed)
  exact ⟨executor, found, working.suits⟩

/-- **The spelling of a caller reaches no long-lived backend.** Two jobs that differ only in the
spelling of a registered language are run alike: they have the same answer, leave the dispatcher
and the world the same and make the same messages. There is at most one message, and it holds
the job under the name with which the language was registered, without the blanks at its ends. -/
theorem sends_registered_name (made : Registry.ofList languages = .ok registry)
    (listed : (name, backend) ∈ languages) (longLived : ∀ build, backend ≠ .ephemeral build)
    {dispatcher : Dispatcher (ω × List (Message σ)) σ}
    (reached : Reached environment.noting settings registry dispatcher) {job : Job}
    {spelling : String} (form : normalForm job.language = normalForm name)
    (otherForm : normalForm spelling = normalForm name) (world : ω) (noted : List (Message σ)) :
    let other := { job with language := spelling }
    dispatcher.run environment.noting (world, noted) other =
      dispatcher.run environment.noting (world, noted) job ∧
    dispatcher.handle environment.noting (world, noted) other =
      dispatcher.handle environment.noting (world, noted) job ∧
    ∃ executor, Table.find? (normalForm name) dispatcher.executors = some executor ∧
      executor.Suits settings ⟨Text.trim name, backend⟩ ∧
      (dispatcher.run environment.noting (world, noted) job).2.2.2 =
        noted ++ executor.messages job ∧
      (executor.messages job).length ≤ 1 ∧
      ∀ message ∈ executor.messages job, Request.read message.bytes =
        .ok ⟨"compile", Text.trim name, job.code, job.library, job.entryClass, job.entryMethod⟩ := by
  have enrols := Registry.enrols_of_ofList made
  obtain ⟨executor, found, suits⟩ := (reached.serves enrols).exists_executor enrols listed
  have runs (start : ω × List (Message σ)) (request : Job)
      (same : normalForm request.language = normalForm name) :=
    @run_of_find? _ _ environment.noting dispatcher executor request (same ▸ found) start
  have alike (start : ω × List (Message σ)) :
      dispatcher.run environment.noting start { job with language := spelling } =
        dispatcher.run environment.noting start job := by
    rw [runs start job form, runs start { job with language := spelling } otherForm]
    simp only [suits.execute_spelling longLived, form, otherForm]
  refine ⟨alike _, ?_, executor, found, suits, ?_, ?_, suits.read_messages job⟩
  · simp only [handle, alike]
  · rw [runs _ job form]
    exact suits.noted_execute longLived environment dispatcher.runner world noted job
  · cases executor with
    | worker channel =>
        simp only [Executor.messages, Channel.messages]
        repeat' split
        all_goals simp
    | _ => simp [Executor.messages]

/-- Workers that start and never answer, and a network on which every port is open. -/
def listening : Environment Unit Unit where
  processes :=
    { resolve := fun _ program _ => some program
      launch := fun _ _ _ _ => .ok ((), (), [])
      receive := fun _ _ _ => ((), (), [])
      finish := fun _ _ => ((), (), []) }
  network :=
    { accepts := fun _ _ _ => (true, ())
      post := fun _ _ _ => (⟨.complete 200 [], some 0⟩, ()) }
  run _ _ _ _ := (.error .notFound, ())
  build runner _ _ _ := (.error (.workspace ""), runner, ())
  clock _ := (0, ())

/-- A language with a blank at both ends of its name and letters in both cases. -/
def typed : List (String × Backend) :=
  [(" TypeScript\u3000", .worker ["tsc"] "ts" none)]

/-- The registry of that language. -/
def typedRegistry : Registry :=
  ⟨[("typescript", ⟨"TypeScript", .worker ["tsc"] "ts" none⟩)]⟩

/-- The dispatcher of that language. -/
def typedDispatcher : Dispatcher (Unit × List (Message Unit)) Unit :=
  (start listening.noting .standard typedRegistry ((), [])).1

/-- Its executor is a channel to a worker that waits. -/
theorem executors_typedDispatcher : typedDispatcher.executors =
    [("typescript", .worker ⟨"TypeScript", some 30000, some ⟨(), [], []⟩⟩)] := by
  have form : normalForm "TypeScript" = "typescript" := by decide +kernel
  simp only [typedDispatcher, start, typedRegistry, Registry.toList, List.map_cons, List.map_nil,
    startAll, ofList, form]
  rfl

/-- Under two spellings of that language the worker receives the same line, once. -/
theorem sends_registered_name_typed :
    let job : Job := ⟨"typescript", "x", "", "", ""⟩
    let other : Job := { job with language := "\tTYPESCRIPT " }
    let line := (Request.ofJob "TypeScript" job).line
    (typedDispatcher.run listening.noting ((), []) other).2.2.2 = [.line () line] ∧
    (typedDispatcher.run listening.noting ((), []) job).2.2.2 = [.line () line] ∧
    Request.read line = .ok ⟨"compile", "TypeScript", "x", "", "", ""⟩ := by
  intro job other line
  have made : Registry.ofList typed = .ok typedRegistry := by decide +kernel
  have reached : Reached listening.noting .standard typedRegistry typedDispatcher := .started _
  have form : normalForm " TypeScript\u3000" = "typescript" := by decide +kernel
  have lower : normalForm "typescript" = "typescript" := by decide +kernel
  have upper : normalForm "\tTYPESCRIPT " = "typescript" := by decide +kernel
  have trimmed : Text.trim " TypeScript\u3000" = "TypeScript" := by decide +kernel
  obtain ⟨alike, _, executor, found, _, noted, _, reads⟩ :=
    @sends_registered_name _ _ listening .standard _ _ _ _ made (List.mem_singleton_self _)
      (by rintro build ⟨⟩) _ reached job "\tTYPESCRIPT " (lower.trans form.symm)
      (upper.trans form.symm) () []
  rw [executors_typedDispatcher, form] at found
  obtain rfl : Executor.worker ⟨"TypeScript", some 30000, some ⟨(), [], []⟩⟩ = executor :=
    Option.some.inj found
  simp only [Executor.messages, Channel.messages, hasEnded, Bool.false_eq_true, if_false,
    List.nil_append, trimmed, List.mem_singleton, forall_eq, Message.bytes] at noted reads
  exact ⟨(congrArg (·.2.2.2) alike).trans noted, noted, reads⟩

end Dispatcher

end Polyglot
