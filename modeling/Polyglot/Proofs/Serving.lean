import Polyglot.Dispatcher
import Polyglot.Proofs.Exchange
import Polyglot.Proofs.Failures
import Polyglot.Proofs.Registration

/-!
# Every registered language has an executor

A dispatcher is started with one executor for every language of its registry, whether or not
the backend of the language starts: a worker that does not start is dead, and a proxied
backend that does not start has a stand-in. Running jobs and releasing processes change
what an executor knows, but neither its kind nor the language it was started for
(`Executor.Serves`), and no executor is added or dropped (`Dispatcher.Serves`), so every
registered language keeps one of its own (`Dispatcher.Serves.exists_of_mem`).

No executor answers that a language is unknown (`Executor.Serves.knows_execute`), so that
answer means that there is no executor for the language, which is what the registry says too.
-/

set_option autoImplicit false

namespace Polyglot

open Polyglot.Host (Tree)
open Polyglot.Http (Network)

/-! ## Answers that do not concern the name of a language -/

/-- The answer is not that a language is unknown. -/
def Knows {α : Type} (answer : Except Failure α) : Prop :=
  ∀ name, answer ≠ .error (.unknownLanguage name)

/-- An answer that fails with other codes does not concern the name of a language. -/
theorem FailsWith.knows {α : Type} {codes : List String} {answer : Except Failure α}
    (fails : FailsWith codes answer) (unlisted : "unknown_language" ∉ codes) : Knows answer :=
  fun _ failed => unlisted (fails _ failed)

/-- A run does not report that a language is unknown. -/
theorem Runner.knows_run (platform : Host.Platform) (runner : Runner) (clock : Nat) (tree : Tree)
    (job : Job) (build : Build) : Knows (runner.run platform clock tree job build).1 := by
  cases command : build.command with
  | nil =>
      rw [run, command]
      rintro name ⟨⟩
  | cons program arguments =>
      have commanded : build.command ≠ [] := by simp [command]
      exact (failsWith_run platform runner clock tree job commanded).knows
        (by simp [Backend.failureCodes])

variable {ω σ : Type} {environment : Environment ω σ} {settings : Settings}

/-- Jobs are built by the runner, on some machine. -/
def Environment.BuildsByRunner (environment : Environment ω σ) : Prop :=
  ∀ (runner : Runner) (world : ω) (job : Job) (build : Build),
    ∃ (platform : Host.Platform) (clock : Nat) (tree : Tree),
      (environment.build runner world job build).1 = (runner.run platform clock tree job build).1

theorem World.buildsByRunner {ν : Type} (platform : Host.Platform) (servers : Network ν) :
    (World.environment platform servers).BuildsByRunner := by
  intro runner world job build
  exact ⟨platform, world.time, world.tree, rfl⟩

/-! ## What an executor was started for -/

namespace Executor

variable {language : Language} {executor : Executor ω σ}

/-- An executor was started for a language, in some world, and then only did its work. -/
inductive Serves (environment : Environment ω σ) (settings : Settings) (language : Language) :
    Executor ω σ → Prop where
  | started (world : ω) :
      Serves environment settings language (start environment settings world language).1
  | worked {executor : Executor ω σ} (runner : Runner) (world : ω) (job : Job)
      (serves : Serves environment settings language executor) :
      Serves environment settings language (executor.execute environment runner world job).2.1
  | released {executor : Executor ω σ} (world : ω)
      (serves : Serves environment settings language executor) :
      Serves environment settings language (executor.shutdown environment world).1

/-- An executor is of the kind that the backend of a language asks for. The channel to a
worker may be live or dead, and a stand-in may be there in the place of a proxied backend. -/
inductive Suits (settings : Settings) : Language → Executor ω σ → Prop where
  | worker {name : String} {command : CommandLine} {directory : String}
      {version : Option CommandLine} {channel : Channel σ} (named : channel.language = name)
      (bounded : channel.isLive = true → channel.timeoutMs = settings.timeoutMs?) :
      Suits settings ⟨name, .worker command directory version⟩ (.worker channel)
  | proxied {name : String} {command : CommandLine} {directory : String} {port : UInt16}
      {version : Option CommandLine} {check : Option ReadyCheck} {proxy : Proxy σ}
      (named : proxy.language = name) (placed : proxy.port = port)
      (bounded : proxy.timeoutMs = settings.timeoutMs?) :
      Suits settings ⟨name, .proxied command directory port version check⟩ (.proxied proxy)
  | unavailable {name : String} {command : CommandLine} {directory : String} {port : UInt16}
      {version : Option CommandLine} {check : Option ReadyCheck} (reason : String) :
      Suits settings ⟨name, .proxied command directory port version check⟩ (.unavailable reason)
  | ephemeral (name : String) (build : Build) :
      Suits settings ⟨name, .ephemeral build⟩ (.ephemeral build)

end Executor

/-- A worker that starts is behind a live channel with the name and the bound it was given. -/
theorem Channel.spawn_ok {processes : Processes ω σ} {world after : ω} {language : String}
    {command : CommandLine} {directory : String} {timeoutMs : Option Nat} {channel : Channel σ}
    (spawned : spawn processes world language command directory timeoutMs = (.ok channel, after)) :
    channel.language = language ∧ channel.timeoutMs = timeoutMs := by
  unfold spawn at spawned
  split at spawned
  · cases spawned
  · split at spawned
    · cases spawned
    · split at spawned
      · cases spawned
      · cases spawned
        exact ⟨rfl, rfl⟩

theorem exists_of_map_eq_ok {α β : Type} {answer : Except Failure α} {next : α → β} {result : β}
    (mapped : answer.map next = .ok result) : ∃ value, answer = .ok value ∧ next value = result := by
  cases answer with
  | ok value => exact ⟨value, rfl, Except.ok.inj mapped⟩
  | error failure => cases mapped

theorem Proxy.probe_ok {network : Network ω} {proxy ready : Proxy σ} {attempts : Nat}
    {check : Option ReadyCheck} {world after : ω}
    (probed : proxy.probe network attempts check world = (.ok ready, after)) : ready = proxy := by
  unfold probe at probed
  split at probed
  · obtain ⟨verdict, _⟩ := Prod.mk.inj probed
    obtain ⟨_, _, same⟩ := exists_of_map_eq_ok verdict
    exact same.symm
  · cases probed
    rfl

/-- A proxied backend that starts has the name, the port and the bound it was given. -/
theorem Proxy.start_ok {processes : Processes ω σ} {network : Network ω} {world after : ω}
    {language : String} {command : CommandLine} {directory : String} {port : UInt16}
    {timeoutMs : Option Nat} {attempts : Nat} {check : Option ReadyCheck} {proxy : Proxy σ}
    (started : start processes network world language command directory port timeoutMs attempts
      check = (.ok proxy, after)) :
    proxy.language = language ∧ proxy.port = port ∧ proxy.timeoutMs = timeoutMs := by
  unfold start at started
  split at started
  · cases started
  · split at started
    · cases started
    · split at started
      · cases started
      · obtain rfl := probe_ok started
        exact ⟨rfl, rfl, rfl⟩

/-- An exchange keeps the bound of the channel. -/
theorem Channel.exchange_timeoutMs {processes : Processes ω σ} {channel : Channel σ} {world : ω}
    {line : Text.Bytes} :
    (channel.exchange processes world line).2.1.timeoutMs = channel.timeoutMs := by
  simp only [exchange]
  repeat' split
  all_goals rfl

namespace Executor

variable {language : Language} {executor : Executor ω σ}

theorem Suits.start (environment : Environment ω σ) (world : ω) (language : Language) :
    Suits settings language (Executor.start environment settings world language).1 := by
  obtain ⟨name, backend⟩ := language
  cases backend with
  | worker command directory version =>
      simp only [Executor.start]
      split
      · rename_i spawned
        obtain ⟨named, bounded⟩ := Channel.spawn_ok spawned
        exact .worker named fun _ => bounded
      · exact .worker rfl nofun
  | proxied command directory port version check =>
      simp only [Executor.start]
      split
      · rename_i started
        obtain ⟨named, placed, bounded⟩ := Proxy.start_ok started
        exact .proxied named placed bounded
      · exact .unavailable _
  | ephemeral build => exact .ephemeral name build

theorem Suits.execute (suits : Suits settings language executor) (environment : Environment ω σ)
    (runner : Runner) (world : ω) (job : Job) :
    Suits settings language (executor.execute environment runner world job).2.1 := by
  cases suits with
  | worker named bounded =>
      refine .worker (Channel.exchange_language.trans named) fun live => ?_
      exact Channel.exchange_timeoutMs.trans (bounded (Channel.isLive_of_exchange live))
  | proxied named placed bounded => exact .proxied named placed bounded
  | unavailable reason => exact .unavailable reason
  | ephemeral name build => exact .ephemeral name build

theorem Suits.shutdown (suits : Suits settings language executor)
    (environment : Environment ω σ) (world : ω) :
    Suits settings language (executor.shutdown environment world).1 := by
  cases suits with
  | worker named bounded =>
      simp only [Executor.shutdown, Channel.close]
      split
      · exact .worker named bounded
      · exact .worker named nofun
  | proxied named placed bounded =>
      simp only [Executor.shutdown, Proxy.shutdown]
      split
      · exact .proxied named placed bounded
      · exact .proxied named placed bounded
  | unavailable reason => exact .unavailable reason
  | ephemeral name build => exact .ephemeral name build

/-- An executor stays of the kind that its language asks for. -/
theorem Serves.suits (serves : Serves environment settings language executor) :
    Suits settings language executor := by
  induction serves with
  | started world => exact .start environment world language
  | worked runner world job _ ih => exact ih.execute environment runner world job
  | released world _ ih => exact ih.shutdown environment world

/-- An executor that was started for a language does not answer that the language is unknown. -/
theorem Serves.knows_execute (serves : Serves environment settings language executor)
    (builds : environment.BuildsByRunner) (runner : Runner) (world : ω) (job : Job) :
    Knows (executor.execute environment runner world job).1.outcome := by
  cases serves.suits with
  | worker _ _ =>
      exact (Channel.failsWith_execute environment.processes _ world job).knows (by simp)
  | proxied _ _ _ =>
      exact (Proxy.failsWith_execute environment.network _ world job).knows (by simp)
  | unavailable reason => rintro name ⟨⟩
  | ephemeral name build =>
      obtain ⟨platform, clock, tree, same⟩ := builds runner world job build
      have known := Runner.knows_run platform runner clock tree job build
      rwa [← same] at known

end Executor

/-! ## Dispatchers -/

/-- The built-in languages agree, so their registry is made as every other one. -/
theorem Builtin.ofList_languages : Registry.ofList languages = .ok registry := by
  decide +kernel

namespace Dispatcher

variable {languages : List (String × Backend)} {registry : Registry}
variable {dispatcher : Dispatcher ω σ}

/-- A dispatcher was started from a registry, in some world, and then ran jobs and released
its processes any number of times. -/
inductive Reached (environment : Environment ω σ) (settings : Settings) (registry : Registry) :
    Dispatcher ω σ → Prop where
  | started (world : ω) :
      Reached environment settings registry (start environment settings registry world).1
  | ran {dispatcher : Dispatcher ω σ} (world : ω) (job : Job)
      (reached : Reached environment settings registry dispatcher) :
      Reached environment settings registry (dispatcher.run environment world job).2.1
  | released {dispatcher : Dispatcher ω σ} (world : ω)
      (reached : Reached environment settings registry dispatcher) :
      Reached environment settings registry (dispatcher.shutdown environment world).1

/-- A dispatcher has one executor for every language of a registry, and no others. -/
structure Serves (environment : Environment ω σ) (settings : Settings) (registry : Registry)
    (dispatcher : Dispatcher ω σ) : Prop where
  names : dispatcher.languages = registry.entries.map (·.1)
  served : ∀ entry ∈ dispatcher.executors, ∃ language,
    (entry.1, language) ∈ registry.entries ∧ entry.2.Serves environment settings language

/-- The executors that are started are named as their languages are. -/
theorem map_fst_startAll (environment : Environment ω σ) (settings : Settings)
    (languages : List Language) (world : ω) :
    (startAll environment settings languages world).1.map (·.1) = languages.map (·.name) := by
  induction languages generalizing world with
  | nil => rfl
  | cons language languages ih => exact congrArg (language.name :: ·) (ih _)

/-- Every executor that is started serves the language whose name it has. -/
theorem exists_of_mem_startAll {languages : List Language} {world : ω}
    {entry : String × Executor ω σ}
    (member : entry ∈ (startAll environment settings languages world).1) :
    ∃ language ∈ languages, entry.1 = language.name ∧
      entry.2.Serves environment settings language := by
  induction languages generalizing world with
  | nil => cases member
  | cons language languages ih =>
      rcases List.mem_cons.mp member with rfl | later
      · exact ⟨language, List.mem_cons_self, rfl, .started world⟩
      · obtain ⟨other, among, named⟩ := ih later
        exact ⟨other, List.mem_cons_of_mem _ among, named⟩

theorem map_fst_shutdownAll (environment : Environment ω σ)
    (executors : List (String × Executor ω σ)) (world : ω) :
    (shutdownAll environment executors world).1.map (·.1) = executors.map (·.1) := by
  induction executors generalizing world with
  | nil => rfl
  | cons entry executors ih => exact congrArg (entry.1 :: ·) (ih _)

theorem exists_of_mem_shutdownAll {executors : List (String × Executor ω σ)} {world : ω}
    {entry : String × Executor ω σ}
    (member : entry ∈ (shutdownAll environment executors world).1) :
    ∃ former ∈ executors, ∃ before, entry.1 = former.1 ∧
      entry.2 = (former.2.shutdown environment before).1 := by
  induction executors generalizing world with
  | nil => cases member
  | cons first executors ih =>
      rcases List.mem_cons.mp member with rfl | later
      · exact ⟨first, List.mem_cons_self, world, rfl, rfl⟩
      · obtain ⟨former, among, same⟩ := ih later
        exact ⟨former, List.mem_cons_of_mem _ among, same⟩

/-- The executors that are started come in the order of the registry, so none replaces another. -/
theorem executors_start (enrols : registry.Enrols languages) (environment : Environment ω σ)
    (settings : Settings) (world : ω) :
    (start environment settings registry world).1.executors =
        ((startAll environment settings registry.toList world).1.map
          fun entry => (normalForm entry.1, entry.2)) ∧
      (start environment settings registry world).1.languages = registry.entries.map (·.1) := by
  have names : ((startAll environment settings registry.toList world).1.map
      fun entry => (normalForm entry.1, entry.2)).map (·.1) = registry.entries.map (·.1) := by
    have named := map_fst_startAll environment settings registry.toList world
    have forms := congrArg (List.map normalForm) named
    rw [List.map_map, List.map_map] at forms
    rw [List.map_map, ← enrols.map_normalForm]
    exact forms
  have increasing := List.pairwise_map.mpr enrols.ordered
  rw [← names] at increasing
  have table := Table.ofList_of_ordered (List.pairwise_map.mp increasing)
  refine ⟨table, Eq.trans ?_ names⟩
  exact congrArg (List.map (·.1)) table

namespace Serves

theorem ordered (enrols : registry.Enrols languages)
    (serves : Serves environment settings registry dispatcher) :
    Table.Ordered dispatcher.executors := by
  have names := List.pairwise_map.mpr enrols.ordered
  rw [← serves.names] at names
  exact List.pairwise_map.mp names

/-- A dispatcher that is started serves its registry, whatever becomes of the backends. -/
theorem start (enrols : registry.Enrols languages) (environment : Environment ω σ)
    (settings : Settings) (world : ω) :
    Serves environment settings registry
      (Dispatcher.start environment settings registry world).1 := by
  obtain ⟨executors, names⟩ := executors_start enrols environment settings world
  refine ⟨names, fun entry member => ?_⟩
  rw [executors] at member
  obtain ⟨begun, among, rfl⟩ := List.mem_map.mp member
  obtain ⟨language, listed, named, serves⟩ := exists_of_mem_startAll among
  obtain ⟨⟨key, held⟩, registered, rfl⟩ := List.mem_map.mp listed
  have form := enrols.fst_eq registered
  refine ⟨held, ?_, serves⟩
  rwa [named, ← form]

/-- What is found under a name serves the language that is registered under it. -/
theorem exists_of_find? (serves : Serves environment settings registry dispatcher) {key : String}
    {executor : Executor ω σ} (found : Table.find? key dispatcher.executors = some executor) :
    ∃ language, (key, language) ∈ registry.entries ∧
      executor.Serves environment settings language :=
  serves.served _ (Table.mem_of_find? found)

/-- There is an executor exactly for the languages that are registered. -/
theorem find?_eq_none_iff (serves : Serves environment settings registry dispatcher)
    (key : String) :
    Table.find? key dispatcher.executors = none ↔ Table.find? key registry.entries = none := by
  have names : dispatcher.executors.map (·.1) = registry.entries.map (·.1) := serves.names
  rw [Table.find?_eq_none_iff_not_mem, Table.find?_eq_none_iff_not_mem, names]

/-- Every language that is registered has an executor that serves it. -/
theorem exists_of_mem (enrols : registry.Enrols languages)
    (serves : Serves environment settings registry dispatcher) {key : String}
    {language : Language} (registered : (key, language) ∈ registry.entries) :
    ∃ executor, Table.find? key dispatcher.executors = some executor ∧
      executor.Serves environment settings language := by
  cases found : Table.find? key dispatcher.executors with
  | none =>
      have absent := (serves.find?_eq_none_iff key).mp found
      exact absurd rfl (Table.find?_eq_none_iff.mp absent _ registered)
  | some executor =>
      obtain ⟨held, among, working⟩ := serves.exists_of_find? found
      obtain rfl := enrols.ordered.eq_of_mem among registered
      exact ⟨executor, rfl, working⟩

theorem run (enrols : registry.Enrols languages)
    (serves : Serves environment settings registry dispatcher) (world : ω) (job : Job) :
    Serves environment settings registry (dispatcher.run environment world job).2.1 := by
  simp only [Dispatcher.run]
  split
  · exact serves
  · rename_i executor found
    obtain ⟨language, registered, working⟩ := serves.exists_of_find? found
    refine ⟨?_, fun entry member => ?_⟩
    · exact (Table.map_fst_insert_of_find? (serves.ordered enrols) found).trans serves.names
    · rcases Table.mem_insert member with rfl | former
      · exact ⟨language, registered, working.worked dispatcher.runner world job⟩
      · exact serves.served entry former

theorem shutdown (serves : Serves environment settings registry dispatcher) (world : ω) :
    Serves environment settings registry (dispatcher.shutdown environment world).1 := by
  refine ⟨(map_fst_shutdownAll environment _ world).trans serves.names, fun entry member => ?_⟩
  obtain ⟨former, among, before, named, same⟩ := exists_of_mem_shutdownAll member
  obtain ⟨language, registered, working⟩ := serves.served former among
  rw [named, same]
  exact ⟨language, registered, working.released before⟩

end Serves

/-- A dispatcher serves the registry that it was started from for as long as it exists. -/
theorem Reached.serves (enrols : registry.Enrols languages)
    (reached : Reached environment settings registry dispatcher) :
    Serves environment settings registry dispatcher := by
  induction reached with
  | started world => exact .start enrols environment settings world
  | ran world job _ ih => exact ih.run enrols world job
  | released world _ ih => exact ih.shutdown world

/-- A job whose language has an executor is run by it. -/
theorem run_of_find? {executor : Executor ω σ} {job : Job}
    (found : Table.find? (normalForm job.language) dispatcher.executors = some executor)
    (world : ω) :
    dispatcher.run environment world job =
      let ran := executor.execute environment dispatcher.runner world job
      (ran.1.outcome,
        { dispatcher with
          executors := Table.insert (normalForm job.language) ran.2.1 dispatcher.executors
          runner := ran.2.2.1 }, ran.2.2.2) := by
  simp only [run, found]

/-- A job whose language has no executor changes nothing. -/
theorem run_of_find?_eq_none {job : Job}
    (absent : Table.find? (normalForm job.language) dispatcher.executors = none) (world : ω) :
    dispatcher.run environment world job =
      (.error (.unknownLanguage job.language), dispatcher, world) := by
  simp only [run, absent]

theorem serviceVersion_run (environment : Environment ω σ) (dispatcher : Dispatcher ω σ)
    (world : ω) (job : Job) :
    (dispatcher.run environment world job).2.1.serviceVersion = dispatcher.serviceVersion := by
  simp only [run]
  split
  · rfl
  · rfl

/-- A job is answered with the outcome of its run, which begins after the clock was read. -/
theorem fst_handle (environment : Environment ω σ) (dispatcher : Dispatcher ω σ) (world : ω)
    (job : Job) :
    let ran := dispatcher.run environment (environment.clock world).2 job
    (dispatcher.handle environment world job).1 =
      .ofOutcome (elapsedMs (environment.clock world).1 (environment.clock ran.2.2).1)
        dispatcher.serviceVersion ran.1 := by
  simp only [handle, serviceVersion_run]

/-- **A dispatcher serves what its registry resolves.** A job is answered with an unknown
language exactly when the registry does not know the language, with the name that the
registry reports, and then nothing changes. Every other job is run by the executor that
was started for the language that the registry finds, and that is still of the kind its
backend asks for. The languages that are listed are the normal forms of the registered
names, in their order and each once. -/
theorem serves_resolved (made : Registry.ofList languages = .ok registry)
    (builds : environment.BuildsByRunner)
    (reached : Reached environment settings registry dispatcher) :
    (∀ world job name,
      (dispatcher.run environment world job).1 = .error (.unknownLanguage name) ↔
        registry.resolve job.language = .error (.unknownLanguage name)) ∧
    (∀ world job reason, registry.resolve job.language = .error reason →
      dispatcher.run environment world job = (.error reason, dispatcher, world)) ∧
    (∀ job backend, registry.resolve job.language = .ok backend → ∃ name executor,
      ⟨name, backend⟩ ∈ registry.toList ∧ normalForm name = normalForm job.language ∧
      Table.find? (normalForm job.language) dispatcher.executors = some executor ∧
      executor.Serves environment settings ⟨name, backend⟩ ∧
      executor.Suits settings ⟨name, backend⟩ ∧
      ∀ world, dispatcher.run environment world job =
        let ran := executor.execute environment dispatcher.runner world job
        (ran.1.outcome,
          { dispatcher with
            executors := Table.insert (normalForm job.language) ran.2.1 dispatcher.executors
            runner := ran.2.2.1 }, ran.2.2.2)) ∧
    dispatcher.languages = (registry.toList.map fun language => normalForm language.name) ∧
    dispatcher.languages.Nodup := by
  have enrols := Registry.enrols_of_ofList made
  have serves := reached.serves enrols
  have listed : dispatcher.languages = registry.toList.map fun language => normalForm language.name :=
    serves.names.trans enrols.map_normalForm.symm
  refine ⟨fun world job name => ?_, fun world job reason refused => ?_,
    fun job backend resolved => ?_, listed, (serves.ordered enrols).nodup⟩
  · cases found : Table.find? (normalForm job.language) dispatcher.executors with
    | none =>
        have unknown := (serves.find?_eq_none_iff _).mp found
        simp only [run_of_find?_eq_none found, Registry.resolve, unknown, Except.error.injEq]
    | some executor =>
        obtain ⟨language, registered, working⟩ := serves.exists_of_find? found
        have known := (Table.find?_eq_some_iff enrols.ordered).mpr registered
        simp only [run_of_find? found, Registry.resolve, known, reduceCtorEq, iff_false]
        exact working.knows_execute builds dispatcher.runner world job name
  · cases known : Table.find? (normalForm job.language) registry.entries with
    | none =>
        rw [Registry.resolve, known] at refused
        cases refused
        exact run_of_find?_eq_none ((serves.find?_eq_none_iff _).mpr known) world
    | some language =>
        rw [Registry.resolve, known] at refused
        cases refused
  · cases found : Table.find? (normalForm job.language) dispatcher.executors with
    | none =>
        rw [Registry.resolve, (serves.find?_eq_none_iff _).mp found] at resolved
        cases resolved
    | some executor =>
        obtain ⟨⟨name, held⟩, registered, working⟩ := serves.exists_of_find? found
        rw [Registry.resolve, (Table.find?_eq_some_iff enrols.ordered).mpr registered] at resolved
        cases resolved
        exact ⟨name, executor, List.mem_map.mpr ⟨_, registered, rfl⟩,
          (enrols.fst_eq registered).symm, rfl, working, working.suits,
          fun world => run_of_find? found world⟩

/-- A machine on which no program is installed and no port is open. -/
def bare : Environment (World Unit) Host.Waiting :=
  World.environment ⟨"/", fun _ _ => .error .notFound, fun _ _ _ _ _ => .error .notFound⟩
    (.unreachable .notFound)

/-- One language for every strategy, of which two cannot start on that machine. -/
def trio : List (String × Backend) :=
  [(" Go ", .ephemeral ⟨"main.go", "library.go", ["go", "run", "."], ["go", "version"]⟩),
    ("Ada", .worker ["ada-worker"] "ada" none), ("Perl", .proxied ["plackup"] "perl" 8000 none none)]

/-- The registry of the three languages. -/
def trioRegistry : Registry :=
  ⟨[("ada", ⟨"Ada", .worker ["ada-worker"] "ada" none⟩),
    ("go", ⟨"Go", .ephemeral ⟨"main.go", "library.go", ["go", "run", "."], ["go", "version"]⟩⟩),
    ("perl", ⟨"Perl", .proxied ["plackup"] "perl" 8000 none none⟩)]⟩

/-- The dispatcher of the three languages on that machine. -/
def trioDispatcher : Dispatcher (World Unit) Host.Waiting :=
  (start bare .standard trioRegistry ⟨.emptyDirectory, (), 0⟩).1

/-- All three languages are served, although two of them did not start, and no other. -/
theorem serves_resolved_bare :
    Registry.ofList trio = .ok trioRegistry ∧ bare.BuildsByRunner ∧
    Reached bare .standard trioRegistry trioDispatcher ∧
    trioDispatcher.languages = ["ada", "go", "perl"] ∧
    trioDispatcher.run bare ⟨.emptyDirectory, (), 0⟩ ⟨"COBOL", "", "", "", ""⟩ =
      (.error (.unknownLanguage "COBOL"), trioDispatcher, ⟨.emptyDirectory, (), 0⟩) ∧
    ∃ executor, Table.find? "perl" trioDispatcher.executors = some executor ∧
      executor.Serves bare .standard ⟨"Perl", .proxied ["plackup"] "perl" 8000 none none⟩ := by
  have made : Registry.ofList trio = .ok trioRegistry := by decide +kernel
  have builds : bare.BuildsByRunner := World.buildsByRunner _ _
  have reached : Reached bare .standard trioRegistry trioDispatcher := .started _
  obtain ⟨_, unknown, found, listed, _⟩ := serves_resolved made builds reached
  refine ⟨made, builds, reached, ?_, unknown _ _ _ (by decide +kernel), ?_⟩
  · rw [listed]
    decide +kernel
  · obtain ⟨name, executor, member, form, held, working, _⟩ :=
      found ⟨" PERL", "", "", "", ""⟩ (.proxied ["plackup"] "perl" 8000 none none) (by decide +kernel)
    have key : normalForm " PERL" = "perl" := by decide +kernel
    have named : name = "Perl" := by simpa [trioRegistry, Registry.toList] using member
    rw [key] at held
    exact ⟨executor, held, named ▸ working⟩

end Dispatcher

end Polyglot
