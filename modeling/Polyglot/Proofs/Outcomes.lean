import Polyglot.Proofs.Serving

/-!
# The failures that a caller is told of

The envelope of a job carries a code when the job failed. Which codes it can carry depends on
the strategy of the language alone: they are the codes of the stages through which a job of that
strategy goes, and starting the backend adds none to them, since a backend that did not start is a
dead worker or a stand-in (`Executor.Serves.failsWith_execute`).

A registry takes no backend without a command, so neither a start nor a build is ever refused for
want of one (`Language.Commanded`), and no job is reported as a defect of the settings.
-/

set_option autoImplicit false

namespace Polyglot

variable {ω σ : Type} {environment : Environment ω σ} {settings : Settings}

/-! ## Envelopes -/

/-- An envelope reports a result, or a failure with one of some codes. -/
inductive Envelope.Reports (codes : List String) (envelope : Envelope) : Prop where
  | result (succeeded : envelope.isSuccess = true) (uncoded : envelope.errorCode = none)
  | failure {code : String} (failed : envelope.isSuccess = false)
      (coded : envelope.errorCode = some code) (listed : code ∈ codes)

/-- The envelope of an outcome reports what the outcome fails with. -/
theorem FailsWith.reports {codes : List String} {outcome : Except Failure String}
    (fails : FailsWith codes outcome) (elapsedMs : Nat) (serviceVersion : String) :
    (Envelope.ofOutcome elapsedMs serviceVersion outcome).Reports codes := by
  cases outcome with
  | ok result => exact .result rfl rfl
  | error reason => exact .failure rfl rfl (fails reason rfl)

/-- A code that is not listed is not reported. -/
theorem Envelope.Reports.errorCode_ne {codes : List String} {envelope : Envelope} {code : String}
    (reports : envelope.Reports codes) (unlisted : code ∉ codes) :
    envelope.errorCode ≠ some code := by
  intro coded
  cases reports with
  | result _ uncoded => simp [uncoded] at coded
  | failure _ reported listed =>
      rw [reported, Option.some.injEq] at coded
      exact unlisted (coded ▸ listed)

/-! ## Commands -/

/-- Whatever happens, neither the start of a language nor a job of it is refused for want of a
command. -/
inductive Language.Commanded (environment : Environment ω σ) (settings : Settings) :
    Language → Prop where
  | worker {name : String} {command : CommandLine} {directory : String}
      {version : Option CommandLine} (given : command ≠ [])
      (starts : ∀ world, FailsWith ["command_not_found", "worker_dead"]
        (Channel.spawn environment.processes world name command
          (settings.directoryOf directory) settings.timeoutMs?).1) :
      Commanded environment settings ⟨name, .worker command directory version⟩
  | proxied {name : String} {command : CommandLine} {directory : String} {port : UInt16}
      {version : Option CommandLine} {check : Option ReadyCheck} (given : command ≠ [])
      (starts : ∀ world, FailsWith
        ["command_not_found", "backend_unavailable", "timeout", "protocol_error",
          "build_or_runtime_failure"]
        (Proxy.start environment.processes environment.network world name command
          (settings.directoryOf directory) port settings.timeoutMs? settings.readyAttempts
          check).1) :
      Commanded environment settings ⟨name, .proxied command directory port version check⟩
  | ephemeral {name : String} {build : Build} (given : build.command ≠ [])
      (runs : ∀ (platform : Host.Platform) (runner : Runner) (clock : Nat) (tree : Host.Tree)
        (job : Job), FailsWith (Backend.ephemeral build).failureCodes
          (runner.run platform clock tree job build).1) :
      Commanded environment settings ⟨name, .ephemeral build⟩

theorem Backend.Sound.commanded {backend : Backend} (sound : backend.Sound)
    (environment : Environment ω σ) (settings : Settings) (name : String) :
    Language.Commanded environment settings ⟨name, backend⟩ := by
  have given := sound.command
  cases backend with
  | worker command directory version =>
      exact .worker given fun world => Channel.failsWith_spawn _ world name given _ _
  | proxied command directory port version check =>
      exact .proxied given fun world => Proxy.failsWith_start _ _ world name given _ port _ _ check
  | ephemeral build =>
      exact .ephemeral given fun platform runner clock tree job =>
        runner.failsWith_run platform clock tree job given

/-! ## Jobs -/

/-- A job of a language fails with the codes of its strategy, whether or not its backend was
started. -/
theorem Executor.Serves.failsWith_execute {language : Language} {executor : Executor ω σ}
    (serves : executor.Serves environment settings language) (sound : language.backend.Sound)
    (builds : environment.BuildsByRunner) (runner : Runner) (world : ω) (job : Job) :
    FailsWith language.backend.failureCodes
      (executor.execute environment runner world job).1.outcome := by
  cases serves.suits with
  | worker _ _ => exact Channel.failsWith_execute environment.processes _ world job
  | proxied _ _ _ => exact Proxy.failsWith_execute environment.network _ world job
  | unavailable reason => exact .error (by simp [Failure.code, Backend.failureCodes])
  | ephemeral name build =>
      obtain ⟨platform, clock, tree, same⟩ := builds runner world job build
      have fails := runner.failsWith_run platform clock tree job sound.command
      rwa [← same] at fails

namespace Dispatcher

variable {languages : List (String × Backend)} {registry : Registry}
variable {dispatcher : Dispatcher ω σ}

theorem Reached.failsWith_run (made : Registry.ofList languages = .ok registry)
    (builds : environment.BuildsByRunner)
    (reached : Reached environment settings registry dispatcher) {job : Job} {backend : Backend}
    (resolved : registry.resolve job.language = .ok backend) (world : ω) :
    FailsWith backend.failureCodes (dispatcher.run environment world job).1 := by
  have enrols := Registry.enrols_of_ofList made
  obtain ⟨name, registered⟩ := Registry.mem_of_resolve resolved
  obtain ⟨executor, found, working⟩ := (reached.serves enrols).exists_of_mem enrols registered
  have sound := Registry.sound_of_mem made (List.mem_map.mpr ⟨_, registered, rfl⟩)
  rw [run_of_find? found]
  exact working.failsWith_execute sound builds dispatcher.runner world job

theorem Reached.run_of_resolve (made : Registry.ofList languages = .ok registry)
    (reached : Reached environment settings registry dispatcher) {job : Job} {reason : Failure}
    (refused : registry.resolve job.language = .error reason) (world : ω) :
    dispatcher.run environment world job =
      (.error (.unknownLanguage job.language), dispatcher, world) := by
  have serves := reached.serves (Registry.enrols_of_ofList made)
  have absent := Registry.find?_of_resolve refused
  exact run_of_find?_eq_none ((serves.find?_eq_none_iff _).mpr absent) world

/-- **A job fails as its strategy does, and never for the settings.** Whatever jobs came before and
whatever the backends do, a job whose language is not registered is reported as that, and every
other one with its result or with one of the codes of its strategy. No command of a registered
language is empty, in its backend or in the executor that stands for it, so no start and no build
is refused for that, and the code of a defect of the settings is not reported for any job. -/
theorem handle_reports (made : Registry.ofList languages = .ok registry)
    (builds : environment.BuildsByRunner)
    (reached : Reached environment settings registry dispatcher) :
    (∀ world job reason, registry.resolve job.language = .error reason →
      (dispatcher.handle environment world job).1.errorCode = some "unknown_language") ∧
    (∀ world job backend, registry.resolve job.language = .ok backend →
      (dispatcher.handle environment world job).1.Reports backend.failureCodes) ∧
    (∀ world job,
      (dispatcher.handle environment world job).1.errorCode ≠ some "config_error") ∧
    (∀ language ∈ registry.toList, language.Commanded environment settings) ∧
    ∀ name build, (name, .ephemeral build) ∈ dispatcher.executors → build.command ≠ [] := by
  have unknown : ∀ world job reason, registry.resolve job.language = .error reason →
      (dispatcher.handle environment world job).1.errorCode = some "unknown_language" := by
    intro world job reason refused
    rw [fst_handle, reached.run_of_resolve made refused]
    rfl
  have reports : ∀ world job backend, registry.resolve job.language = .ok backend →
      (dispatcher.handle environment world job).1.Reports backend.failureCodes := by
    intro world job backend resolved
    rw [fst_handle]
    exact (reached.failsWith_run made builds resolved _).reports _ _
  refine ⟨unknown, reports, fun world job => ?_, fun language listed => ?_,
    fun name build member => ?_⟩
  · cases resolved : registry.resolve job.language with
    | error reason => simp [unknown world job reason resolved]
    | ok backend =>
        refine (reports world job backend resolved).errorCode_ne ?_
        cases backend <;> simp [Backend.failureCodes]
  · exact (Registry.sound_of_mem made listed).commanded environment settings language.name
  · obtain ⟨language, registered, working⟩ :=
      (reached.serves (Registry.enrols_of_ofList made)).served _ member
    have sound := Registry.sound_of_mem made (List.mem_map.mpr ⟨_, registered, rfl⟩)
    cases working.suits with
    | ephemeral name build => exact sound.command

/-- On a machine without programs an unknown language is reported, and so is what becomes of a job
for a backend that did not start. -/
theorem handle_reports_bare :
    Registry.ofList trio = .ok trioRegistry ∧ bare.BuildsByRunner ∧
    Reached bare .standard trioRegistry trioDispatcher ∧
    (trioDispatcher.handle bare ⟨.emptyDirectory, (), 0⟩ ⟨"COBOL", "", "", "", ""⟩).1.errorCode =
      some "unknown_language" ∧
    (trioDispatcher.handle bare ⟨.emptyDirectory, (), 0⟩ ⟨" PERL", "", "", "", ""⟩).1.Reports
      ["backend_unavailable", "timeout", "protocol_error", "build_or_runtime_failure"] := by
  have made : Registry.ofList trio = .ok trioRegistry := by decide +kernel
  have builds : bare.BuildsByRunner := World.buildsByRunner _ _
  have reached : Reached bare .standard trioRegistry trioDispatcher := .started _
  obtain ⟨unknown, reports, _⟩ := handle_reports made builds reached
  refine ⟨made, builds, reached, unknown _ _ (.unknownLanguage "COBOL") (by decide +kernel), ?_⟩
  exact reports _ _ (.proxied ["plackup"] "perl" 8000 none none) (by decide +kernel)

end Dispatcher

end Polyglot
