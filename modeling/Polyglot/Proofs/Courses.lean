import Mathlib.Data.List.Nodup
import Polyglot.Proofs.Grounds
import Polyglot.Proofs.Upkeep

/-!
# One language in the course of many jobs

A service is a dispatcher on grounds of its own, and a course is what it answers to some jobs,
one after the other. What a language can see of a service is its executor and the server
behind its port (`Service.Accords`), and, if it is built, the tree up to entries of old jobs
(`Kept`).

A job of another language changes nothing of that (`Tended.accords_after`). A job of the
language itself is answered alike by two services in which the language sees the same, and
sees the same afterwards (`Tended.alike_answer`). Both are read off what can become of a job
(`Tended.fate`).
-/

set_option autoImplicit false

namespace Polyglot

open Polyglot.Host (Platform Tree)

/-! ## Services at work -/

/-- The answer to a job. -/
structure Answer where
  /-- The envelope. -/
  envelope : Envelope
  /-- The stamp of the directory of the job, if the runner gave it one. -/
  stamp : Option Nat
  deriving DecidableEq

/-- A dispatcher on grounds of its own. -/
structure Service (σ ρ : Type) where
  /-- The dispatcher. -/
  dispatcher : Dispatcher (Grounds ρ) σ
  /-- The grounds. -/
  grounds : Grounds ρ

/-- What is the same for all services of a machine. -/
structure Site (σ ρ : Type) where
  /-- The machine. -/
  platform : Platform
  /-- How processes and servers go on. -/
  conduct : Conduct σ ρ
  /-- The settings. -/
  settings : Settings
  /-- The file tree at the start. -/
  tree : Tree

/-- What a service is started with, and the jobs it is given. -/
structure Scene (σ ρ : Type) where
  /-- The languages. -/
  registry : Registry
  /-- The programs of the backends that are not built. -/
  programs : Programs σ
  /-- The servers behind the ports at the start. -/
  servers : UInt16 → ρ
  /-- What the clock shows. -/
  clock : Nat → Nat
  /-- The jobs, in order. -/
  jobs : List Job

variable {σ ρ : Type}

namespace Service

/-- The service after a job. -/
def after (environment : Environment (Grounds ρ) σ) (service : Service σ ρ) (job : Job) :
    Service σ ρ :=
  let handled := service.dispatcher.handle environment service.grounds job
  ⟨handled.2.1, handled.2.2⟩

/-- The answer to a job. A job got a stamp if the last stamp of the runner is a new one. -/
def answer (environment : Environment (Grounds ρ) σ) (service : Service σ ρ) (job : Job) : Answer :=
  let last := (service.after environment job).dispatcher.runner.lastStamp
  ⟨(service.dispatcher.handle environment service.grounds job).1,
    if service.dispatcher.runner.lastStamp = last then none else some last⟩

/-- Some jobs and the answers to them. -/
def course (environment : Environment (Grounds ρ) σ) :
    Service σ ρ → List Job → List (Job × Answer)
  | _, [] => []
  | service, job :: jobs =>
    (job, service.answer environment job) :: course environment (service.after environment job) jobs

end Service

/-- Whether a job is one of the language. -/
def Language.takes (language : Language) (job : Job) : Bool :=
  normalForm job.language == normalForm language.name

namespace Scene

/-- The jobs of one language. -/
def jobsFor (scene : Scene σ ρ) (language : Language) : List Job :=
  scene.jobs.filter language.takes

/-- The scene without the jobs of other languages. -/
def only (scene : Scene σ ρ) (language : Language) : Scene σ ρ :=
  { scene with jobs := scene.jobsFor language }

end Scene

namespace Site

/-- What a service can do. -/
def environment (site : Site σ ρ) (scene : Scene σ ρ) : Environment (Grounds ρ) σ :=
  Grounds.environment site.platform site.conduct scene.programs

/-- The grounds at the start. -/
def grounds (site : Site σ ρ) (scene : Scene σ ρ) : Grounds ρ :=
  ⟨site.tree, scene.servers, scene.clock⟩

/-- The service that is started. -/
def service (site : Site σ ρ) (scene : Scene σ ρ) : Service σ ρ :=
  let started :=
    Dispatcher.start (site.environment scene) site.settings scene.registry (site.grounds scene)
  ⟨started.1, started.2⟩

/-- The runner after a stamp. -/
def runner (site : Site σ ρ) (last : Nat) : Runner :=
  ⟨site.settings.workspaceRoot, site.settings.timeoutMs?, last⟩

/-- The tree in which the root was made. -/
def base (site : Site σ ρ) : Tree :=
  (site.tree.ensureDirectory site.platform.directory site.settings.workspaceRoot).2

end Site

/-- The answers to the jobs of one language in a course. -/
def answersFor (language : Language) (course : List (Job × Answer)) : List Answer :=
  (course.filter fun entry => language.takes entry.1).map (·.2)

theorem answersFor_own {language : Language} {job : Job} (takes : language.takes job = true)
    (answer : Answer) (course : List (Job × Answer)) :
    answersFor language ((job, answer) :: course) = answer :: answersFor language course := by
  simp [answersFor, takes]

theorem answersFor_foreign {language : Language} {job : Job} (foreign : language.takes job = false)
    (answer : Answer) (course : List (Job × Answer)) :
    answersFor language ((job, answer) :: course) = answersFor language course := by
  simp [answersFor, foreign]

/-- The answers to the jobs of one language, of a service that is started for all of them. -/
def Site.answersFor (site : Site σ ρ) (scene : Scene σ ρ) (language : Language) : List Answer :=
  Polyglot.answersFor language
    ((site.service scene).course (site.environment scene) scene.jobs)

/-! ## Answers that are alike -/

/-- The envelope of a job that takes no time. -/
def Envelope.timeless (envelope : Envelope) : Envelope :=
  { envelope with elapsedMs := envelope.elapsedMs.map fun _ => 0 }

/-- Two answers of a language are equal but for the elapsed time. If the language is built, and
the two jobs got equally long stamps, they are equal but for the stamps too. -/
inductive Answer.Alike (language : Language) : Answer → Answer → Prop where
  | plain {first second : Envelope} (same : first.timeless = second.timeless) :
      Alike language ⟨first, none⟩ ⟨second, none⟩
  | stamped {build : Build} (backend : language.backend = .ephemeral build)
      {first second : Envelope} {one other : Nat}
      (alike : Stamp.EquallyLong one other → first.Alike one other second) :
      Alike language ⟨first, some one⟩ ⟨second, some other⟩

theorem Envelope.timeless_ofOutcome (elapsed later : Nat) (version : String)
    (outcome : Except Failure String) :
    (ofOutcome elapsed version outcome).timeless = (ofOutcome later version outcome).timeless := by
  cases outcome with
  | ok result => rfl
  | error failure => rfl

/-! ## Backends that are apart -/

/-- No other one of some languages has the port of a language. -/
def Language.Apart (language : Language) (languages : List Language) : Prop :=
  ∀ other ∈ languages, ∀ port, language.backend.port? = some port →
    other.backend.port? = some port → other = language

/-- A valid registry has the language, and its port is for no other one. -/
structure Scene.Hosts (scene : Scene σ ρ) (language : Language) : Prop where
  valid : ∃ languages, Registry.ofList languages = .ok scene.registry
  listed : language ∈ scene.registry.toList
  apart : language.Apart scene.registry.toList

/-- Two scenes are the same for a language: its program, its server and its jobs. -/
structure Scene.Agree (language : Language) (one other : Scene σ ρ) : Prop where
  programs : one.programs.Concur language other.programs
  server : ∀ port, language.backend.port? = some port → one.servers port = other.servers port
  jobs : one.jobsFor language = other.jobsFor language

/-- Builds get on with one another: the root can be made again, no command changes anything
outside of its directory, and no directory has a stamp that is still to come. -/
structure Site.Shelters (site : Site σ ρ) (scene : Scene σ ρ) : Prop where
  steady : Steady site.platform.directory site.settings.workspaceRoot site.tree
  confined : ∀ language ∈ scene.registry.toList, ∀ build, language.backend = .ephemeral build →
    ∀ last clock tree job, (site.runner last).Confined site.platform clock tree job build
  unused : ∀ count stamp, scene.clock count ≤ stamp →
    Unused site.platform.directory site.settings.workspaceRoot site.base stamp

/-! ## The start -/

namespace Dispatcher

variable {platform : Platform} {conduct : Conduct σ ρ} {programs : Programs σ} {settings : Settings}
variable {language : Language} {languages : List Language}

/-- Starting some languages touches at most the servers behind their ports. -/
theorem startAll_spares (languages : List Language) (grounds : Grounds ρ) :
    let started :=
      (startAll (Grounds.environment platform conduct programs) settings languages grounds).2
    started.tree = grounds.tree ∧ started.clock = grounds.clock ∧
      ∀ port, (∀ language ∈ languages, language.backend.port? ≠ some port) →
        started.servers port = grounds.servers port := by
  induction languages generalizing grounds with
  | nil => exact ⟨rfl, rfl, fun _ _ => rfl⟩
  | cons head rest ih =>
      obtain ⟨tree, clock, servers⟩ := (@Executor.local_start σ ρ platform conduct programs
        settings head).spares grounds
      obtain ⟨treeToo, clockToo, serversToo⟩ := ih (Executor.start
        (Grounds.environment platform conduct programs) settings grounds head).2
      refine ⟨treeToo.trans tree, clockToo.trans clock, fun port free => ?_⟩
      exact (serversToo port fun other among => free other (List.mem_cons_of_mem _ among)).trans
        (servers port (free head List.mem_cons_self))

/-- A language whose port is for no other one starts as it would alone. -/
theorem startAll_alone (member : language ∈ languages) (apart : language.Apart languages)
    (once : languages.Nodup) (grounds : Grounds ρ) :
    let environment := Grounds.environment platform conduct programs
    let alone := Executor.start environment settings grounds language
    (language.name, alone.1) ∈ (startAll environment settings languages grounds).1 ∧
      ∀ port, language.backend.port? = some port →
        (startAll environment settings languages grounds).2.servers port =
          alone.2.servers port := by
  induction languages generalizing grounds with
  | nil => cases member
  | cons head rest ih =>
      obtain ⟨new, others⟩ := List.nodup_cons.mp once
      rcases List.mem_cons.mp member with rfl | later
      · refine ⟨List.mem_cons_self, fun port here => ?_⟩
        refine (startAll_spares rest _).2.2 port fun other among there => new ?_
        rwa [← apart other (List.mem_cons_of_mem _ among) port here there]
      · -- What is started before leaves the server behind the port as it is.
        have differ : head ≠ language := fun same => new (same ▸ later)
        have before := fun port (here : language.backend.port? = some port) =>
          (@Executor.local_start σ ρ platform conduct programs settings head).spares grounds |>.2.2
            port fun there => differ (apart head List.mem_cons_self port here there)
        obtain ⟨same, servers⟩ := (@Executor.local_start σ ρ platform conduct programs settings
          language).congr _ grounds before
        obtain ⟨among, behind⟩ := ih later
          (fun other among => apart other (List.mem_cons_of_mem _ among)) others
          (Executor.start (Grounds.environment platform conduct programs) settings grounds head).2
        refine ⟨List.mem_cons_of_mem _ (same ▸ among), fun port here => ?_⟩
        exact (behind port here).trans (servers port here)

end Dispatcher

/-! ## What a language sees -/

/-- A language sees the same of two services. -/
structure Service.Accords (language : Language) (one other : Service σ ρ) : Prop where
  executor : Table.find? (normalForm language.name) one.dispatcher.executors =
    Table.find? (normalForm language.name) other.dispatcher.executors
  server : ∀ port, language.backend.port? = some port →
    one.grounds.servers port = other.grounds.servers port

namespace Service.Accords

variable {language : Language} {first second third : Service σ ρ}

theorem symm (accords : first.Accords language second) : second.Accords language first :=
  ⟨accords.executor.symm, fun port here => (accords.server port here).symm⟩

theorem trans (accords : first.Accords language second) (further : second.Accords language third) :
    first.Accords language third :=
  ⟨accords.executor.trans further.executor,
    fun port here => (accords.server port here).trans (further.server port here)⟩

end Service.Accords

/-- What stays true of a service in the course of its jobs. -/
structure Tended (site : Site σ ρ) (scene : Scene σ ρ) (service : Service σ ρ) : Prop where
  serves : service.dispatcher.Serves (site.environment scene) site.settings scene.registry
  runner : service.dispatcher.runner = site.runner service.dispatcher.runner.lastStamp
  version : service.dispatcher.serviceVersion = site.settings.serviceVersion
  clocked : ∀ count, ∃ reading, service.grounds.clock count = scene.clock reading
  kept : site.Shelters scene → Kept site.platform.directory site.settings.workspaceRoot site.tree
    service.dispatcher.runner.lastStamp service.grounds.tree

/-- A service that is started from a valid registry is tended. -/
theorem Tended.of_start {scene : Scene σ ρ}
    (valid : ∃ languages, Registry.ofList languages = .ok scene.registry) (site : Site σ ρ) :
    Tended site scene (site.service scene) := by
  obtain ⟨languages, made⟩ := valid
  obtain ⟨tree, clock, _⟩ := @Dispatcher.startAll_spares σ ρ site.platform site.conduct
    scene.programs site.settings scene.registry.toList (site.grounds scene)
  refine ⟨.start (Registry.enrols_of_ofList made) _ _ _, rfl, rfl,
    fun count => ⟨count, congrFun clock count⟩, fun shelters => ?_⟩
  have same : (site.service scene).grounds.tree = site.tree := tree
  rw [same]
  exact .of_steady shelters.steady _

namespace Scene.Hosts

variable {scene : Scene σ ρ} {language : Language}

theorem exists_enrols (hosts : scene.Hosts language) :
    ∃ languages, scene.registry.Enrols languages := by
  obtain ⟨languages, made⟩ := hosts.valid
  exact ⟨languages, Registry.enrols_of_ofList made⟩

/-- The language stands under its normal form. -/
theorem mem_entries (hosts : scene.Hosts language) :
    (normalForm language.name, language) ∈ scene.registry.entries := by
  obtain ⟨languages, enrols⟩ := hosts.exists_enrols
  obtain ⟨⟨key, held⟩, registered, rfl⟩ := List.mem_map.mp hosts.listed
  rwa [← enrols.fst_eq registered]

/-- The backend of a registered language is sound. -/
theorem sound (hosts : scene.Hosts language) : language.backend.Sound := by
  obtain ⟨languages, made⟩ := hosts.valid
  exact Registry.sound_of_mem made hosts.listed

/-- The language was started as it would alone. -/
theorem started (hosts : scene.Hosts language) (site : Site σ ρ) :
    let alone := Executor.start (site.environment scene) site.settings (site.grounds scene) language
    Table.find? (normalForm language.name) (site.service scene).dispatcher.executors =
        some alone.1 ∧
      ∀ port, language.backend.port? = some port →
        (site.service scene).grounds.servers port = alone.2.servers port := by
  obtain ⟨languages, enrols⟩ := hosts.exists_enrols
  have once : scene.registry.toList.Nodup := List.Nodup.of_map _ enrols.nodup_name
  obtain ⟨among, behind⟩ := @Dispatcher.startAll_alone σ ρ site.platform site.conduct scene.programs
    site.settings language _ hosts.listed hosts.apart once (site.grounds scene)
  refine ⟨?_, behind⟩
  have serves := (Tended.of_start hosts.valid site).serves
  rw [Table.find?_eq_some_iff (serves.ordered enrols)]
  have executors := (Dispatcher.executors_start enrols (site.environment scene) site.settings
    (site.grounds scene)).1
  exact executors ▸ List.mem_map.mpr ⟨_, among, rfl⟩

end Scene.Hosts

/-- A language starts alike in two scenes that are the same for it. -/
theorem Scene.Agree.accords {site : Site σ ρ} {language : Language} {one other : Scene σ ρ}
    (agree : Scene.Agree language one other) (hostsOne : one.Hosts language)
    (hostsOther : other.Hosts language) :
    (site.service one).Accords language (site.service other) := by
  obtain ⟨executorOne, serverOne⟩ := hostsOne.started site
  obtain ⟨executorOther, serverOther⟩ := hostsOther.started site
  have begins := @Executor.start_congr σ ρ site.platform site.conduct _ _ language agree.programs
    site.settings (site.grounds other)
  obtain ⟨same, servers⟩ := (@Executor.local_start σ ρ site.platform site.conduct one.programs
    site.settings language).congr (site.grounds one) (site.grounds other) agree.server
  simp only [begins] at same servers
  refine ⟨?_, fun port here => ?_⟩
  · rw [executorOne, executorOther]
    exact congrArg some same
  · rw [serverOne port here, serverOther port here]
    exact servers port here

/-! ## What becomes of a job -/

/-- What a service does with a job after the clock was read. -/
inductive Fate (site : Site σ ρ) (scene : Scene σ ρ) (service : Service σ ρ) (job : Job) :
    Except Failure String × Dispatcher (Grounds ρ) σ × Grounds ρ → Prop where
  /-- Nobody serves its language. -/
  | unknown
      (absent : Table.find? (normalForm job.language) service.dispatcher.executors = none) :
      Fate site scene service job
        (.error (.unknownLanguage job.language), service.dispatcher, service.grounds.later)
  /-- A backend that is not built runs it. -/
  | ran {language : Language} {executor later : Executor (Grounds ρ) σ} {verdict : Verdict}
      {grounds : Grounds ρ}
      (registered : (normalForm job.language, language) ∈ scene.registry.entries)
      (found : Table.find? (normalForm job.language) service.dispatcher.executors = some executor)
      (suits : executor.Suits site.settings language)
      (notBuilt : ∀ build, language.backend ≠ .ephemeral build)
      (ran : executor.execute (site.environment scene) service.dispatcher.runner
        service.grounds.later job = (verdict, later, service.dispatcher.runner, grounds)) :
      Fate site scene service job
        (verdict.outcome,
          { service.dispatcher with
            executors :=
              Table.insert (normalForm job.language) later service.dispatcher.executors },
          grounds)
  /-- It is built. -/
  | built {language : Language} {build : Build} {outcome : Except Failure String}
      {runner : Runner} {tree : Tree}
      (registered : (normalForm job.language, language) ∈ scene.registry.entries)
      (found : Table.find? (normalForm job.language) service.dispatcher.executors =
        some (.ephemeral build))
      (backend : language.backend = .ephemeral build)
      (ran : service.dispatcher.runner.run site.platform (service.grounds.clock 1)
        service.grounds.tree job build = (outcome, runner, tree)) :
      Fate site scene service job
        (outcome,
          { service.dispatcher with
            executors := Table.insert (normalForm job.language) (.ephemeral build)
              service.dispatcher.executors
            runner := runner },
          { service.grounds.later.later with tree := tree })

/-- The service after a job is the one after the run, which begins after the clock was read. -/
theorem Service.after_eq (site : Site σ ρ) (scene : Scene σ ρ) (service : Service σ ρ) (job : Job) :
    let ran := service.dispatcher.run (site.environment scene) service.grounds.later job
    service.after (site.environment scene) job = ⟨ran.2.1, ran.2.2.later⟩ := rfl

/-- The answer to a job holds the outcome of the run. -/
theorem Service.answer_eq (site : Site σ ρ) (scene : Scene σ ρ) (service : Service σ ρ) (job : Job) :
    let ran := service.dispatcher.run (site.environment scene) service.grounds.later job
    let last := ran.2.1.runner.lastStamp
    ∃ elapsed, service.answer (site.environment scene) job =
      ⟨.ofOutcome elapsed service.dispatcher.serviceVersion ran.1,
        if service.dispatcher.runner.lastStamp = last then none else some last⟩ := by
  refine ⟨Dispatcher.elapsedMs (service.grounds.clock 0) ((service.dispatcher.run
    (site.environment scene) service.grounds.later job).2.2.clock 0), ?_⟩
  rw [answer, Dispatcher.fst_handle]
  rfl

theorem Executor.Suits.eq_ephemeral {settings : Settings} {language : Language}
    {executor : Executor (Grounds ρ) σ} (suits : executor.Suits settings language) {build : Build}
    (backend : language.backend = .ephemeral build) : executor = .ephemeral build := by
  cases suits with
  | ephemeral name other =>
      cases backend
      rfl
  | worker named bounded => cases backend
  | proxied named placed bounded => cases backend
  | unavailable reason => cases backend

/-- A run of a backend that is not built touches nothing but the server behind its port. -/
theorem Executor.Suits.spares {site : Site σ ρ} {scene : Scene σ ρ} {language : Language}
    {executor later : Executor (Grounds ρ) σ} {runner next : Runner} {grounds after : Grounds ρ}
    {job : Job} {verdict : Verdict} (suits : executor.Suits site.settings language)
    (notBuilt : ∀ build, language.backend ≠ .ephemeral build)
    (ran : executor.execute (site.environment scene) runner grounds job =
      (verdict, later, next, after)) :
    after.tree = grounds.tree ∧ after.clock = grounds.clock ∧
      ∀ port, language.backend.port? ≠ some port → after.servers port = grounds.servers port := by
  have spares := (suits.local_execute site.platform site.conduct scene.programs notBuilt runner
    job).spares grounds
  rw [Site.environment] at ran
  simpa only [ran] using spares

namespace Tended

variable {site : Site σ ρ} {scene : Scene σ ρ} {service : Service σ ρ} {language : Language}

theorem fate (tended : Tended site scene service) (job : Job) :
    Fate site scene service job
      (service.dispatcher.run (site.environment scene) service.grounds.later job) := by
  cases found : Table.find? (normalForm job.language) service.dispatcher.executors with
  | none =>
      rw [Dispatcher.run_of_find?_eq_none found]
      exact .unknown found
  | some executor =>
      obtain ⟨language, registered, serves⟩ := tended.serves.exists_of_find? found
      have suits := serves.suits
      rw [Dispatcher.run_of_find? found]
      by_cases built : ∃ build, language.backend = .ephemeral build
      · obtain ⟨build, backend⟩ := built
        obtain rfl := suits.eq_ephemeral backend
        exact .built registered found backend rfl
      · have notBuilt := not_exists.mp built
        have ran := suits.execute_runner notBuilt (site.environment scene)
          service.dispatcher.runner service.dispatcher.runner service.grounds.later job
        rw [ran]
        exact .ran registered found suits notBuilt ran

/-- No directory has the stamp that comes next. -/
theorem unused_next (tended : Tended site scene service) (shelters : site.Shelters scene)
    (count : Nat) :
    Unused site.platform.directory site.settings.workspaceRoot site.base
      (Stamp.next service.dispatcher.runner.lastStamp (service.grounds.clock count)) := by
  obtain ⟨reading, shown⟩ := tended.clocked count
  exact shelters.unused reading _ (shown ▸ Stamp.clock_le_next _ _)

/-- **A job keeps a service tended**, whatever becomes of it. -/
theorem after (tended : Tended site scene service)
    (valid : ∃ languages, Registry.ofList languages = .ok scene.registry) (job : Job) :
    Tended site scene (service.after (site.environment scene) job) := by
  obtain ⟨languages, made⟩ := valid
  have enrols := Registry.enrols_of_ofList made
  have fate := tended.fate job
  have serves := tended.serves.run enrols service.grounds.later job
  rw [Service.after_eq]
  generalize service.dispatcher.run (site.environment scene) service.grounds.later job = ran
    at fate serves
  cases fate with
  | unknown absent =>
      exact ⟨serves, tended.runner, tended.version, fun count => tended.clocked (count + 2),
        tended.kept⟩
  | @ran language executor later verdict grounds registered found suits notBuilt ran =>
      obtain ⟨tree, clock, _⟩ := suits.spares notBuilt ran
      refine ⟨serves, tended.runner, tended.version, fun count => ?_, fun shelters => ?_⟩
      · obtain ⟨reading, shown⟩ := tended.clocked (count + 2)
        exact ⟨reading, (congrFun clock (count + 1)).trans shown⟩
      · change Kept _ _ _ _ grounds.tree
        rw [tree]
        exact tended.kept shelters
  | @built language build outcome runner tree registered found backend ran =>
      rw [tended.runner] at ran
      have form := Runner.run_runner site.platform (site.runner service.dispatcher.runner.lastStamp)
        (service.grounds.clock 1) service.grounds.tree job build
      rw [ran] at form
      refine ⟨serves, form, tended.version, fun count => tended.clocked (count + 3),
        fun shelters => ?_⟩
      have listed : language ∈ scene.registry.toList := List.mem_map.mpr ⟨_, registered, rfl⟩
      have confined := shelters.confined language listed build backend
        service.dispatcher.runner.lastStamp (service.grounds.clock 1) service.grounds.tree job
      have kept := Runner.kept_run confined (tended.kept shelters) (tended.unused_next shelters 1)
        shelters.steady
      rw [ran] at kept
      exact kept

/-- **A job of another language changes nothing that a language sees.** -/
theorem accords_after (tended : Tended site scene service) (hosts : scene.Hosts language)
    {job : Job} (foreign : language.takes job = false) :
    service.Accords language (service.after (site.environment scene) job) := by
  obtain ⟨languages, enrols⟩ := hosts.exists_enrols
  have differ : normalForm language.name ≠ normalForm job.language := fun same => by
    simp [Language.takes, same] at foreign
  have other : ∀ {served : Language},
      (normalForm job.language, served) ∈ scene.registry.entries → served ≠ language := by
    rintro served registered rfl
    exact differ (enrols.fst_eq registered).symm
  have fate := tended.fate job
  rw [Service.after_eq]
  generalize service.dispatcher.run (site.environment scene) service.grounds.later job = ran at fate
  cases fate with
  | unknown absent => exact ⟨rfl, fun _ _ => rfl⟩
  | @ran served executor later verdict grounds registered found suits notBuilt ran =>
      obtain ⟨_, _, servers⟩ := suits.spares notBuilt ran
      refine ⟨(Table.find?_insert_of_ne differ _ _).symm, fun port here => ?_⟩
      refine (servers port fun there => other registered ?_).symm
      exact hosts.apart served (List.mem_map.mpr ⟨_, registered, rfl⟩) port here there
  | built registered found backend ran =>
      exact ⟨(Table.find?_insert_of_ne differ _ _).symm, fun _ _ => rfl⟩

/-- A language has an executor of its kind. -/
theorem exists_executor (tended : Tended site scene service) (hosts : scene.Hosts language) :
    ∃ executor, Table.find? (normalForm language.name) service.dispatcher.executors =
      some executor ∧ executor.Suits site.settings language := by
  obtain ⟨languages, enrols⟩ := hosts.exists_enrols
  obtain ⟨executor, found, serves⟩ := tended.serves.exists_of_mem enrols hosts.mem_entries
  exact ⟨executor, found, serves.suits⟩

/-- What a language sees of a job of its own is what its executor does. -/
theorem own (tended : Tended site scene service) {job : Job} (takes : language.takes job = true)
    {executor : Executor (Grounds ρ) σ}
    (found : Table.find? (normalForm language.name) service.dispatcher.executors = some executor) :
    let ran := executor.execute (site.environment scene) service.dispatcher.runner
      service.grounds.later job
    let last := service.dispatcher.runner.lastStamp
    (∃ elapsed, service.answer (site.environment scene) job =
      ⟨.ofOutcome elapsed site.settings.serviceVersion ran.1.outcome,
        if last = ran.2.2.1.lastStamp then none else some ran.2.2.1.lastStamp⟩) ∧
      Table.find? (normalForm language.name)
        (service.after (site.environment scene) job).dispatcher.executors = some ran.2.1 ∧
      (service.after (site.environment scene) job).grounds.servers = ran.2.2.2.servers := by
  have key : normalForm job.language = normalForm language.name := by
    simpa [Language.takes] using takes
  have whole := @Dispatcher.run_of_find? _ _ (site.environment scene) _ _ job (key ▸ found)
    service.grounds.later
  have answered := service.answer_eq site scene job
  rw [whole, tended.version] at answered
  rw [Service.after_eq, whole]
  exact ⟨answered, key ▸ Table.find?_insert_self _ _ _, rfl⟩

/-- **A language that is not built answers a job alike** in two services of which it sees the
same, and sees the same afterwards. -/
theorem alike_plain {one other : Scene σ ρ} {first second : Service σ ρ}
    (tendedFirst : Tended site one first) (tendedSecond : Tended site other second)
    (hosts : one.Hosts language) (notBuilt : ∀ build, language.backend ≠ .ephemeral build)
    (accords : first.Accords language second) {job : Job} (takes : language.takes job = true) :
    Answer.Alike language (first.answer (site.environment one) job)
        (second.answer (site.environment other) job) ∧
      (first.after (site.environment one) job).Accords language
        (second.after (site.environment other) job) := by
  obtain ⟨executor, found, suits⟩ := tendedFirst.exists_executor hosts
  obtain ⟨⟨elapsed, answered⟩, held, behind⟩ := tendedFirst.own takes found
  obtain ⟨⟨later, replied⟩, kept, beyond⟩ := tendedSecond.own takes (accords.executor ▸ found)
  obtain ⟨same, servers⟩ := (suits.local_execute site.platform site.conduct one.programs notBuilt
    first.dispatcher.runner job).congr first.grounds.later second.grounds.later accords.server
  obtain ⟨verdict, executors⟩ := Prod.mk.inj same
  have firstRunner := congrArg (·.2.2.1) (suits.execute_runner notBuilt (site.environment one)
    first.dispatcher.runner first.dispatcher.runner first.grounds.later job)
  have secondRan : executor.execute (site.environment other) second.dispatcher.runner
      second.grounds.later job =
        let ran := executor.execute (site.environment one) first.dispatcher.runner
          second.grounds.later job
        (ran.1, ran.2.1, second.dispatcher.runner, ran.2.2.2) :=
    (Executor.execute_congr executor one.programs second.dispatcher.runner second.grounds.later
      job).trans (suits.execute_runner notBuilt _ _ _ _ job)
  rw [secondRan] at replied kept beyond
  simp only [firstRunner, if_true] at answered replied
  refine ⟨?_, ?_, fun port here => ?_⟩
  · rw [answered, replied]
    refine .plain ?_
    rw [← Envelope.timeless_ofOutcome elapsed later]
    exact congrArg (fun verdict => (Envelope.ofOutcome elapsed site.settings.serviceVersion
      (Verdict.outcome verdict)).timeless) verdict
  · rw [held, kept]
    exact congrArg some executors
  · rw [behind, beyond]
    exact servers port here

/-- What becomes of a job of its own that a language builds. -/
theorem own_built (tended : Tended site scene service) {job : Job}
    (takes : language.takes job = true) {build : Build} {program : String}
    {arguments : List String} (command : build.command = program :: arguments)
    (found : Table.find? (normalForm language.name) service.dispatcher.executors =
      some (.ephemeral build)) :
    let last := service.dispatcher.runner.lastStamp
    let clock := service.grounds.clock 1
    (∃ elapsed, service.answer (site.environment scene) job =
      ⟨.ofOutcome elapsed site.settings.serviceVersion
        ((site.runner last).run site.platform clock service.grounds.tree job build).1,
        some (Stamp.next last clock)⟩) ∧
      Table.find? (normalForm language.name)
        (service.after (site.environment scene) job).dispatcher.executors =
          some (.ephemeral build) := by
  obtain ⟨⟨elapsed, answered⟩, held, _⟩ := tended.own takes found
  refine ⟨⟨elapsed, ?_⟩, held⟩
  have ran : Executor.execute (site.environment scene) service.dispatcher.runner
      (.ephemeral build) service.grounds.later job =
        let ran := (site.runner service.dispatcher.runner.lastStamp).run site.platform
          (service.grounds.clock 1) service.grounds.tree job build
        (.answered ran.1, .ephemeral build, ran.2.1,
          { service.grounds.later.later with tree := ran.2.2 }) := by
    rw [← tended.runner]
    rfl
  have last := congrArg (fun ran => ran.2.1.lastStamp) (@Runner.run_eq_runIn site.platform
    (site.runner service.dispatcher.runner.lastStamp) (service.grounds.clock 1)
    service.grounds.tree job build program arguments command)
  have newer := Stamp.last_lt_next service.dispatcher.runner.lastStamp (service.grounds.clock 1)
  rw [ran] at answered
  simp only [last] at answered
  rw [answered]
  exact congrArg (Answer.mk _) (if_neg (Nat.ne_of_lt newer))

/-- **A language that is built answers a job alike** in two services that share nothing but
what was there at the start, and is built afterwards as before. -/
theorem alike_built {one other : Scene σ ρ} {first second : Service σ ρ}
    (tendedFirst : Tended site one first) (tendedSecond : Tended site other second)
    (hosts : one.Hosts language) {build : Build} (backend : language.backend = .ephemeral build)
    (sheltersOne : site.Shelters one) (sheltersOther : site.Shelters other)
    (contained : SelfContained site.platform site.settings.workspaceRoot site.settings.timeoutMs?
      site.base build)
    (accords : first.Accords language second) {job : Job} (takes : language.takes job = true) :
    Answer.Alike language (first.answer (site.environment one) job)
        (second.answer (site.environment other) job) ∧
      (first.after (site.environment one) job).Accords language
        (second.after (site.environment other) job) := by
  obtain ⟨executor, found, suits⟩ := tendedFirst.exists_executor hosts
  obtain rfl : executor = .ephemeral build := suits.eq_ephemeral backend
  have sound := hosts.sound
  have files := sound.files build backend
  have filled := sound.command
  rw [backend] at filled
  obtain ⟨program, arguments, command⟩ := List.exists_cons_of_ne_nil filled
  obtain ⟨⟨elapsed, answered⟩, held⟩ := tendedFirst.own_built takes command found
  obtain ⟨⟨later, replied⟩, kept⟩ := tendedSecond.own_built takes command (accords.executor ▸ found)
  refine ⟨?_, held.trans kept.symm, fun port here => ?_⟩
  · rw [answered, replied]
    refine .stamped backend fun equal => AlikeOutcomes.envelope ?_ _ _ _
    exact Runner.run_alike sheltersOne.steady contained files.1 files.2.1 command job
      (tendedFirst.kept sheltersOne) (tendedSecond.kept sheltersOther) equal
      (tendedFirst.unused_next sheltersOne 1) (tendedSecond.unused_next sheltersOther 1)
  · rw [backend] at here
    cases here

end Tended

end Polyglot
