import Polyglot.Proofs.Courses
import Polyglot.Proofs.Utf8

/-!
# Languages do not disturb one another

The answers to the jobs of one language are alike in all courses that have these jobs, in this
order, whatever other jobs stand between them, and whatever became of the other backends; and the jobs
of a language that nobody serves are always refused in the same way (`Site.answers_alike`).

For a language that is built this needs a root that is refused with every job for the same
reason, if it is refused (`not_answers_alike_of_unsteady`).
-/

set_option autoImplicit false

namespace Polyglot

open Polyglot.Host (Tree Platform Action Exit Location)

variable {σ ρ : Type} {language : Language}

/-! ## Two courses with the same jobs of one language -/

/-- Two courses have the same jobs of one kind, in the same order. -/
inductive Interleaved (picks : Job → Bool) : List Job → List Job → Prop where
  | nil : Interleaved picks [] []
  | left {job : Job} {jobs others : List Job} (skipped : picks job = false)
      (rest : Interleaved picks jobs others) : Interleaved picks (job :: jobs) others
  | right {job : Job} {jobs others : List Job} (skipped : picks job = false)
      (rest : Interleaved picks jobs others) : Interleaved picks jobs (job :: others)
  | both {job : Job} {jobs others : List Job} (picked : picks job = true)
      (rest : Interleaved picks jobs others) : Interleaved picks (job :: jobs) (job :: others)

theorem Interleaved.of_filter_eq {picks : Job → Bool} {jobs others : List Job}
    (same : jobs.filter picks = others.filter picks) : Interleaved picks jobs others := by
  induction jobs generalizing others with
  | nil =>
      induction others with
      | nil => exact .nil
      | cons other others ih =>
          cases picked : picks other with
          | true => simp [picked] at same
          | false => exact .right picked (ih (by simpa [picked] using same))
  | cons job jobs ih =>
      cases own : picks job with
      | false => exact .left own (ih (by simpa [own] using same))
      | true =>
          induction others with
          | nil => simp [own] at same
          | cons other others again =>
              cases picked : picks other with
              | false => exact .right picked (again (by simpa [picked] using same))
              | true =>
                  simp only [List.filter_cons, own, picked, if_true, List.cons.injEq] at same
                  obtain ⟨rfl, same⟩ := same
                  exact .both own (ih same)

/-- If the language is built, the builds get on with one another, and its command sees nothing
but the directory of its job. -/
def Site.Secludes (site : Site σ ρ) (scene : Scene σ ρ) (language : Language) : Prop :=
  ∀ build, language.backend = .ephemeral build → site.Shelters scene ∧
    SelfContained site.platform site.settings.workspaceRoot site.settings.timeoutMs? site.base build

namespace Tended

variable {site : Site σ ρ} {one other : Scene σ ρ} {first second : Service σ ρ}

/-- **A job of its own is answered alike** in two services of which a language sees the same,
and it sees the same of them afterwards. -/
theorem alike (tendedFirst : Tended site one first) (tendedSecond : Tended site other second)
    (hosts : one.Hosts language) (secludesOne : site.Secludes one language)
    (secludesOther : site.Secludes other language) (accords : first.Accords language second)
    {job : Job} (takes : language.takes job = true) :
    Answer.Alike language (first.answer (site.environment one) job)
        (second.answer (site.environment other) job) ∧
      (first.after (site.environment one) job).Accords language
        (second.after (site.environment other) job) := by
  by_cases built : ∃ build, language.backend = .ephemeral build
  · obtain ⟨build, backend⟩ := built
    obtain ⟨sheltersOne, contained⟩ := secludesOne build backend
    exact tendedFirst.alike_built tendedSecond hosts backend sheltersOne
      (secludesOther build backend).1 contained accords takes
  · exact tendedFirst.alike_plain tendedSecond hosts (not_exists.mp built) accords takes

/-- **Answers are alike throughout two courses** with the same jobs of the language. -/
theorem alike_course (hostsOne : one.Hosts language) (hostsOther : other.Hosts language)
    (secludesOne : site.Secludes one language) (secludesOther : site.Secludes other language)
    {jobs others : List Job} (inter : Interleaved language.takes jobs others)
    (tendedFirst : Tended site one first) (tendedSecond : Tended site other second)
    (accords : first.Accords language second) :
    List.Forall₂ (Answer.Alike language)
      (answersFor language (first.course (site.environment one) jobs))
      (answersFor language (second.course (site.environment other) others)) := by
  induction inter generalizing first second with
  | nil => exact .nil
  | @left job jobs others skipped rest ih =>
      have unseen := tendedFirst.accords_after hostsOne skipped
      have alike := ih (tendedFirst.after hostsOne.valid job) tendedSecond
        (unseen.symm.trans accords)
      rwa [Service.course, answersFor_foreign skipped]
  | @right job jobs others skipped rest ih =>
      have unseen := tendedSecond.accords_after hostsOther skipped
      have alike := ih tendedFirst (tendedSecond.after hostsOther.valid job)
        (accords.trans unseen)
      rwa [Service.course, answersFor_foreign skipped]
  | @both job jobs others picked rest ih =>
      obtain ⟨alike, further⟩ := tendedFirst.alike tendedSecond hostsOne secludesOne secludesOther
        accords picked
      have remaining := ih (tendedFirst.after hostsOne.valid job)
        (tendedSecond.after hostsOther.valid job) further
      rw [Service.course, Service.course, answersFor_own picked, answersFor_own picked]
      exact .cons alike remaining

end Tended

/-! ## Languages that nobody serves -/

/-- No language of a valid registry has the normal form of the name of a language. -/
structure Scene.Lacks (scene : Scene σ ρ) (language : Language) : Prop where
  valid : ∃ languages, Registry.ofList languages = .ok scene.registry
  absent : ∀ other ∈ scene.registry.toList, normalForm other.name ≠ normalForm language.name

/-- The answer to a job whose language nobody serves. -/
def Site.refusal (site : Site σ ρ) (job : Job) : Answer :=
  ⟨.failure (.unknownLanguage job.language) site.settings.serviceVersion, none⟩

/-- **Every job of a language that nobody serves is refused**, at any time of a course. -/
theorem Tended.answersFor_lacking {site : Site σ ρ} {scene : Scene σ ρ}
    (lacks : scene.Lacks language) {service : Service σ ρ} (tended : Tended site scene service)
    (jobs : List Job) :
    answersFor language (service.course (site.environment scene) jobs) =
      (jobs.filter language.takes).map site.refusal := by
  induction jobs generalizing service with
  | nil => rfl
  | cons job jobs ih =>
      have later := ih (tended.after lacks.valid job)
      rw [Service.course]
      cases takes : language.takes job with
      | false => rw [answersFor_foreign takes, later, List.filter_cons_of_neg (by simp [takes])]
      | true =>
          rw [answersFor_own takes, later, List.filter_cons_of_pos takes, List.map_cons]
          congr 1
          have key : normalForm job.language = normalForm language.name := by
            simpa [Language.takes] using takes
          obtain ⟨languages, made⟩ := lacks.valid
          have enrols := Registry.enrols_of_ofList made
          have nobody : ∀ {served : Language},
              (normalForm job.language, served) ∉ scene.registry.entries := fun registered =>
            lacks.absent _ (List.mem_map.mpr ⟨_, registered, rfl⟩)
              ((enrols.fst_eq registered).symm.trans key)
          obtain ⟨elapsed, answered⟩ := service.answer_eq site scene job
          have fate := tended.fate job
          generalize service.dispatcher.run (site.environment scene) service.grounds.later job = ran
            at fate answered
          cases fate with
          | unknown absent =>
              rw [answered, tended.version, if_pos rfl]
              rfl
          | ran registered found suits notBuilt ran => exact absurd registered nobody
          | built registered found backend ran => exact absurd registered nobody

/-! ## The main theorem -/

/-- **Languages do not disturb one another.** The answers to the jobs of a language are alike
whether or not the jobs of other languages are left out, and alike in every other scene in
which its program, its server and its jobs are the same, whatever else is registered, whatever
starts there and whatever is asked of it. Jobs of a language that nobody serves are refused in
every scene in the same way. -/
theorem Site.answers_alike (site : Site σ ρ) (scene : Scene σ ρ) (language : Language) :
    (scene.Hosts language → site.Secludes scene language →
      List.Forall₂ (Answer.Alike language) (site.answersFor scene language)
          (site.answersFor (scene.only language) language) ∧
        ∀ other : Scene σ ρ, Scene.Agree language scene other → other.Hosts language →
          site.Secludes other language →
          List.Forall₂ (Answer.Alike language) (site.answersFor scene language)
            (site.answersFor other language)) ∧
    (scene.Lacks language →
      site.answersFor scene language = site.answersFor (scene.only language) language ∧
        site.answersFor scene language = (scene.jobsFor language).map site.refusal) := by
  have same : (scene.only language).jobsFor language = scene.jobsFor language := by
    simp [Scene.jobsFor, Scene.only, List.filter_filter]
  refine ⟨fun hosts secludes => ?_, fun lacks => ?_⟩
  · have alike : ∀ other : Scene σ ρ, Scene.Agree language scene other → other.Hosts language →
        site.Secludes other language →
        List.Forall₂ (Answer.Alike language) (site.answersFor scene language)
          (site.answersFor other language) := by
      intro other agree hostsOther secludesOther
      exact Tended.alike_course hosts hostsOther secludes secludesOther
        (.of_filter_eq agree.jobs) (.of_start hosts.valid site) (.of_start hostsOther.valid site)
        (agree.accords hosts hostsOther)
    refine ⟨alike _ ⟨fun _ _ _ _ => ⟨rfl, fun _ _ _ => rfl⟩, fun _ _ => rfl, same.symm⟩
      ⟨hosts.valid, hosts.listed, hosts.apart⟩ fun build backend => ?_, alike⟩
    obtain ⟨shelters, contained⟩ := secludes build backend
    exact ⟨⟨shelters.steady, shelters.confined, shelters.unused⟩, contained⟩
  · have refused := Tended.answersFor_lacking lacks (.of_start lacks.valid site) scene.jobs
    have lacksToo : (scene.only language).Lacks language := ⟨lacks.valid, lacks.absent⟩
    have alone := Tended.answersFor_lacking lacksToo (.of_start lacksToo.valid site)
      (scene.jobsFor language)
    refine ⟨refused.trans (Eq.trans ?_ alone.symm), refused⟩
    exact congrArg (List.map site.refusal) same.symm

/-! ## Three languages on two machines -/

/-- A worker that is not installed, and two languages that are built. -/
def mixed : List (String × Backend) :=
  [("Ada", .worker ["ada-worker"] "ada" none),
    ("Go", .ephemeral ⟨"main.go", "library.go", ["go", "run", "."], ["go", "version"]⟩),
    ("Zig", .ephemeral ⟨"main.zig", "library.zig", ["zig", "run"], ["zig", "version"]⟩)]

/-- The last of the three languages. -/
def zig : Language :=
  ⟨"Zig", .ephemeral ⟨"main.zig", "library.zig", ["zig", "run"], ["zig", "version"]⟩⟩

/-- A language that nobody serves. -/
def perl : Language :=
  ⟨"Perl", .worker [] "" none⟩

/-- A job of each of the three languages, and one of a language that nobody serves. -/
def mixedScene : Scene Unit Unit where
  registry :=
    ⟨[("ada", ⟨"Ada", .worker ["ada-worker"] "ada" none⟩),
      ("go", ⟨"Go", .ephemeral ⟨"main.go", "library.go", ["go", "run", "."], ["go", "version"]⟩⟩),
      ("zig", zig)]⟩
  programs := ⟨fun _ _ => none, fun _ _ _ => .error .notFound⟩
  servers := fun _ => ()
  clock := fun count => 1000 + count
  jobs := ["Ada", "Go", "Zig", "Perl"].map fun language => ⟨language, "", "", "", ""⟩

theorem hosts_zig : mixedScene.Hosts zig where
  valid := ⟨mixed, by decide +kernel⟩
  listed := by decide
  apart := by
    rintro other _ port ⟨⟩

theorem lacks_perl : mixedScene.Lacks perl where
  valid := hosts_zig.valid
  absent := by decide +kernel

/-- No process does anything, and no server answers. -/
def idle : Conduct Unit Unit where
  receive _ _ := ((), [])
  finish _ := ((), [])
  accepts _ _ := (false, ())
  post _ _ := (⟨.broken .unanswered, none⟩, ())

/-- A machine on which every program writes out the place where it is started. -/
def locating : Platform where
  directory := "/"
  find := fun _ _ => .ok "/bin/pwd"
  start := fun _ _ _ _ place => .ok (.write .out (Text.utf8 place) (.done (.status 0)))

/-- That machine with an empty file tree. -/
def locatingSite : Site Unit Unit :=
  ⟨locating, idle, { Settings.standard with workspaceRoot := "/work" }, .emptyDirectory⟩

theorem exists_intercalate_concat (home : Location) :
    ∃ front, ∀ name, "/".intercalate (home ++ [name]) = front ++ name := by
  induction home with
  | nil => exact ⟨"", fun name => by simp⟩
  | cons step rest ih =>
      obtain ⟨front, same⟩ := ih
      refine ⟨step ++ "/" ++ front, fun name => ?_⟩
      have more : rest ++ [name] ≠ [] := by simp
      rw [List.cons_append, String.intercalate_cons_of_ne_nil more, same]
      simp [String.append_assoc]

/-- The places of two directories are alike. -/
theorem alike_pathOf (home : Location) (language : String) (one other : Nat) :
    Alike one other (Tree.pathOf (home ++ [workspaceName language one]))
      (Tree.pathOf (home ++ [workspaceName language other])) := by
  obtain ⟨front, shape⟩ := exists_intercalate_concat home
  rw [Tree.pathOf, Tree.pathOf, shape, shape]
  refine (Alike.refl one other "/").append ((Alike.refl one other front).append ?_)
  exact ((Alike.stamp one other).append (.refl one other "_")).append (.refl one other _)

theorem secludes_locating : locatingSite.Secludes mixedScene zig := by
  intro build _
  refine ⟨⟨?_, ?_, ?_⟩, ?_⟩
  · exact steady_of_made (by decide) (by decide +kernel)
  · intro _ _ build _ last clock tree job
    refine Runner.confined_of_still ?_ _ clock tree job build
    rintro _ _ _ _ place _ ⟨⟩ limit before
    rfl
  · intro count stamp _ language
    have stands : locatingSite.base.place? "/" "/work" = some ["work"] := by decide +kernel
    have empty : locatingSite.base.get? ["work"] = some .emptyDirectory := by rfl
    change locatingSite.base.held "/" "/work" _ = none
    rw [Tree.held, stands, Option.bind_some, Host.Node.get?_append, empty]
    rfl
  · intro program arguments home language one other treeOne treeOther content _ _ _ _ _ _ _
    refine ⟨rfl, fun _ _ _ _ => .started ⟨rfl, ?_, .refl _ _ _, rfl⟩⟩
    have written : ∀ place : String, [Text.utf8 place].reverse.flatten = Text.utf8 place := by simp
    change Alike one other (Text.lossy [Text.utf8 _].reverse.flatten)
      (Text.lossy [Text.utf8 _].reverse.flatten)
    rw [written, written, Text.lossy_utf8, Text.lossy_utf8]
    exact alike_pathOf home language one other

/-- The same scene with the worker installed. -/
def workingScene : Scene Unit Unit where
  registry := mixedScene.registry
  programs :=
    ⟨fun program _ => if program = "ada-worker" then some "/bin/ada-worker" else none,
      fun _ _ _ => .ok ((), [])⟩
  servers := mixedScene.servers
  clock := mixedScene.clock
  jobs := mixedScene.jobs

theorem agree_working : Scene.Agree zig mixedScene workingScene where
  programs := by
    rintro program arguments ⟨⟩ directory
    have missing : workingScene.programs.resolve "zig" directory = none := by
      simp [workingScene]
    rw [missing]
    exact ⟨rfl, nofun⟩
  server _ _ := rfl
  jobs := by rw [Scene.jobsFor, Scene.jobsFor, workingScene]

/-- A job writes out its directory, which has another stamp when the other jobs are left out;
the answer is alike when a worker starts that did not start before; and the job of the language
that nobody serves is refused with or without the others. -/
theorem answers_alike_zig :
    mixedScene.Hosts zig ∧ locatingSite.Secludes mixedScene zig ∧
    (locatingSite.answersFor mixedScene zig).map (·.envelope.result) =
      [some "/work/1006_zig"] ∧
    (locatingSite.answersFor (mixedScene.only zig) zig).map (·.envelope.result) =
      [some "/work/1001_zig"] ∧
    List.Forall₂ (Answer.Alike zig) (locatingSite.answersFor mixedScene zig)
      (locatingSite.answersFor (mixedScene.only zig) zig) ∧
    Scene.Agree zig mixedScene workingScene ∧
    List.Forall₂ (Answer.Alike zig) (locatingSite.answersFor mixedScene zig)
      (locatingSite.answersFor workingScene zig) ∧
    mixedScene.Lacks perl ∧
    (locatingSite.answersFor mixedScene perl).map (·.envelope.exception) =
      [some "Unknown language: Perl"] ∧
    locatingSite.answersFor mixedScene perl =
      locatingSite.answersFor (mixedScene.only perl) perl := by
  obtain ⟨alone, together⟩ :=
    (Site.answers_alike locatingSite mixedScene zig).1 hosts_zig secludes_locating
  have refused := (Site.answers_alike locatingSite mixedScene perl).2 lacks_perl
  have hosts : workingScene.Hosts zig := ⟨hosts_zig.valid, hosts_zig.listed, hosts_zig.apart⟩
  refine ⟨hosts_zig, secludes_locating, by decide +kernel, by decide +kernel, alone, agree_working,
    together workingScene agree_working hosts ?_, lacks_perl, ?_, refused.1⟩
  · intro build backend
    obtain ⟨shelters, contained⟩ := secludes_locating build backend
    exact ⟨⟨shelters.steady, shelters.confined, shelters.unused⟩, contained⟩
  · rw [refused.2]
    decide +kernel

/-! ## A root that is not steady -/

/-- Answers are not alike when the first messages are of different sizes, but not the stamps. -/
theorem not_alike_of_sizes {answers others : List Answer} {first second : Envelope}
    {one other : Nat} {text twin : String} (begins : answers.head? = some ⟨first, some one⟩)
    (starts : others.head? = some ⟨second, some other⟩) (equal : Stamp.EquallyLong one other)
    (told : first.exception = some text) (said : second.exception = some twin)
    (differ : text.utf8ByteSize ≠ twin.utf8ByteSize) :
    ¬ List.Forall₂ (Answer.Alike language) answers others := by
  intro alike
  cases alike with
  | nil => cases begins
  | cons alike rest =>
      obtain rfl := Option.some.inj begins
      obtain rfl := Option.some.inj starts
      cases alike with
      | stamped backend alike =>
          have texts := (alike equal).exception
          rw [told, said] at texts
          cases texts with
          | some texts => exact differ (texts.utf8ByteSize_eq equal)

/-- A machine without programs, on which the root leads through a missing directory to a
place inside of a file. -/
def unsteadySite : Site Unit Unit where
  platform := ⟨"/", fun _ _ => .error .notFound, fun _ _ _ _ _ => .error .notFound⟩
  conduct := idle
  settings := { Settings.standard with workspaceRoot := "/new/../f/b" }
  tree := .directory [("f", .file [] false)]

/-- A job of another language makes the missing directory, and then the root is refused for
another reason, although no command does anything and no directory is in the way. -/
theorem not_answers_alike_of_unsteady :
    mixedScene.Hosts zig ∧
    (∀ last clock tree job build,
      (unsteadySite.runner last).Confined unsteadySite.platform clock tree job build) ∧
    (∀ stamp, Unused "/" "/new/../f/b" unsteadySite.base stamp) ∧
    (∀ build, SelfContained unsteadySite.platform "/new/../f/b" (some 30000) unsteadySite.base
      build) ∧
    ¬ List.Forall₂ (Answer.Alike zig) (unsteadySite.answersFor mixedScene zig)
      (unsteadySite.answersFor (mixedScene.only zig) zig) := by
  have closed : unsteadySite.base.place? "/" "/new/../f/b" = none := by decide +kernel
  refine ⟨hosts_zig, fun last clock tree job build => ?_, fun stamp language => ?_,
    fun build => ?_, fun alike => ?_⟩
  · exact Runner.confined_of_still (by rintro _ _ _ _ _ _ ⟨⟩) _ clock tree job build
  · rw [Tree.held, closed]
    rfl
  · intro program arguments home language one other treeOne treeOther content _ opens
    rw [show unsteadySite.platform.directory = "/" from rfl, closed] at opens
    cases opens
  · have together : (unsteadySite.answersFor mixedScene zig).head? =
        some ⟨⟨none, some ("Workspace error: Failed to create workspace root /new/../f/b: " ++
          "Not a directory (os error 20)"), some "workspace_error", none, "fastcompile/0.1.0"⟩,
          some 1006⟩ := by decide +kernel
    have alone : (unsteadySite.answersFor (mixedScene.only zig) zig).head? =
        some ⟨⟨none, some ("Workspace error: Failed to create workspace root /new/../f/b: " ++
          "File exists (os error 17)"), some "workspace_error", none, "fastcompile/0.1.0"⟩,
          some 1001⟩ := by decide +kernel
    exact not_alike_of_sizes together alone (by decide +kernel) rfl rfl (by decide +kernel) alike

end Polyglot
