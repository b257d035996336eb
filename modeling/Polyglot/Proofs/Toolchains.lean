import Polyglot.Proofs.Registration
import Polyglot.Versions

/-!
# What is known of the toolchains

The first look at the versions runs every version command once, in the order of the registry, and
each in the world that the ones before it left behind (`VersionCache.probes`). What a language
reports depends on the outcome of its own command only (`VersionCache.Yields`). The names of the
languages differ, so the reports are kept side by side and none replaces another
(`VersionCache.collected_fresh`).

After the first look a cache answers out of itself. A later look neither asks the environment nor
changes the world (`VersionCache.get_of_populated`), so no look sees anything but what the first
one saw (`VersionCache.getAll_of_populated`), and whoever looks sees one version for every language
that has a version command (`VersionCache.Reached.lists_get`).
-/

set_option autoImplicit false

namespace Polyglot

open Polyglot.Host (OsError Outcome)

namespace VersionCache

variable {ω σ : Type} {environment : Environment ω σ} {backendsDir : String}
variable {registry : Registry} {cache : VersionCache}

/-! ## One version command -/

/-- A version that a command can yield in a world. How a process ends makes no difference. -/
inductive Yields (environment : Environment ω σ) (world : ω) (directory : Option String) :
    CommandLine → String → Prop where
  | nothing : Yields environment world directory [] ""
  | ended {program : String} {arguments : List String} {outcome : Outcome}
      (ran : (environment.run world program arguments directory).1 = .ok outcome) :
      Yields environment world directory (program :: arguments)
        (Text.trim (Text.lossy outcome.stdout ++ Text.lossy outcome.stderr))
  | missing {program : String} {arguments : List String} {reason : OsError}
      (refused : (environment.run world program arguments directory).1 = .error reason) :
      Yields environment world directory (program :: arguments)
        ("unavailable: " ++ reason.message)

/-- A version depends on the outcome of its command only. -/
theorem fst_query (environment : Environment ω σ) (world : ω) (program : String)
    (arguments : List String) (directory : Option String) :
    (query environment world (program :: arguments) directory).1 =
      report (environment.run world program arguments directory).1 :=
  rfl

theorem yields_query (environment : Environment ω σ) (world : ω) (command : CommandLine)
    (directory : Option String) :
    Yields environment world directory command
      (query environment world command directory).1 := by
  cases command with
  | nil => exact .nothing
  | cons program arguments =>
      rw [fst_query]
      cases ran : (environment.run world program arguments directory).1 with
      | ok outcome => exact .ended ran
      | error reason => exact .missing ran

/-! ## All version commands -/

/-- The version of every language that has a version command, under its name. The commands are
run one after the other. -/
def probes (environment : Environment ω σ) (backendsDir : String) :
    List Language → ω → List (String × String) × ω
  | [], world => ([], world)
  | language :: languages, world =>
    match language.backend.versionCommand? with
    | none => probes environment backendsDir languages world
    | some command =>
      let (version, world) :=
        query environment world command (directoryOf backendsDir language.backend)
      let (versions, world) := probes environment backendsDir languages world
      ((language.name, version) :: versions, world)

theorem collect_eq (languages : List Language) (versions : List (String × String)) (world : ω) :
    collect environment backendsDir languages versions world =
      let probed := probes environment backendsDir languages world
      (probed.1.foldl (fun table entry => Table.insert entry.1 entry.2 table) versions,
        probed.2) := by
  induction languages generalizing versions world with
  | nil => rfl
  | cons language languages ih =>
      cases asked : language.backend.versionCommand? with
      | none => simp only [collect, probes, asked, ih]
      | some command => simp only [collect, probes, asked, ih, List.foldl_cons]

/-- The first look collects what the commands yield. -/
theorem get_fresh (environment : Environment ω σ) (registry : Registry) (backendsDir : String)
    (world : ω) :
    (fresh registry backendsDir).get environment world =
      let probed := probes environment backendsDir registry.toList world
      (Table.ofList probed.1, ⟨registry, backendsDir, some (Table.ofList probed.1)⟩,
        probed.2) := by
  simp only [get, fresh, collect_eq, Table.ofList]

theorem map_fst_probes (environment : Environment ω σ) (backendsDir : String)
    (languages : List Language) (world : ω) :
    (probes environment backendsDir languages world).1.map (·.1) =
      (languages.filter fun language => language.backend.versionCommand?.isSome).map (·.name) := by
  induction languages generalizing world with
  | nil => rfl
  | cons language languages ih =>
      cases asked : language.backend.versionCommand? with
      | none => simp [probes, asked, ih]
      | some command => simp [probes, asked, ih]

theorem probes_append (earlier later : List Language) (world : ω) :
    probes environment backendsDir (earlier ++ later) world =
      let first := probes environment backendsDir earlier world
      let rest := probes environment backendsDir later first.2
      (first.1 ++ rest.1, rest.2) := by
  induction earlier generalizing world with
  | nil => rfl
  | cons language earlier ih =>
      cases asked : language.backend.versionCommand? with
      | none => simp only [List.cons_append, probes, asked, ih]
      | some command => simp only [List.cons_append, probes, asked, ih]

/-- A language is asked in the world that the languages before it left behind. -/
theorem mem_probes {earlier later : List Language} {language : Language} {command : CommandLine}
    (asked : language.backend.versionCommand? = some command) (world : ω) :
    (language.name,
      (query environment (probes environment backendsDir earlier world).2 command
        (directoryOf backendsDir language.backend)).1) ∈
      (probes environment backendsDir (earlier ++ language :: later) world).1 := by
  rw [probes_append]
  simp [probes, asked]

/-- A table of versions: one for every registered language that has a version command, under its
registered name, and no others. -/
structure Lists (registry : Registry) (versions : List (String × String)) : Prop where
  ordered : Table.Ordered versions
  names : (versions.map (·.1)).Perm
    ((registry.toList.filter fun language => language.backend.versionCommand?.isSome).map (·.name))

/-- The versions that were collected from an environment. Each is what the version command of its
language yields in its turn. -/
structure Collected (environment : Environment ω σ) (registry : Registry) (backendsDir : String)
    (world : ω) (versions : List (String × String)) : Prop extends Lists registry versions where
  yields : ∀ earlier language later command, registry.toList = earlier ++ language :: later →
    language.backend.versionCommand? = some command →
    ∃ version, Table.find? language.name versions = some version ∧
      Yields environment (probes environment backendsDir earlier world).2
        (directoryOf backendsDir language.backend) command version

section Registered

variable {languages : List (String × Backend)}

theorem nodup_probes (enrols : registry.Enrols languages) (environment : Environment ω σ)
    (backendsDir : String) (world : ω) :
    ((probes environment backendsDir registry.toList world).1.map (·.1)).Nodup := by
  rw [map_fst_probes]
  exact (List.filter_sublist.map _).nodup enrols.nodup_name

/-- The version of a language is what its command yields in its turn. -/
theorem find?_get_fresh (enrols : registry.Enrols languages) {earlier later : List Language}
    {language : Language} {command : CommandLine}
    (listed : registry.toList = earlier ++ language :: later)
    (asked : language.backend.versionCommand? = some command)
    (environment : Environment ω σ) (backendsDir : String) (world : ω) :
    Table.find? language.name ((fresh registry backendsDir).get environment world).1 =
      some (query environment (probes environment backendsDir earlier world).2 command
        (directoryOf backendsDir language.backend)).1 := by
  have same := Table.ofList_perm (nodup_probes enrols environment backendsDir world)
  rw [get_fresh, Table.find?_eq_some_iff (Table.ordered_ofList _), same.mem_iff, listed]
  exact mem_probes asked world

theorem collected_fresh (enrols : registry.Enrols languages) (environment : Environment ω σ)
    (backendsDir : String) (world : ω) :
    Collected environment registry backendsDir world
      ((fresh registry backendsDir).get environment world).1 where
  names := by
    rw [get_fresh, ← map_fst_probes environment backendsDir registry.toList world]
    exact (Table.ofList_perm (nodup_probes enrols environment backendsDir world)).map _
  ordered := by
    rw [get_fresh]
    exact Table.ordered_ofList _
  yields := fun _ _ _ _ listed asked =>
    ⟨_, find?_get_fresh enrols listed asked environment backendsDir world, yields_query _ _ _ _⟩

end Registered

/-! ## Looking again -/

/-- What is answered to looks at some moments, each in an environment and a world of its own, with
the worlds in which they end. -/
def getAll (cache : VersionCache) :
    List (Environment ω σ × ω) → List (List (String × String) × ω)
  | [] => []
  | (environment, world) :: later =>
    let (versions, cache, world) := cache.get environment world
    (versions, world) :: getAll cache later

/-- A cache that holds versions answers them, and leaves the world as it is. -/
theorem get_of_populated {versions : List (String × String)}
    (populated : cache.versions = some versions) (environment : Environment ω σ) (world : ω) :
    cache.get environment world = (versions, cache, world) := by
  simp only [get, populated]

/-- A cache holds what it answers, and nothing else about it changes. -/
theorem cache_get (environment : Environment ω σ) (cache : VersionCache) (world : ω) :
    (cache.get environment world).2.1 =
      { cache with versions := some (cache.get environment world).1 } := by
  obtain ⟨registry, backendsDir, _ | versions⟩ := cache
  · rfl
  · rfl

theorem getAll_of_populated {versions : List (String × String)}
    (populated : cache.versions = some versions) (moments : List (Environment ω σ × ω)) :
    cache.getAll moments = moments.map fun moment => (versions, moment.2) := by
  induction moments with
  | nil => rfl
  | cons moment later ih =>
      obtain ⟨environment, world⟩ := moment
      simp only [getAll, get_of_populated populated, ih, List.map_cons]

/-- A cache of the versions of a registry, whoever asked it before. -/
inductive Reached (registry : Registry) (backendsDir : String) : VersionCache → Prop where
  | fresh : Reached registry backendsDir (fresh registry backendsDir)
  | asked {ω σ : Type} {cache : VersionCache} (environment : Environment ω σ) (world : ω)
      (reached : Reached registry backendsDir cache) :
      Reached registry backendsDir (cache.get environment world).2.1

/-- Whenever a cache is asked, it answers the versions of its registry. -/
theorem Reached.lists_get {languages : List (String × Backend)} (enrols : registry.Enrols languages)
    (reached : Reached registry backendsDir cache) (environment : Environment ω σ) (world : ω) :
    Lists registry (cache.get environment world).1 := by
  induction reached generalizing ω σ with
  | fresh => exact (collected_fresh enrols environment backendsDir world).toLists
  | @asked _ _ before former place _ ih =>
      have populated := congrArg VersionCache.versions (cache_get former before place)
      rw [get_of_populated populated]
      exact ih former place

/-- **Versions are collected once, each on its own.** Whatever becomes of the toolchains, all looks
answer what the first one answered, and no later one touches the world, so none of them runs a
command. The first one answers one version for every registered language that has a version
command, under its registered name, and no others; it is what the command yields in the world that
the commands before it left. If the command of a language has the same outcome in another
environment, the version of the language is the same there, whatever the other commands do. -/
theorem getAll_fresh {languages : List (String × Backend)}
    (made : Registry.ofList languages = .ok registry) (backendsDir : String)
    (environment : Environment ω σ) (world : ω) (later : List (Environment ω σ × ω)) :
    let first := (fresh registry backendsDir).get environment world
    (fresh registry backendsDir).getAll ((environment, world) :: later) =
      (first.1, first.2.2) :: later.map (fun moment => (first.1, moment.2)) ∧
    Collected environment registry backendsDir world first.1 ∧
    ∀ (other : Environment ω σ) (place : ω) (earlier : List Language) (language : Language)
      (rest : List Language) (program : String) (arguments : List String),
      registry.toList = earlier ++ language :: rest →
      language.backend.versionCommand? = some (program :: arguments) →
      (environment.run (probes environment backendsDir earlier world).2 program arguments
          (directoryOf backendsDir language.backend)).1 =
        (other.run (probes other backendsDir earlier place).2 program arguments
          (directoryOf backendsDir language.backend)).1 →
      Table.find? language.name first.1 =
        Table.find? language.name ((fresh registry backendsDir).get other place).1 := by
  have enrols := Registry.enrols_of_ofList made
  refine ⟨?_, collected_fresh enrols environment backendsDir world, ?_⟩
  · have populated :=
      congrArg VersionCache.versions (cache_get environment (fresh registry backendsDir) world)
    simp only [getAll, getAll_of_populated populated]
  · intro other place earlier language rest program arguments listed asked same
    rw [find?_get_fresh enrols listed asked environment backendsDir world,
      find?_get_fresh enrols listed asked other backendsDir place, fst_query, fst_query, same]

end VersionCache

/-- The registry of the two languages, of which one has a version command. -/
def Registry.pairRegistry : Registry :=
  ⟨[("ada", ⟨"Ada", .worker ["ada-worker"] "ada" none⟩),
    ("rust", ⟨"Rust",
      .ephemeral ⟨"main.rs", "library.rs", ["cargo", "run"], ["cargo", "--version"]⟩⟩)]⟩

/-- An environment in which every program has one outcome. Its world counts the programs run. -/
def Environment.counting (outcome : Except OsError Outcome) : Environment Nat Unit where
  processes :=
    ⟨fun _ _ _ => none, fun _ _ _ _ => .error .notFound, fun count process _ => (count, process, []),
      fun count process => (count, process, [])⟩
  network := .unreachable .notFound
  run count _ _ _ := (outcome, count + 1)
  build runner count _ _ := (.error (.workspace ""), runner, count)
  clock count := (0, count)

namespace VersionCache

/-- A version is kept although its command failed when it was asked, and is gone afterwards. -/
theorem getAll_fresh_pair :
    let asked : Environment Nat Unit :=
      .counting (.ok ⟨some (.status 1), Text.utf8 " cargo ", Text.utf8 "1.70\n"⟩)
    Registry.ofList Registry.pair = .ok Registry.pairRegistry ∧
    (fresh Registry.pairRegistry ".").getAll [(asked, 0), (.counting (.error .notFound), 5)] =
      [([("Rust", "cargo 1.70")], 1), ([("Rust", "cargo 1.70")], 5)] ∧
    Collected asked Registry.pairRegistry "." 0 [("Rust", "cargo 1.70")] := by
  intro asked
  have made : Registry.ofList Registry.pair = .ok Registry.pairRegistry := by decide +kernel
  have probed : probes asked "." Registry.pairRegistry.toList 0 = ([("Rust", "cargo 1.70")], 1) := by
    decide +kernel
  have first : (fresh Registry.pairRegistry ".").get asked 0 =
      ([("Rust", "cargo 1.70")], ⟨Registry.pairRegistry, ".", some [("Rust", "cargo 1.70")]⟩, 1) := by
    rw [get_fresh, probed]
    rfl
  obtain ⟨frozen, collected, _⟩ :=
    getAll_fresh made "." asked 0 [(.counting (.error .notFound), 5)]
  rw [first] at frozen collected
  exact ⟨made, frozen, collected⟩

end VersionCache

end Polyglot
