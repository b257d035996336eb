import Polyglot.Environment
import Polyglot.Registry
import Polyglot.Text.Blank

/-!
# Versions of the toolchains

A toolchain reports its version on its standard streams, and its exit status says
nothing about that. A version command that cannot be started is reported in place of a
version, so one missing toolchain hides no other.

The versions are collected once. Every later look sees what was collected first, even
if a toolchain has changed or gone since.
-/

set_option autoImplicit false

namespace Polyglot

open Polyglot.Host (OsError Outcome)

/-- The versions of the registered languages, as far as they were collected. -/
structure VersionCache where
  /-- The registered languages. -/
  registry : Registry
  /-- The directory that the directories of backends are relative to. -/
  backendsDir : String
  /-- The versions in increasing order of the names, once they were collected. -/
  versions : Option (List (String × String))

namespace VersionCache

variable {ω σ : Type}

/-- The cache that holds no versions yet. -/
def fresh (registry : Registry) (backendsDir : String) : VersionCache :=
  ⟨registry, backendsDir, none⟩

/-- Whether the versions were collected. -/
def isPopulated (cache : VersionCache) : Bool :=
  cache.versions.isSome

/-- What a run of a version command reports. -/
def report : Except OsError Outcome → String
  | .ok outcome => Text.trim (Text.lossy outcome.stdout ++ Text.lossy outcome.stderr)
  | .error reason => "unavailable: " ++ reason.message

/-- Runs a version command; an empty one reports nothing. -/
def query (environment : Environment ω σ) (world : ω) (command : CommandLine)
    (directory : Option String) : String × ω :=
  match command with
  | [] => ("", world)
  | program :: arguments =>
    let (outcome, world) := environment.run world program arguments directory
    (report outcome, world)

/-- The directory in which the version command of a backend runs. -/
def directoryOf (backendsDir : String) (backend : Backend) : Option String :=
  backend.directory?.map (Path.join backendsDir)

/-- Collects the versions of some languages; those without a version command are left out. -/
def collect (environment : Environment ω σ) (backendsDir : String) :
    List Language → List (String × String) → ω → List (String × String) × ω
  | [], versions, world => (versions, world)
  | language :: languages, versions, world =>
    match language.backend.versionCommand? with
    | none => collect environment backendsDir languages versions world
    | some command =>
      let (version, world) :=
        query environment world command (directoryOf backendsDir language.backend)
      collect environment backendsDir languages (Table.insert language.name version versions) world

/-- The versions, which are collected if nobody has asked for them before. -/
def get (environment : Environment ω σ) (cache : VersionCache) (world : ω) :
    List (String × String) × VersionCache × ω :=
  match cache.versions with
  | some versions => (versions, cache, world)
  | none =>
    let (versions, world) :=
      collect environment cache.backendsDir cache.registry.toList [] world
    (versions, { cache with versions := some versions }, world)

end VersionCache

end Polyglot
