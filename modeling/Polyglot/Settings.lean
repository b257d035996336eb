import Polyglot.Backend.Codec
import Polyglot.Builtin
import Polyglot.Path
import Polyglot.Toml.Document

/-!
# Settings of the service

Everything that can be configured has a default, so an empty settings file is a valid
one. A table of languages in the settings replaces the built-in languages; an empty
table serves none. A timeout of zero seconds disables the bound on waiting.
-/

set_option autoImplicit false

namespace Polyglot

/-- What can be configured. -/
structure Settings where
  /-- The directory that holds the directories of jobs. -/
  workspaceRoot : String
  /-- The directory that the directories of backends are relative to. -/
  backendsDir : String
  /-- The bound on every wait in seconds; zero for none. -/
  timeoutSeconds : Nat
  /-- The number of attempts to reach a proxied backend at its start. -/
  readyAttempts : Nat
  /-- The origins that are accepted besides the loopback interface. -/
  allowedOrigins : List String
  /-- The version that every response reports. -/
  serviceVersion : String
  /-- The languages that replace the built-in ones, in increasing order of their names. -/
  languages : Option (List (String × Backend))
  deriving Repr

namespace Settings

/-- The settings of an empty file. -/
def standard : Settings where
  workspaceRoot := "/tmp/fastcompile"
  backendsDir := "."
  timeoutSeconds := 30
  readyAttempts := 10
  allowedOrigins := ["https://ide.onelang.io"]
  serviceVersion := "fastcompile/0.1.0"
  languages := none

/-- Reads a table of languages. -/
def readLanguages : Data → Except Mismatch (List (String × Backend))
  | .table members => do
    let languages ← members.mapM fun entry => do .ok (entry.1, ← Backend.read entry.2)
    .ok (Table.ofList languages)
  | other => .error (.invalidType other.found "a map")

/-- Reads one setting; unknown ones are ignored. -/
def readMember (settings : Settings) (member : String × Data) : Except Mismatch Settings :=
  let value := member.2
  match member.1 with
  | "workspace_root" => do .ok { settings with workspaceRoot := ← readPath value }
  | "backends_dir" => do .ok { settings with backendsDir := ← readPath value }
  | "job_timeout_secs" => do
    .ok { settings with timeoutSeconds := ← Data.asNatural (Nat.pow 2 64) "u64" value }
  | "proxy_ready_attempts" => do
    .ok { settings with readyAttempts := ← Data.asNatural (Nat.pow 2 32) "u32" value }
  | "allowed_origins" => do .ok { settings with allowedOrigins := ← Data.asTexts value }
  | "service_version" => do .ok { settings with serviceVersion := ← readWord value }
  | "languages" => do .ok { settings with languages := some (← readLanguages value) }
  | _ => .ok settings

/-- The settings that a table describes. -/
def ofData : Data → Except Mismatch Settings
  | .table members => members.foldlM readMember standard
  | other => .error (.invalidType other.found "struct ServiceConfig")

/-- The settings that a text describes. -/
def read (text : String) : Except Failure Settings :=
  match Toml.read text with
  | none => .error (.configuration "the settings are not a TOML text")
  | some data =>
    match ofData data with
    | .ok settings => .ok settings
    | .error what => .error (.configuration what.message)

/-- The bound on every wait in milliseconds, unless it is disabled. -/
def timeoutMs? (settings : Settings) : Option Nat :=
  if settings.timeoutSeconds = 0 then none else some (settings.timeoutSeconds * 1000)

/-- The configured languages, or the built-in ones. -/
def registry (settings : Settings) : Except Failure Registry :=
  match settings.languages with
  | some languages => Registry.ofList languages
  | none => .ok Builtin.registry

/-- The directory of a long-lived backend. -/
def directoryOf (settings : Settings) (directory : String) : String :=
  Path.join settings.backendsDir directory

end Settings

end Polyglot
