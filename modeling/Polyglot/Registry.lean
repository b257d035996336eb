import Polyglot.Backend.Spec
import Polyglot.Table
import Polyglot.Text.Blank

/-!
# The languages that are served

Languages are looked up by their normal form: the name without blanks at its ends and
with its Latin letters in lower case. The registry keeps every language under the name
it was registered with, which is the name that backends see, and lists the languages
in the order of their normal forms. No two languages have the same normal form.
-/

set_option autoImplicit false

namespace Polyglot

/-- The form of a name by which languages are compared. -/
def normalForm (name : String) : String :=
  Text.lowerAscii (Text.trim name)

/-- A registered language. -/
structure Language where
  /-- The name without blanks at its ends, otherwise as it was registered. -/
  name : String
  /-- How the language is served. -/
  backend : Backend
  deriving DecidableEq, Repr

/-- The registered languages under their normal forms, in increasing order of these. -/
structure Registry where
  /-- The languages with their normal forms. -/
  entries : List (String × Language)
  deriving DecidableEq, Repr

namespace Registry

/-- The registry without languages. -/
def empty : Registry := ⟨[]⟩

/-- Registers one more language, unless it is defective or already there. -/
def register (registry : Registry) (name : String) (backend : Backend) :
    Except Failure Registry :=
  let key := normalForm name
  match backend.defect? with
  | some defect => .error (.configuration (key ++ ": " ++ defect.message))
  | none =>
    match Table.find? key registry.entries with
    | some _ => .error (.configuration ("language registered twice: " ++ key))
    | none => .ok ⟨Table.insert key ⟨Text.trim name, backend⟩ registry.entries⟩

/-- The registry of the given languages, or the reason for refusing the first bad one. -/
def ofList (languages : List (String × Backend)) : Except Failure Registry :=
  languages.foldlM (fun registry language => registry.register language.1 language.2) empty

/-- How the language that a caller names is served. -/
def resolve (registry : Registry) (name : String) : Except Failure Backend :=
  match Table.find? (normalForm name) registry.entries with
  | some language => .ok language.backend
  | none => .error (.unknownLanguage name)

/-- The languages in the order of their normal forms. -/
def toList (registry : Registry) : List Language :=
  registry.entries.map (·.2)

/-- The number of languages. -/
def size (registry : Registry) : Nat :=
  registry.entries.length

end Registry

end Polyglot
