import Polyglot.Backend.Spec
import Polyglot.Data

/-!
# Reading and writing backend descriptions

A description is a table whose member `strategy` names the way of serving and whose
other members hold the rest. Optional members may be left out or null, unknown members
are ignored, and the order of members does not matter. A description may also be a
sequence: the name of the strategy, followed by the members in their declared order.

A layout lists the members of one record in declared order. It brings either form to a
row of the members, checks each value that is present in the order in which it stands,
and only then looks for members that are missing.
-/

set_option autoImplicit false

namespace Polyglot

/-! ## Layouts -/

/-- One member of a record. -/
structure Slot where
  /-- The name of the member. -/
  name : String
  /-- Whether the member must be given. -/
  required : Bool
  /-- The complaint about a value that the member cannot hold. -/
  check : Data → Except Mismatch Unit

/-- The members of one kind of record. -/
structure Layout where
  /-- The name of the record in messages about its length. -/
  label : String
  /-- The members in declared order. -/
  slots : List Slot

namespace Layout

/-- Checks the members of a table in the order in which they stand. -/
def checkMembers (layout : Layout) (members : List (String × Data)) : Except Mismatch Unit :=
  members.forM fun entry =>
    match layout.slots.find? fun slot => slot.name == entry.1 with
    | some slot => slot.check entry.2
    | none => .ok ()

/-- The row of a table: every member in declared order, unless a required one is missing. -/
def rowOfMembers (layout : Layout) (members : List (String × Data)) :
    Except Mismatch (List (Option Data)) := do
  layout.checkMembers members
  layout.slots.mapM fun slot =>
    match Table.find? slot.name members with
    | some value => .ok (some value)
    | none => if slot.required then .error (.missingField slot.name) else .ok none

/-- The row of a sequence, with the number of elements already taken from it. -/
def rowOfItems (layout : Layout) : List Slot → Nat → List Data → Except Mismatch (List (Option Data))
  | [], taken, rest =>
    let elements := if taken = 1 then " element in sequence" else " elements in sequence"
    if rest.isEmpty then .ok []
    else .error (.invalidLength (taken + rest.length) (toString taken ++ elements))
  | slot :: slots, taken, [] =>
    if slot.required then
      .error (.invalidLength taken
        (layout.label ++ " with " ++ toString layout.slots.length ++ " elements"))
    else do .ok (none :: (← layout.rowOfItems slots (taken + 1) []))
  | slot :: slots, taken, item :: items => do
    slot.check item
    .ok (some item :: (← layout.rowOfItems slots (taken + 1) items))

end Layout

/-- The check that a reader of values makes. -/
def checking {α : Type} (reader : Data → Except Mismatch α) (value : Data) : Except Mismatch Unit :=
  (reader value).map fun _ => ()

/-- Reads a null as nothing and anything else by the given reader. -/
def optionally {α : Type} (reader : Data → Except Mismatch α) : Data → Except Mismatch (Option α)
  | .null => .ok none
  | value => (reader value).map some

/-! ## Readers of the parts -/

/-- Reads a text. -/
def readWord : Data → Except Mismatch String :=
  Data.asText "a string"

/-- Reads a path. -/
def readPath : Data → Except Mismatch String :=
  Data.asText "path string"

/-- Reads a port number. -/
def readPort (value : Data) : Except Mismatch UInt16 :=
  (Data.asNatural (Nat.pow 2 16) "u16" value).map Nat.toUInt16

/-- What a reader makes of a cell of a row, or the given value for an empty cell. -/
def cell {α : Type} (reader : Data → Except Mismatch α) (fallback : α) :
    Option Data → Except Mismatch α
  | some value => reader value
  | none => .ok fallback

namespace ReadyCheck

/-- The members of a check. -/
def layout : Layout where
  label := "struct ReadyCheck"
  slots :=
    [⟨"code", true, checking readWord⟩, ⟨"class_name", false, checking readWord⟩,
     ⟨"method_name", false, checking readWord⟩, ⟨"expected", true, checking readWord⟩]

/-- The check that a row describes. -/
def ofRow : List (Option Data) → Except Mismatch ReadyCheck
  | [code, className, methodName, expected] => do
    .ok ⟨← cell readWord "" code, ← cell readWord "" className, ← cell readWord "" methodName,
      ← cell readWord "" expected⟩
  | row => .error (.invalidLength row.length layout.label)

/-- The check that a value describes. -/
def read : Data → Except Mismatch ReadyCheck
  | .table members => layout.rowOfMembers members >>= ofRow
  | .list items => layout.rowOfItems layout.slots 0 items >>= ofRow
  | other => .error (.invalidType other.found "struct ReadyCheck")

/-- The value that describes a check. -/
def toData (check : ReadyCheck) : Data :=
  .table [("code", .text check.code), ("class_name", .text check.className),
    ("method_name", .text check.methodName), ("expected", .text check.expected)]

end ReadyCheck

/-- The ways of serving a language. -/
inductive Strategy where
  /-- A process that answers request lines. -/
  | worker
  /-- A process that answers over a loopback port. -/
  | proxied
  /-- A command per job. -/
  | ephemeral
  deriving DecidableEq, Repr

namespace Strategy

/-- The name of a strategy in a description. -/
def name : Strategy → String
  | .worker => "persistent_worker"
  | .proxied => "proxied_http"
  | .ephemeral => "ephemeral_build"

/-- Every strategy, in declared order. -/
def all : List Strategy := [.worker, .proxied, .ephemeral]

/-- The strategy that a tag names. -/
def read : Data → Except Mismatch Strategy
  | .text tag =>
    match all.find? fun strategy => strategy.name == tag with
    | some strategy => .ok strategy
    | none => .error (.unknownVariant tag (all.map name))
  | other => .error (.invalidType other.found "variant identifier")

/-- The members of a description of the given strategy. -/
def layout : Strategy → Layout
  | .worker =>
    ⟨"struct variant BackendSpec::PersistentWorker",
      [⟨"start_command", true, checking Data.asTexts⟩, ⟨"working_dir", true, checking readPath⟩,
       ⟨"version_command", false, checking (optionally Data.asTexts)⟩]⟩
  | .proxied =>
    ⟨"struct variant BackendSpec::ProxiedHttp",
      [⟨"start_command", true, checking Data.asTexts⟩, ⟨"working_dir", true, checking readPath⟩,
       ⟨"port", true, checking readPort⟩,
       ⟨"version_command", false, checking (optionally Data.asTexts)⟩,
       ⟨"ready_check", false, checking (optionally ReadyCheck.read)⟩]⟩
  | .ephemeral =>
    ⟨"struct EphemeralBuild",
      [⟨"entry_file_name", true, checking readWord⟩, ⟨"stdlib_file_name", true, checking readWord⟩,
       ⟨"build_command", true, checking Data.asTexts⟩,
       ⟨"version_command", true, checking Data.asTexts⟩]⟩

end Strategy

namespace Backend

/-- The backend that a row of the given strategy describes. -/
def ofRow (strategy : Strategy) (row : List (Option Data)) : Except Mismatch Backend :=
  match strategy, row with
  | .worker, [start, directory, version] => do
    .ok (.worker (← cell Data.asTexts [] start) (← cell readPath "" directory)
      (← cell (optionally Data.asTexts) none version))
  | .proxied, [start, directory, port, version, check] => do
    .ok (.proxied (← cell Data.asTexts [] start) (← cell readPath "" directory)
      (← cell readPort 0 port) (← cell (optionally Data.asTexts) none version)
      (← cell (optionally ReadyCheck.read) none check))
  | .ephemeral, [entry, library, command, version] => do
    .ok (.ephemeral ⟨← cell readWord "" entry, ← cell readWord "" library,
      ← cell Data.asTexts [] command, ← cell Data.asTexts [] version⟩)
  | strategy, row => .error (.invalidLength row.length strategy.layout.label)

/-- The backend that a value describes. -/
def read : Data → Except Mismatch Backend
  | .table members =>
    match Table.find? "strategy" members with
    | none => .error (.missingField "strategy")
    | some tag => do
      let strategy ← Strategy.read tag
      let rest := members.filter fun entry => entry.1 != "strategy"
      ofRow strategy (← strategy.layout.rowOfMembers rest)
  | .list [] => .error (.missingField "strategy")
  | .list (tag :: items) => do
    let strategy ← Strategy.read tag
    ofRow strategy (← strategy.layout.rowOfItems strategy.layout.slots 0 items)
  | other => .error (.invalidType other.found "internally tagged enum BackendSpec")

/-- A sequence of texts as a value. -/
def textsToData (texts : List String) : Data :=
  .list (texts.map .text)

/-- A value that may be absent, with null for nothing. -/
def optionToData {α : Type} (toData : α → Data) : Option α → Data
  | some value => toData value
  | none => .null

/-- The value that describes a backend, with every member written. -/
def toData : Backend → Data
  | .worker start directory version =>
    .table [("strategy", .text Strategy.worker.name), ("start_command", textsToData start),
      ("working_dir", .text directory), ("version_command", optionToData textsToData version)]
  | .proxied start directory port version check =>
    .table [("strategy", .text Strategy.proxied.name), ("start_command", textsToData start),
      ("working_dir", .text directory), ("port", .integer port.toNat),
      ("version_command", optionToData textsToData version),
      ("ready_check", optionToData ReadyCheck.toData check)]
  | .ephemeral build =>
    .table [("strategy", .text Strategy.ephemeral.name), ("entry_file_name", .text build.entryFile),
      ("stdlib_file_name", .text build.libraryFile), ("build_command", textsToData build.command),
      ("version_command", textsToData build.version)]

end Backend

end Polyglot
