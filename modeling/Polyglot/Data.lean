import Polyglot.Mismatch
import Polyglot.Table

/-!
# Structured data

The value that a settings file or a structured text denotes, before it is read as
something of the domain. Settings files and JSON texts share this type, so a backend
description is read from either by one reader.
-/

set_option autoImplicit false

namespace Polyglot

/-- A structured value. -/
inductive Data where
  /-- The null value. -/
  | null
  /-- A truth value. -/
  | boolean (value : Bool)
  /-- A whole number. -/
  | integer (value : Int)
  /-- A finite number with a point or an exponent. -/
  | float (negative : Bool) (magnitude : Decimal.Binary64)
  /-- An infinity or a value that is not a number, as it was spelt. -/
  | unbounded (spelling : String)
  /-- A date, a time or both, as it was spelt. -/
  | moment (spelling : String)
  /-- A text. -/
  | text (value : String)
  /-- A sequence of values. -/
  | list (items : List Data)
  /-- A collection of named values. -/
  | table (members : List (String × Data))
  deriving Repr

namespace Data

/-- The name of a value in a message. -/
def found : Data → Found
  | .null => .null
  | .boolean value => .boolean value
  | .integer value => .integer value
  | .float negative magnitude => .float negative magnitude
  | .unbounded spelling => .text spelling
  | .moment _ => .map
  | .text value => .text value
  | .list _ => .sequence
  | .table _ => .map

/-- The member of a table with the given name. -/
def member? (name : String) : Data → Option Data
  | .table members => Table.find? name members
  | _ => none

/-- A text, or a mismatch that names what was asked for. -/
def asText (expected : String) : Data → Except Mismatch String
  | .text value => .ok value
  | other => .error (.invalidType other.found expected)

/-- A sequence of texts. -/
def asTexts : Data → Except Mismatch (List String)
  | .list items => items.mapM (asText "a string")
  | other => .error (.invalidType other.found "a sequence")

/-- A natural below the given bound, whose type has the given name in messages. -/
def asNatural (bound : Nat) (expected : String) : Data → Except Mismatch Nat
  | .integer value =>
    if 0 ≤ value ∧ value < bound then .ok value.toNat
    else .error (.invalidValue (.integer value) expected)
  | other => .error (.invalidType other.found expected)

end Data

end Polyglot
