import Polyglot.Decimal.Shortest
import Polyglot.Text.Quoted

/-!
# Ways in which a value has the wrong shape

A reader that asks for a record, a text or a number and finds something else says
what it found and what it asked for. The wording does not depend on where the value
came from, so it is shared by every reader; a reader of text adds the place.
-/

set_option autoImplicit false

namespace Polyglot

/-- A value as a complaint about it names it. -/
inductive Found where
  /-- The null value. -/
  | null
  /-- A truth value. -/
  | boolean (value : Bool)
  /-- A whole number. -/
  | integer (value : Int)
  /-- A number with a point or an exponent. -/
  | float (negative : Bool) (magnitude : Decimal.Binary64)
  /-- A text. -/
  | text (value : String)
  /-- A sequence of values. -/
  | sequence
  /-- A collection of named values. -/
  | map
  deriving DecidableEq, Repr

/-- The name of a found value in a message. -/
def Found.describe : Found → String
  | .null => "null"
  | .boolean true => "boolean `true`"
  | .boolean false => "boolean `false`"
  | .integer value => "integer `" ++ toString value ++ "`"
  | .float negative magnitude =>
    "floating point `" ++ Decimal.floatText negative magnitude ++ "`"
  | .text value => "string " ++ Text.quoted value
  | .sequence => "sequence"
  | .map => "map"

/-- A way in which a value does not have the shape that was asked for. -/
inductive Mismatch where
  /-- A record lacks a member that it must have. -/
  | missingField (name : String)
  /-- A record has a member twice. -/
  | duplicateField (name : String)
  /-- A tag names none of the admissible variants. -/
  | unknownVariant (name : String) (admissible : List String)
  /-- A sequence has the wrong number of elements. -/
  | invalidLength (length : Nat) (expected : String)
  /-- A value is of the wrong kind. -/
  | invalidType (found : Found) (expected : String)
  /-- A value is of the right kind and outside the admissible range. -/
  | invalidValue (found : Found) (expected : String)
  deriving DecidableEq, Repr

/-- The wording of a mismatch. -/
def Mismatch.message : Mismatch → String
  | .missingField name => "missing field `" ++ name ++ "`"
  | .duplicateField name => "duplicate field `" ++ name ++ "`"
  | .unknownVariant name admissible =>
    "unknown variant `" ++ name ++ "`, expected one of " ++
      ", ".intercalate (admissible.map fun variant => "`" ++ variant ++ "`")
  | .invalidLength length expected =>
    "invalid length " ++ toString length ++ ", expected " ++ expected
  | .invalidType found expected => "invalid type: " ++ found.describe ++ ", expected " ++ expected
  | .invalidValue found expected => "invalid value: " ++ found.describe ++ ", expected " ++ expected

end Polyglot
