import Polyglot.Json.Ignored

/-!
# Records in a JSON text

A record is written as an object whose members may stand in any order, or as an array
of its fields in their declared order. A field holds a text, or a text or a null, or a
natural of 64 bits or a null. Members with other names are passed over, a member that
comes twice is a fault, and a field that is left out is a fault when the form in which
the record is written requires it.

A fault of the record as a whole is reported behind the record: the reader still tries
to consume the closing bracket before it names the place.
-/

set_option autoImplicit false

namespace Polyglot.Json

/-- What a field may hold. -/
inductive Shape where
  /-- A text. -/
  | text
  /-- A text or a null. -/
  | optionalText
  /-- A natural of 64 bits or a null. -/
  | optionalNatural
  deriving DecidableEq, Repr

/-- What a field holds. -/
inductive Datum where
  /-- A null. -/
  | absent
  /-- A text. -/
  | text (value : String)
  /-- A natural. -/
  | natural (value : Nat)
  deriving DecidableEq, Repr

/-- A field of a record. -/
structure Field where
  /-- The name of the member that holds it. -/
  name : String
  /-- What it may hold. -/
  shape : Shape
  /-- Whether an object must have it. -/
  inObject : Bool
  /-- Whether an array must have it. -/
  inArray : Bool
  deriving DecidableEq, Repr

/-- A kind of record. -/
structure Schema where
  /-- The name of the kind in messages. -/
  label : String
  /-- The fields in their declared order. -/
  fields : List Field
  deriving DecidableEq, Repr

/-- What the fields of a record hold; nothing for a field that was left out. -/
abbrev Row := List (Option Datum)

/-- A fault of the given shape at the place reached. -/
def Cursor.misfit {α : Type} (cursor : Cursor) (what : Mismatch) : Except Fault α :=
  cursor.fail (.mismatch what)

/-- Reads the value that comes next far enough to complain about its kind. -/
def wrongKind {α : Type} (expected : String) (cursor : Cursor) : Except Fault α := do
  let complain (found : Found) (cursor : Cursor) : Except Fault α :=
    cursor.misfit (.invalidType found expected)
  match cursor.peek? with
  | none => cursor.failAhead .expectedValue
  | some byte =>
    if byte = 0x6E then complain .null (← readIdent nullRest cursor.advance)
    else if byte = 0x74 then complain (.boolean true) (← readIdent trueRest cursor.advance)
    else if byte = 0x66 then complain (.boolean false) (← readIdent falseRest cursor.advance)
    else if byte = 0x2D || (digit? byte).isSome then
      let (number, cursor) ← readNumber cursor
      complain number.found cursor
    else if byte = 0x22 then
      let (text, cursor) ← readText cursor.advance
      complain (.text text) cursor
    else if byte = 0x5B then complain .sequence cursor
    else if byte = 0x7B then complain .map cursor
    else cursor.failAhead .expectedValue

/-- Reads a text. -/
def readTextValue (cursor : Cursor) : Except Fault (Datum × Cursor) :=
  let cursor := cursor.skipSpace
  match cursor.peek? with
  | none => cursor.failAhead .endInValue
  | some byte =>
    if byte = 0x22 then do
      let (text, cursor) ← readText cursor.advance
      .ok (.text text, cursor)
    else wrongKind "a string" cursor

/-- Reads a natural of 64 bits. -/
def readNaturalValue (cursor : Cursor) : Except Fault (Datum × Cursor) :=
  let cursor := cursor.skipSpace
  match cursor.peek? with
  | none => cursor.failAhead .endInValue
  | some byte =>
    if byte = 0x2D || (digit? byte).isSome then do
      let (number, cursor) ← readNumber cursor
      match number with
      | .integer value =>
        if 0 ≤ value then .ok (.natural value.toNat, cursor)
        else cursor.misfit (.invalidValue number.found "u64")
      | .float _ _ => cursor.misfit (.invalidType number.found "u64")
    else wrongKind "u64" cursor

/-- Reads a null, or what the given reader reads. -/
def readOptional (reader : Cursor → Except Fault (Datum × Cursor)) (cursor : Cursor) : Except Fault (Datum × Cursor) :=
  let cursor := cursor.skipSpace
  if cursor.peek? == some 0x6E then do
    .ok (.absent, ← readIdent nullRest cursor.advance)
  else reader cursor

/-- Reads what a field may hold. -/
def Shape.read : Shape → Cursor → Except Fault (Datum × Cursor)
  | .text => readTextValue
  | .optionalText => readOptional readTextValue
  | .optionalNatural => readOptional readNaturalValue

/-- Whether another element follows in an array, and the cursor in front of it. -/
def nextElement (first : Bool) (cursor : Cursor) : Except Fault (Bool × Cursor) :=
  let cursor := cursor.skipSpace
  match cursor.peek? with
  | none => cursor.failAhead .endInList
  | some byte =>
    if byte = 0x5D then .ok (false, cursor)
    else if first then .ok (true, cursor)
    else if byte = 0x2C then
      let cursor := cursor.advance.skipSpace
      match cursor.peek? with
      | none => cursor.failAhead .endInValue
      | some byte => if byte = 0x5D then cursor.failAhead .trailingComma else .ok (true, cursor)
    else cursor.failAhead .expectedListComma

/-- Whether another member follows in an object, and the cursor in front of its name. -/
def nextMember (first : Bool) (cursor : Cursor) : Except Fault (Bool × Cursor) :=
  let cursor := cursor.skipSpace
  let named (cursor : Cursor) (byte : UInt8) : Except Fault (Bool × Cursor) :=
    if byte = 0x22 then .ok (true, cursor) else cursor.failAhead .keyNotString
  match cursor.peek? with
  | none => cursor.failAhead .endInObject
  | some byte =>
    if byte = 0x7D then .ok (false, cursor)
    else if first then named cursor byte
    else if byte = 0x2C then
      let cursor := cursor.advance.skipSpace
      match cursor.peek? with
      | none => cursor.failAhead .endInValue
      | some byte => if byte = 0x7D then cursor.failAhead .trailingComma else named cursor byte
    else cursor.failAhead .expectedObjectComma

/-- Consumes the colon behind a member name. -/
def readColon (cursor : Cursor) : Except Fault Cursor :=
  let cursor := cursor.skipSpace
  match cursor.peek? with
  | none => cursor.failAhead .endInObject
  | some byte => if byte = 0x3A then .ok cursor.advance else cursor.failAhead .expectedColon

/-- Consumes the end of an array. The second part is the place reached, whatever the first says. -/
def closeArray (cursor : Cursor) : Except Fault Cursor × Cursor :=
  let cursor := cursor.skipSpace
  match cursor.peek? with
  | none => (cursor.failAhead .endInList, cursor)
  | some byte =>
    if byte = 0x5D then (.ok cursor.advance, cursor.advance)
    else if byte = 0x2C then
      let cursor := cursor.advance.skipSpace
      if cursor.peek? == some 0x5D then (cursor.failAhead .trailingComma, cursor)
      else (cursor.failAhead .trailingCharacters, cursor)
    else (cursor.failAhead .trailingCharacters, cursor)

/-- Consumes the end of an object. The second part is the place reached, whatever the first says. -/
def closeObject (cursor : Cursor) : Except Fault Cursor × Cursor :=
  let cursor := cursor.skipSpace
  match cursor.peek? with
  | none => (cursor.failAhead .endInObject, cursor)
  | some byte =>
    if byte = 0x7D then (.ok cursor.advance, cursor.advance)
    else if byte = 0x2C then (cursor.failAhead .trailingComma, cursor)
    else (cursor.failAhead .trailingCharacters, cursor)

/-- The fields of a record as far as an array gives them, or the mismatch of a short array. -/
def Schema.readElements (schema : Schema) :
    List Field → Nat → Row → Cursor → Except Fault (Except Mismatch Row × Cursor)
  | [], _, row, cursor => .ok (.ok row.reverse, cursor)
  | field :: fields, index, row, cursor => do
    let (more, cursor) ← nextElement (index == 0) cursor
    if more then
      let (datum, cursor) ← field.shape.read cursor
      schema.readElements fields (index + 1) (some datum :: row) cursor
    else if field.inArray then
      let expected := schema.label ++ " with " ++ toString schema.fields.length ++ " elements"
      .ok (.error (.invalidLength index expected), cursor)
    else schema.readElements fields (index + 1) (none :: row) cursor

/-- The row with the field of the given name filled, or nothing if it was filled before. -/
def fill (name : String) (datum : Datum) : List Field → Row → Row
  | field :: fields, cell :: row =>
    if field.name = name then some datum :: row else cell :: fill name datum fields row
  | _, row => row

/-- Whether the field of the given name is filled. -/
def filled (name : String) : List Field → Row → Bool
  | field :: fields, cell :: row => if field.name = name then cell.isSome else filled name fields row
  | _, _ => false

/-- The fields of a record as an object gives them, or the mismatch of a repeated member. -/
def Schema.readMembers (schema : Schema) :
    Nat → Bool → Row → Cursor → Except Fault (Except Mismatch Row × Cursor)
  | 0, _, row, cursor => .ok (.ok row, cursor)
  | fuel + 1, first, row, cursor => do
    let (more, cursor) ← nextMember first cursor
    if more then
      let (name, cursor) ← readText cursor.advance
      match schema.fields.find? fun field => field.name == name with
      | none =>
        let cursor ← skipValue (← readColon cursor)
        schema.readMembers fuel false row cursor
      | some field =>
        if filled name schema.fields row then .ok (.error (.duplicateField name), cursor)
        else
          let (datum, cursor) ← field.shape.read (← readColon cursor)
          schema.readMembers fuel false (fill name datum schema.fields row) cursor
    else .ok (.ok row, cursor)

/-- The first field that an object must have and this one lacks. -/
def firstMissing? : List Field → Row → Option String
  | field :: fields, cell :: row =>
    if field.inObject && cell.isNone then some field.name else firstMissing? fields row
  | _, _ => none

/-- Ends a record: its own mismatch comes before a fault of the closing bracket. -/
def finish {α : Type} (outcome : Except Mismatch α) (close : Except Fault Cursor × Cursor) :
    Except Fault (α × Cursor) :=
  match outcome with
  | .error what => close.2.misfit what
  | .ok value => close.1.map fun cursor => (value, cursor)

/-- Reads a record in either form. -/
def Schema.readFrom (schema : Schema) (cursor : Cursor) : Except Fault (Row × Cursor) :=
  let cursor := cursor.skipSpace
  match cursor.peek? with
  | none => cursor.failAhead .endInValue
  | some byte =>
    if byte = 0x5B then do
      let (outcome, cursor) ← schema.readElements schema.fields 0 [] cursor.advance
      finish outcome (closeArray cursor)
    else if byte = 0x7B then do
      let empty : Row := schema.fields.map fun _ => none
      let (outcome, cursor) ← schema.readMembers (cursor.rest.length + 1) true empty cursor.advance
      let outcome := outcome.bind fun row =>
        match firstMissing? schema.fields row with
        | some name => .error (.missingField name)
        | none => .ok row
      finish outcome (closeObject cursor)
    else wrongKind schema.label cursor

/-- Refuses anything behind a value but insignificant bytes. -/
def expectEnd {α : Type} (answer : α × Cursor) : Except Fault α :=
  let cursor := answer.2.skipSpace
  if cursor.peek?.isSome then cursor.failAhead .trailingCharacters else .ok answer.1

/-- Reads a text that holds one record. -/
def Schema.read (schema : Schema) (text : Text.Bytes) : Except Fault Row :=
  schema.readFrom (Cursor.start text) >>= expectEnd

end Polyglot.Json
