import Polyglot.Data
import Polyglot.Json.Record

/-!
# Structured data in a JSON text

Any JSON text denotes a structured value. The members of an object are ordered by
name, and of two members with one name the later one stays. Arrays and objects may be
nested up to a fixed depth.
-/

set_option autoImplicit false

namespace Polyglot.Json

/-- The greatest depth of nested arrays and objects, plus one. -/
def depthLimit : Nat := 128

/-- Reads the elements of an array with the given reader. The elements read so far are in reverse. -/
def readItems (reader : Cursor → Except Fault (Data × Cursor)) :
    Nat → List Data → Cursor → Except Fault (List Data × Cursor)
  | 0, reversed, cursor => .ok (reversed.reverse, cursor)
  | fuel + 1, reversed, cursor => do
    let (more, cursor) ← nextElement reversed.isEmpty cursor
    if more then
      let (item, cursor) ← reader cursor
      readItems reader fuel (item :: reversed) cursor
    else .ok (reversed.reverse, cursor)

/-- Reads the members of an object with the given reader. -/
def readTable (reader : Cursor → Except Fault (Data × Cursor)) :
    Nat → Bool → List (String × Data) → Cursor → Except Fault (List (String × Data) × Cursor)
  | 0, _, table, cursor => .ok (table, cursor)
  | fuel + 1, first, table, cursor => do
    let (more, cursor) ← nextMember first cursor
    if more then
      let (name, cursor) ← readText cursor.advance
      let (value, cursor) ← reader (← readColon cursor)
      readTable reader fuel false (Table.insert name value table) cursor
    else .ok (table, cursor)

/-- Reads a value whose arrays and objects are nested less deeply than the given limit. -/
def readData : Nat → Cursor → Except Fault (Data × Cursor)
  | 0, cursor => cursor.failAhead .nestedTooDeeply
  | depth + 1, cursor =>
    let cursor := cursor.skipSpace
    match cursor.peek? with
    | none => cursor.failAhead .endInValue
    | some byte => do
      if byte = 0x6E then .ok (.null, ← readIdent nullRest cursor.advance)
      else if byte = 0x74 then .ok (.boolean true, ← readIdent trueRest cursor.advance)
      else if byte = 0x66 then .ok (.boolean false, ← readIdent falseRest cursor.advance)
      else if byte = 0x2D || (digit? byte).isSome then
        let (number, cursor) ← readNumber cursor
        match number with
        | .integer value => .ok (.integer value, cursor)
        | .float negative magnitude => .ok (.float negative magnitude, cursor)
      else if byte = 0x22 then
        let (text, cursor) ← readText cursor.advance
        .ok (.text text, cursor)
      else if byte = 0x5B then
        if depth = 0 then cursor.failAhead .nestedTooDeeply
        else
          let (items, cursor) ← readItems (readData depth) (cursor.rest.length + 1) [] cursor.advance
          finish (.ok (.list items)) (closeArray cursor)
      else if byte = 0x7B then
        if depth = 0 then cursor.failAhead .nestedTooDeeply
        else
          let (members, cursor) ←
            readTable (readData depth) (cursor.rest.length + 1) true [] cursor.advance
          finish (.ok (.table members)) (closeObject cursor)
      else cursor.failAhead .expectedValue

/-- The structured value that a JSON text denotes. -/
def dataOf (text : Text.Bytes) : Except Fault Data :=
  readData depthLimit (Cursor.start text) >>= expectEnd

end Polyglot.Json
