import Polyglot.Mismatch
import Polyglot.Text.Utf8

/-!
# A place in a JSON text

A reader holds the bytes it has not consumed and knows the place it has reached: the
line, counted from one, and the column, counted in bytes from zero after the last line
break. A fault carries a cause and a place. Some faults are reported at the place
reached and some one byte further on, past the byte that was seen and not consumed.
-/

set_option autoImplicit false

namespace Polyglot.Json

open Polyglot.Text (Bytes)

/-- A line and a column. -/
structure Position where
  /-- The line, counted from one. -/
  line : Nat
  /-- The number of bytes since the last line break. -/
  column : Nat
  deriving DecidableEq, Repr

/-- Why a JSON text could not be read. -/
inductive Cause where
  /-- The text ends where a value should stand or inside a literal. -/
  | endInValue
  /-- The text ends inside an array. -/
  | endInList
  /-- The text ends inside an object. -/
  | endInObject
  /-- The text ends inside a string. -/
  | endInString
  /-- A member name is not followed by a colon. -/
  | expectedColon
  /-- An array element is followed by neither a comma nor the end. -/
  | expectedListComma
  /-- An object member is followed by neither a comma nor the end. -/
  | expectedObjectComma
  /-- A literal is misspelt. -/
  | expectedIdent
  /-- A byte begins no value. -/
  | expectedValue
  /-- A backslash is followed by something that it cannot escape. -/
  | invalidEscape
  /-- A number is misspelt. -/
  | invalidNumber
  /-- A number is too large. -/
  | numberOutOfRange
  /-- A string is not well-formed UTF-8. -/
  | invalidCodePoint
  /-- A string contains an unescaped control character. -/
  | controlCharacter
  /-- A member name is not a string. -/
  | keyNotString
  /-- Half of a surrogate pair stands alone. -/
  | loneSurrogate
  /-- A comma is followed by the end of an array or object. -/
  | trailingComma
  /-- Something follows the value. -/
  | trailingCharacters
  /-- The second half of a surrogate pair is missing. -/
  | hexEscapeEnds
  /-- Arrays and objects are nested too deeply. -/
  | nestedTooDeeply
  /-- The value has the wrong shape. -/
  | mismatch (what : Mismatch)
  deriving DecidableEq, Repr

/-- The wording of a cause. -/
def Cause.message : Cause → String
  | .endInValue => "EOF while parsing a value"
  | .endInList => "EOF while parsing a list"
  | .endInObject => "EOF while parsing an object"
  | .endInString => "EOF while parsing a string"
  | .expectedColon => "expected `:`"
  | .expectedListComma => "expected `,` or `]`"
  | .expectedObjectComma => "expected `,` or `\x7d`"
  | .expectedIdent => "expected ident"
  | .expectedValue => "expected value"
  | .invalidEscape => "invalid escape"
  | .invalidNumber => "invalid number"
  | .numberOutOfRange => "number out of range"
  | .invalidCodePoint => "invalid unicode code point"
  | .controlCharacter => "control character (\\u0000-\\u001F) found while parsing a string"
  | .keyNotString => "key must be a string"
  | .loneSurrogate => "lone leading surrogate in hex escape"
  | .trailingComma => "trailing comma"
  | .trailingCharacters => "trailing characters"
  | .hexEscapeEnds => "unexpected end of hex escape"
  | .nestedTooDeeply => "recursion limit exceeded"
  | .mismatch what => what.message

/-- A cause and the place it is reported at. -/
structure Fault where
  /-- Why the text could not be read. -/
  cause : Cause
  /-- Where that was noticed. -/
  position : Position
  deriving DecidableEq, Repr

/-- The wording of a fault. -/
def Fault.message (fault : Fault) : String :=
  fault.cause.message ++ " at line " ++ toString fault.position.line ++
    " column " ++ toString fault.position.column

/-- The unconsumed bytes and the place reached. -/
structure Cursor where
  /-- The bytes not yet consumed. -/
  rest : Bytes
  /-- The place of the first of them. -/
  here : Position
  deriving DecidableEq, Repr

/-- The place behind a byte. -/
def Position.after (position : Position) (byte : UInt8) : Position :=
  if byte = 10 then ⟨position.line + 1, 0⟩ else ⟨position.line, position.column + 1⟩

namespace Cursor

/-- The cursor at the front of a text. -/
def start (text : Bytes) : Cursor :=
  ⟨text, ⟨1, 0⟩⟩

/-- The cursor behind the next byte. -/
def advance (cursor : Cursor) : Cursor :=
  match cursor.rest with
  | [] => cursor
  | byte :: rest => ⟨rest, cursor.here.after byte⟩

/-- The cursor behind the given number of bytes. -/
def skip : Nat → Cursor → Cursor
  | 0, cursor => cursor
  | count + 1, cursor => skip count cursor.advance

/-- The next byte. -/
def peek? (cursor : Cursor) : Option UInt8 :=
  cursor.rest.head?

/-- A fault at the place reached. -/
def fail {α : Type} (cursor : Cursor) (cause : Cause) : Except Fault α :=
  .error ⟨cause, cursor.here⟩

/-- A fault behind the next byte, if there is one. -/
def failAhead {α : Type} (cursor : Cursor) (cause : Cause) : Except Fault α :=
  .error ⟨cause, cursor.advance.here⟩

/-- Whether a byte is insignificant between the parts of a JSON text. -/
def isSpace (byte : UInt8) : Bool :=
  byte == 32 || byte == 10 || byte == 9 || byte == 13

/-- The cursor behind the insignificant bytes that come next. -/
def skipSpace (cursor : Cursor) : Cursor :=
  go cursor.rest cursor.here
where
  /-- Skips over the front of the given bytes. -/
  go : Bytes → Position → Cursor
    | [], position => ⟨[], position⟩
    | byte :: rest, position =>
      if isSpace byte then go rest (position.after byte) else ⟨byte :: rest, position⟩

end Cursor

end Polyglot.Json
