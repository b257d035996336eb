import Polyglot.Json.Number

/-!
# Strings and literals in a JSON text

A string is read in stretches. A stretch of plain bytes ends at a quote, a backslash
or a control character, and is checked for well-formed UTF-8 when a quote or a
backslash ends it; an escape stands for one character, and two escapes that form a
surrogate pair stand for one character together.

The literals are spelt out byte by byte.
-/

set_option autoImplicit false

namespace Polyglot.Json

open Polyglot.Text (Bytes)

/-- Consumes the given bytes one by one, up to and including the first that differs. -/
def readIdent : Bytes → Cursor → Except Fault Cursor
  | [], cursor => .ok cursor
  | byte :: bytes, cursor =>
    match cursor.peek? with
    | none => cursor.fail .endInValue
    | some found =>
      if found = byte then readIdent bytes cursor.advance else cursor.advance.fail .expectedIdent

/-- The remaining bytes of the literals. -/
def nullRest : Bytes := [0x75, 0x6C, 0x6C]

/-- What follows the first letter of the true literal. -/
def trueRest : Bytes := [0x72, 0x75, 0x65]

/-- What follows the first letter of the false literal. -/
def falseRest : Bytes := [0x61, 0x6C, 0x73, 0x65]

/-- The value of a hexadecimal digit. -/
def hexValue? (byte : UInt8) : Option Nat :=
  let n := byte.toNat
  if 48 ≤ n ∧ n ≤ 57 then some (n - 48)
  else if 65 ≤ n ∧ n ≤ 70 then some (n - 55)
  else if 97 ≤ n ∧ n ≤ 102 then some (n - 87)
  else none

/-- Reads the four hexadecimal digits of an escape. -/
def readHex (cursor : Cursor) : Except Fault (Nat × Cursor) :=
  match cursor.rest with
  | a :: b :: c :: d :: _ =>
    match hexValue? a, hexValue? b, hexValue? c, hexValue? d with
    | some w, some x, some y, some z => .ok (w * 4096 + x * 256 + y * 16 + z, cursor.skip 4)
    | _, _, _, _ => (cursor.skip 4).fail .invalidEscape
  | short => (cursor.skip short.length).fail .endInString

/-- The character of a letter that stands behind a backslash. -/
def escapeOf? (byte : UInt8) : Option Char :=
  match byte.toNat with
  | 0x22 => some '"'
  | 0x5C => some '\\'
  | 0x2F => some '/'
  | 0x62 => some (Char.ofNat 8)
  | 0x66 => some (Char.ofNat 12)
  | 0x6E => some '\n'
  | 0x72 => some '\r'
  | 0x74 => some '\t'
  | _ => none

/-- Consumes a byte that must come next inside a surrogate pair. -/
def expectInPair (byte : UInt8) (cursor : Cursor) : Except Fault Cursor :=
  match cursor.peek? with
  | none => cursor.fail .endInString
  | some found =>
    if found = byte then .ok cursor.advance else cursor.advance.fail .hexEscapeEnds

/-- Reads an escape by code unit behind its letter. -/
def readUnit (cursor : Cursor) : Except Fault (Char × Cursor) := do
  let (unit, cursor) ← readHex cursor
  if 0xDC00 ≤ unit ∧ unit ≤ 0xDFFF then cursor.fail .loneSurrogate
  else if unit < 0xD800 ∨ 0xDBFF < unit then .ok (Char.ofNat unit, cursor)
  else
    let cursor ← expectInPair 0x5C cursor
    let cursor ← expectInPair 0x75 cursor
    let (second, cursor) ← readHex cursor
    if second < 0xDC00 ∨ 0xDFFF < second then cursor.fail .loneSurrogate
    else .ok (Char.ofNat (0x10000 + (unit - 0xD800) * 0x400 + (second - 0xDC00)), cursor)

/-- Reads an escape behind its backslash. -/
def readEscape (cursor : Cursor) : Except Fault (Char × Cursor) :=
  match cursor.peek? with
  | none => cursor.fail .endInString
  | some byte =>
    match escapeOf? byte with
    | some c => .ok (c, cursor.advance)
    | none =>
      if byte = 0x75 then readUnit cursor.advance else cursor.advance.fail .invalidEscape

/-- Whether a byte ends a stretch of plain bytes in a string. -/
def endsStretch (byte : UInt8) : Bool :=
  byte == 0x22 || byte == 0x5C || byte < 32

/-- The plain bytes that come next in a string, and the cursor behind them. -/
def Cursor.stretch (cursor : Cursor) : Bytes × Cursor :=
  let plain := cursor.rest.takeWhile fun byte => !endsStretch byte
  (plain, ⟨cursor.rest.drop plain.length, ⟨cursor.here.line, cursor.here.column + plain.length⟩⟩)

/-- The characters of a stretch that began at the given place. -/
def charsOf (plain : Bytes) (start : Position) : Except Fault (List Char) :=
  match Text.brokenAt? plain with
  | none => .ok (Text.lossy plain).toList
  | some offset => .error ⟨.invalidCodePoint, ⟨start.line, start.column + offset + 1⟩⟩

/-- Reads the inside of a string and its closing quote. The characters read so far are in reverse. -/
def readStretches : Nat → List Char → Cursor → Except Fault (String × Cursor)
  | 0, _, cursor => cursor.fail .endInString
  | fuel + 1, reversed, cursor =>
    let (plain, behind) := cursor.stretch
    match behind.peek? with
    | none => behind.fail .endInString
    | some byte =>
      if byte = 0x22 then do
        let chars ← charsOf plain cursor.here
        .ok (String.ofList (reversed.reverse ++ chars), behind.advance)
      else if byte = 0x5C then do
        let chars ← charsOf plain cursor.here
        let (c, next) ← readEscape behind.advance
        readStretches fuel (c :: chars.reverse ++ reversed) next
      else behind.advance.fail .controlCharacter

/-- Reads a string behind its opening quote. -/
def readText (cursor : Cursor) : Except Fault (String × Cursor) :=
  readStretches (cursor.rest.length + 1) [] cursor

/-- Passes over the inside of a string and its closing quote without decoding it. -/
def skipStretches : Nat → Cursor → Except Fault Cursor
  | 0, cursor => cursor.fail .endInString
  | fuel + 1, cursor =>
    let (_, behind) := cursor.stretch
    match behind.peek? with
    | none => behind.fail .endInString
    | some byte =>
      if byte = 0x22 then .ok behind.advance
      else if byte = 0x5C then
        let escape := behind.advance
        match escape.peek? with
        | none => escape.fail .endInString
        | some letter =>
          if (escapeOf? letter).isSome then skipStretches fuel escape.advance
          else if letter = 0x75 then do
            let (_, next) ← readHex escape.advance
            skipStretches fuel next
          else escape.advance.fail .invalidEscape
      else behind.fail .controlCharacter

/-- Passes over a string behind its opening quote. -/
def skipText (cursor : Cursor) : Except Fault Cursor :=
  skipStretches (cursor.rest.length + 1) cursor

end Polyglot.Json
