import Polyglot.Json.Literal

/-!
# Members that are not asked for

A member with an unknown name is passed over. Its value must be well formed, but its
strings are not decoded, its numbers are not evaluated, and it may be nested to any
depth: the walk keeps the open arrays and objects on a list instead of recurring.
-/

set_option autoImplicit false

namespace Polyglot.Json

/-- An open array or object. -/
inductive Frame where
  /-- An array. -/
  | list
  /-- An object. -/
  | object
  deriving DecidableEq, Repr

/-- The byte that closes a frame. -/
def Frame.closer : Frame → UInt8
  | .list => 0x5D
  | .object => 0x7D

/-- The fault of a text that ends inside a frame. -/
def Frame.unclosed : Frame → Cause
  | .list => .endInList
  | .object => .endInObject

/-- The fault of a frame in which an element is followed by neither a comma nor the end. -/
def Frame.expectedComma : Frame → Cause
  | .list => .expectedListComma
  | .object => .expectedObjectComma

/-- Passes over the exponent of a number, from its letter on. -/
def skipExponent (cursor : Cursor) : Except Fault Cursor :=
  let cursor := cursor.advance
  let signed := cursor.peek? == some 0x2B || cursor.peek? == some 0x2D
  let cursor := if signed then cursor.advance else cursor
  if cursor.digit?.isSome then .ok cursor.skipDigits else cursor.advance.fail .invalidNumber

/-- Passes over the fraction of a number, from its point on. -/
def skipFraction (cursor : Cursor) : Except Fault Cursor :=
  let cursor := cursor.advance
  if cursor.digit?.isNone then cursor.failAhead .invalidNumber
  else
    let cursor := cursor.skipDigits
    if cursor.atExponent then skipExponent cursor else .ok cursor

/-- Passes over what may follow the whole part of a number. -/
def skipNumberRest (cursor : Cursor) : Except Fault Cursor :=
  if cursor.atPoint then skipFraction cursor
  else if cursor.atExponent then skipExponent cursor
  else .ok cursor

/-- Passes over a number behind its sign. -/
def skipNumber (cursor : Cursor) : Except Fault Cursor :=
  match cursor.digit? with
  | none => cursor.advance.fail .invalidNumber
  | some 0 =>
    if cursor.advance.digit?.isSome then cursor.advance.failAhead .invalidNumber
    else skipNumberRest cursor.advance
  | some _ => skipNumberRest cursor.skipDigits

/-- What the walk expects next. -/
inductive Expecting where
  /-- A value. -/
  | value
  /-- The first element of the innermost frame, or its end. -/
  | firstOrEnd
  /-- A comma, or the end of the innermost frame. -/
  | commaOrEnd
  /-- The name of a member of the innermost frame. -/
  | name
  deriving DecidableEq, Repr

/-- What stands in front of an element of a frame: a name in an object, nothing in an array. -/
def Frame.element : Frame → Expecting
  | .list => .value
  | .object => .name

/-- Passes over a scalar, or opens a frame. -/
def skipScalarOrOpen (byte : UInt8) (cursor : Cursor) : Except Fault (Option Frame × Cursor) :=
  let scalar (answer : Except Fault Cursor) := answer.map fun cursor => (none, cursor)
  if byte = 0x6E then scalar (readIdent nullRest cursor.advance)
  else if byte = 0x74 then scalar (readIdent trueRest cursor.advance)
  else if byte = 0x66 then scalar (readIdent falseRest cursor.advance)
  else if byte = 0x2D then scalar (skipNumber cursor.advance)
  else if (digit? byte).isSome then scalar (skipNumber cursor)
  else if byte = 0x22 then scalar (skipText cursor.advance)
  else if byte = 0x5B then .ok (some .list, cursor.advance)
  else if byte = 0x7B then .ok (some .object, cursor.advance)
  else cursor.failAhead .expectedValue

/-- Passes over the name of a member and its colon. -/
def skipName (cursor : Cursor) : Except Fault Cursor :=
  match cursor.peek? with
  | none => cursor.failAhead .endInObject
  | some byte =>
    if byte ≠ 0x22 then cursor.failAhead .keyNotString
    else do
      let cursor := (← skipText cursor.advance).skipSpace
      match cursor.peek? with
      | none => cursor.failAhead .endInObject
      | some byte => if byte = 0x3A then .ok cursor.advance else cursor.failAhead .expectedColon

/-- Walks on until every open frame is closed. The innermost frame comes first. -/
def skipFrames : Nat → Expecting → List Frame → Cursor → Except Fault Cursor
  | 0, _, _, cursor => .ok cursor
  | fuel + 1, .value, frames, cursor =>
    let cursor := cursor.skipSpace
    match cursor.peek? with
    | none => cursor.failAhead .endInValue
    | some byte => do
      match ← skipScalarOrOpen byte cursor with
      | (some frame, cursor) => skipFrames fuel .firstOrEnd (frame :: frames) cursor
      | (none, cursor) =>
        if frames.isEmpty then .ok cursor else skipFrames fuel .commaOrEnd frames cursor
  | fuel + 1, .name, frames, cursor => do
    skipFrames fuel .value frames (← skipName cursor.skipSpace)
  | _, _, [], cursor => .ok cursor
  | fuel + 1, expecting, frame :: outer, cursor =>
    let cursor := cursor.skipSpace
    match cursor.peek? with
    | none => cursor.failAhead frame.unclosed
    | some byte =>
      if byte = frame.closer then
        if outer.isEmpty then .ok cursor.advance
        else skipFrames fuel .commaOrEnd outer cursor.advance
      else if expecting = .firstOrEnd then skipFrames fuel frame.element (frame :: outer) cursor
      else if byte = 0x2C then skipFrames fuel frame.element (frame :: outer) cursor.advance
      else cursor.failAhead frame.expectedComma

/-- Passes over a value. -/
def skipValue (cursor : Cursor) : Except Fault Cursor :=
  skipFrames (3 * cursor.rest.length + 3) .value [] cursor

end Polyglot.Json
