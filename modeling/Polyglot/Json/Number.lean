import Polyglot.Json.Cursor

/-!
# Numbers in a JSON text

A number without a point or an exponent that fits 64 bits is read as a whole number;
minus zero and whatever is larger become floating-point numbers. The digits of a
floating-point number are gathered into a significand of 64 bits, later digits are
dropped, and the significand is scaled by one rounded power of ten. A number whose
scaled value is not finite is refused.
-/

set_option autoImplicit false

namespace Polyglot.Json

open Polyglot.Decimal (Binary64)

/-- A number as the text spells it. -/
inductive Number where
  /-- A whole number of 64 bits. -/
  | integer (value : Int)
  /-- A floating-point number. -/
  | float (negative : Bool) (magnitude : Binary64)
  deriving DecidableEq, Repr

/-- The name of a number in a message. -/
def Number.found : Number → Found
  | .integer value => .integer value
  | .float negative magnitude => .float negative magnitude

/-- The digit that a byte stands for. -/
def digit? (byte : UInt8) : Option Nat :=
  if 48 ≤ byte.toNat ∧ byte.toNat ≤ 57 then some (byte.toNat - 48) else none

/-- The next byte as a digit. -/
def Cursor.digit? (cursor : Cursor) : Option Nat :=
  cursor.peek?.bind Json.digit?

/-- Whether the next byte opens an exponent. -/
def Cursor.atExponent (cursor : Cursor) : Bool :=
  cursor.peek? == some 0x65 || cursor.peek? == some 0x45

/-- Whether the next byte is a point. -/
def Cursor.atPoint (cursor : Cursor) : Bool :=
  cursor.peek? == some 0x2E

/-- The greatest significand. -/
def significandLimit : Nat := Nat.pow 2 64 - 1

/-- The rounded power of ten. -/
def tenTo (exponent : Nat) : Binary64 :=
  (Binary64.ofRatio? (Nat.pow 10 exponent) 1).getD ⟨0, 0⟩

/--
A significand scaled by a power of ten, or nothing if the result is not finite. A
power beyond 308 is applied in steps, of which four bring any significand to zero.
-/
def scaleByTen (significand : Binary64) (exponent : Int) : Option Binary64 :=
  go 8 significand exponent
where
  /-- Scales in at most the given number of steps. -/
  go : Nat → Binary64 → Int → Option Binary64
    | 0, value, _ => some value
    | steps + 1, value, exponent =>
      if exponent.natAbs ≤ 308 then
        if 0 ≤ exponent then value.mul? (tenTo exponent.natAbs)
        else value.div? (tenTo exponent.natAbs)
      else if value.isZero then some value
      else if 0 ≤ exponent then none
      else (value.div? (tenTo 308)).bind fun smaller => go steps smaller (exponent + 308)

/-- The cursor behind the digits that come next. -/
def Cursor.skipDigits (cursor : Cursor) : Cursor :=
  go cursor.rest cursor.here
where
  /-- Skips over the front of the given bytes. -/
  go : Text.Bytes → Position → Cursor
    | [], position => ⟨[], position⟩
    | byte :: rest, position =>
      if (Json.digit? byte).isSome then go rest (position.after byte) else ⟨byte :: rest, position⟩

/-- The floating-point number with the given parts. -/
def floatOf (negative : Bool) (significand : Nat) (exponent : Int) (cursor : Cursor) :
    Except Fault (Number × Cursor) :=
  match scaleByTen (Binary64.ofNat significand) exponent with
  | some magnitude => .ok (.float negative magnitude, cursor)
  | none => cursor.fail .numberOutOfRange

/-- Reads the digits of an exponent, of which the first one is given. -/
def exponentDigits : Nat → Nat → Cursor → Option Nat × Cursor
  | 0, value, cursor => (some value, cursor)
  | fuel + 1, value, cursor =>
    match cursor.digit? with
    | none => (some value, cursor)
    | some digit =>
      if value * 10 + digit > Nat.pow 2 31 - 1 then (none, cursor.advance)
      else exponentDigits fuel (value * 10 + digit) cursor.advance

/-- Reads from the letter of an exponent to the end of the number. -/
def readExponent (negative : Bool) (significand : Nat) (scale : Int) (cursor : Cursor) :
    Except Fault (Number × Cursor) :=
  let cursor := cursor.advance
  let downward := cursor.peek? == some 0x2D
  let cursor := if downward || cursor.peek? == some 0x2B then cursor.advance else cursor
  match cursor.peek? with
  | none => cursor.fail .endInValue
  | some byte =>
    match digit? byte with
    | none => cursor.advance.fail .invalidNumber
    | some first =>
      match exponentDigits cursor.rest.length first cursor.advance with
      | (some exponent, cursor) =>
        floatOf negative significand (if downward then scale - exponent else scale + exponent) cursor
      | (none, cursor) =>
        if significand ≠ 0 ∧ ¬ downward then cursor.fail .numberOutOfRange
        else .ok (.float negative ⟨0, -1074⟩, cursor.skipDigits)

/-- Reads an exponent if there is one, and ends the number otherwise. -/
def readAfterDigits (negative : Bool) (significand : Nat) (scale : Int) (cursor : Cursor) :
    Except Fault (Number × Cursor) :=
  if cursor.atExponent then readExponent negative significand scale cursor
  else floatOf negative significand scale cursor

/-- Reads the digits behind a point. -/
def fractionDigits : Nat → Nat → Nat → Cursor → Nat × Nat × Cursor
  | 0, significand, count, cursor => (significand, count, cursor)
  | fuel + 1, significand, count, cursor =>
    match cursor.digit? with
    | none => (significand, count, cursor)
    | some digit =>
      if significand * 10 + digit > significandLimit then (significand, count, cursor)
      else fractionDigits fuel (significand * 10 + digit) (count + 1) cursor.advance

/-- Reads from a point to the end of the number. -/
def readFraction (negative : Bool) (significand : Nat) (scale : Int) (cursor : Cursor) :
    Except Fault (Number × Cursor) :=
  let (significand, count, cursor) :=
    fractionDigits cursor.rest.length significand 0 cursor.advance
  if cursor.digit?.isSome then
    readAfterDigits negative significand (scale - count) cursor.skipDigits
  else if count = 0 then
    if cursor.peek?.isSome then cursor.failAhead .invalidNumber
    else cursor.failAhead .endInValue
  else readAfterDigits negative significand (scale - count) cursor

/-- Reads on behind the digits of a significand that fits. -/
def readShort (negative : Bool) (significand : Nat) (cursor : Cursor) : Except Fault (Number × Cursor) :=
  if cursor.atPoint then readFraction negative significand 0 cursor
  else if cursor.atExponent then readExponent negative significand 0 cursor
  else if ¬ negative then .ok (.integer significand, cursor)
  else if significand = 0 ∨ significand > Nat.pow 2 63 then
    .ok (.float true (Binary64.ofNat significand), cursor)
  else .ok (.integer (-significand), cursor)

/-- Reads on behind the digits of a significand whose next digit does not fit. -/
def readLong (negative : Bool) (significand : Nat) (cursor : Cursor) : Except Fault (Number × Cursor) :=
  let behind := cursor.skipDigits
  let dropped : Int := cursor.rest.length - behind.rest.length
  if behind.atPoint then readFraction negative significand dropped behind
  else readAfterDigits negative significand dropped behind

/-- Reads the digits of a significand behind the first one. -/
def readSignificand (negative : Bool) : Nat → Nat → Cursor → Except Fault (Number × Cursor)
  | 0, significand, cursor => readShort negative significand cursor
  | fuel + 1, significand, cursor =>
    match cursor.digit? with
    | none => readShort negative significand cursor
    | some digit =>
      if significand * 10 + digit > significandLimit then readLong negative significand cursor
      else readSignificand negative fuel (significand * 10 + digit) cursor.advance

/-- Reads a number behind its sign. -/
def readUnsigned (negative : Bool) (cursor : Cursor) : Except Fault (Number × Cursor) :=
  match cursor.peek? with
  | none => cursor.fail .endInValue
  | some byte =>
    match digit? byte with
    | none => cursor.advance.fail .invalidNumber
    | some 0 =>
      if cursor.advance.digit?.isSome then cursor.advance.failAhead .invalidNumber
      else readShort negative 0 cursor.advance
    | some first => readSignificand negative cursor.rest.length first cursor.advance

/-- Reads a number whose first byte is a minus sign or a digit. -/
def readNumber (cursor : Cursor) : Except Fault (Number × Cursor) :=
  if cursor.peek? == some 0x2D then readUnsigned true cursor.advance
  else readUnsigned false cursor

end Polyglot.Json
