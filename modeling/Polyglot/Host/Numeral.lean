import Polyglot.Text.Utf8

/-!
# Numbers as programs read them

Programs read whole numbers in base ten, or in a base that the number itself shows: a
zero in front means base eight, and a zero and an x mean base sixteen. A number that
does not fit into 64 bits is replaced by the nearest one that does.
-/

set_option autoImplicit false

namespace Polyglot.Host.Numeral

open Polyglot.Text (Bytes)

/-- The greatest number. -/
def greatest : Int := Int.pow 2 63 - 1

/-- The least number. -/
def least : Int := -Int.pow 2 63

/-- The nearest number that fits. -/
def clamp (n : Int) : Int :=
  max least (min n greatest)

/-- The number that is left when the digits beyond 64 bits are dropped. -/
def wrap (n : Int) : Int :=
  Int.bmod n (Nat.pow 2 64)

/-- The value of a digit in the bases up to sixteen. -/
def digit? (base : Nat) (c : Char) : Option Nat :=
  let value := if c.isDigit then c.toNat - 48
    else if 'a' ≤ c ∧ c ≤ 'f' then c.toNat - 87
    else if 'A' ≤ c ∧ c ≤ 'F' then c.toNat - 55
    else base
  if value < base then some value else none

/-- Reads digits behind those that have the given value. -/
def readDigits (base : Nat) : Nat → List Char → Nat × List Char
  | value, [] => (value, [])
  | value, c :: rest =>
    match digit? base c with
    | some digit => readDigits base (value * base + digit) rest
    | none => (value, c :: rest)

/-- Whether a digit comes next. -/
def startsWithDigit (base : Nat) : List Char → Bool
  | c :: _ => (digit? base c).isSome
  | [] => false

/-- Reads a natural whose base shows in its front, if one comes next. -/
def readNatural (chars : List Char) : Option (Nat × List Char) :=
  let inBase (base : Nat) (chars : List Char) : Option (Nat × List Char) :=
    if startsWithDigit base chars then some (readDigits base 0 chars) else none
  match chars with
  | '0' :: x :: rest =>
    if (x == 'x' || x == 'X') && startsWithDigit 16 rest then inBase 16 rest
    else inBase 8 chars
  | chars => inBase 10 chars

/-- Whether a character is left out in front of a number. -/
def isBlank (c : Char) : Bool :=
  c == ' ' || (9 ≤ c.toNat && c.toNat ≤ 13)

/-- Splits a sign off, and tells whether it is negative. -/
def splitSign : List Char → Bool × List Char
  | '-' :: rest => (true, rest)
  | '+' :: rest => (false, rest)
  | chars => (false, chars)

/-- Reads a whole number whose base shows in its front, if one comes next. -/
def readWhole (chars : List Char) : Option (Int × List Char) :=
  let (negative, rest) := splitSign (chars.dropWhile isBlank)
  (readNatural rest).map fun found => (clamp (if negative then -found.1 else found.1), found.2)

/-- The whole number in base ten that a text spells, with blanks around it. -/
def decimal? (text : String) : Option Int :=
  let (negative, rest) := splitSign (text.toList.dropWhile isBlank)
  if startsWithDigit 10 rest then
    let (value, rest) := readDigits 10 0 rest
    if (rest.dropWhile isBlank).isEmpty then some (if negative then -(value : Int) else value)
    else none
  else none

/-- The whole number in base ten at the front of some bytes, zero if there is none. -/
def leading (bytes : Bytes) : Int :=
  let chars := bytes.map fun byte => Char.ofNat byte.toNat
  let (negative, rest) := splitSign (chars.dropWhile isBlank)
  let value := (readDigits 10 0 rest).1
  if negative then -(value : Int) else value

end Polyglot.Host.Numeral
