import Polyglot.Data
import Polyglot.Json.Literal

/-!
# The small parts of a TOML text

Blanks, comments, line ends, keys, strings, numbers and dates. Each reader takes the
characters that are left and answers what it read and what is left then, or nothing
if the characters do not begin that way.

Lines end with a line feed or a carriage return and a line feed. Control characters
other than the tab stand nowhere, not even in a comment.
-/

set_option autoImplicit false

namespace Polyglot.Toml

/-! ## Blanks, comments and line ends -/

/-- Whether a character is a blank inside a line. -/
def isBlank (c : Char) : Bool :=
  c == ' ' || c == '\t'

/-- What is left behind the blanks that come next. -/
def skipBlanks (chars : List Char) : List Char :=
  chars.dropWhile isBlank

/-- Whether a character may stand in a comment or unescaped in a string. -/
def isPrintable (c : Char) : Bool :=
  c == '\t' || (0x20 ≤ c.toNat && c.toNat ≠ 0x7F)

/-- What is left behind a line end. -/
def skipNewline : List Char → Option (List Char)
  | '\n' :: rest => some rest
  | '\r' :: '\n' :: rest => some rest
  | _ => none

/-- What is left behind a comment, if one comes next. -/
def skipComment : List Char → List Char
  | '#' :: rest => rest.dropWhile isPrintable
  | chars => chars

/-- What is left behind a line end or at the end of the text. -/
def skipLineEnd : List Char → Option (List Char)
  | [] => some []
  | chars => skipNewline chars

/-- What is left behind the rest of a line that holds nothing more. -/
def skipTrailing (chars : List Char) : Option (List Char) :=
  skipLineEnd (skipComment (skipBlanks chars))

/-- What is left behind blanks, comments and line ends. The count bounds the number of lines. -/
def skipLines : Nat → List Char → Option (List Char)
  | 0, chars => some chars
  | count + 1, chars =>
    match skipBlanks chars with
    | '#' :: rest => (skipNewline (rest.dropWhile isPrintable)).bind (skipLines count)
    | '\n' :: rest => skipLines count rest
    | '\r' :: rest => (skipNewline ('\r' :: rest)).bind (skipLines count)
    | rest => some rest

/-! ## Strings -/

/-- The value of the given number of hexadecimal digits. -/
def readHex : Nat → Nat → List Char → Option (Nat × List Char)
  | 0, value, chars => some (value, chars)
  | _ + 1, _, [] => none
  | count + 1, value, c :: rest =>
    if c.toNat < 128 then
      (Json.hexValue? (UInt8.ofNat c.toNat)).bind fun digit => readHex count (value * 16 + digit) rest
    else none

/-- The character of a code point, if it is one. -/
def charOf? (code : Nat) : Option Char :=
  if code.isValidChar then some (Char.ofNat code) else none

/-- Reads an escape behind its backslash. -/
def readEscape : List Char → Option (Char × List Char)
  | 'b' :: rest => some (Char.ofNat 8, rest)
  | 't' :: rest => some ('\t', rest)
  | 'n' :: rest => some ('\n', rest)
  | 'f' :: rest => some (Char.ofNat 12, rest)
  | 'r' :: rest => some ('\r', rest)
  | '"' :: rest => some ('"', rest)
  | '\\' :: rest => some ('\\', rest)
  | 'u' :: rest => do
    let (code, rest) ← readHex 4 0 rest
    some (← charOf? code, rest)
  | 'U' :: rest => do
    let (code, rest) ← readHex 8 0 rest
    some (← charOf? code, rest)
  | _ => none

/-- Reads the inside of a basic string and its closing quote. -/
def readBasic : Nat → List Char → List Char → Option (String × List Char)
  | 0, _, _ => none
  | _ + 1, _, [] => none
  | count + 1, reversed, c :: rest =>
    if c = '"' then some (String.ofList reversed.reverse, rest)
    else if c = '\\' then do
      let (escaped, rest) ← readEscape rest
      readBasic count (escaped :: reversed) rest
    else if isPrintable c then readBasic count (c :: reversed) rest
    else none

/-- Reads the inside of a literal string and its closing quote. -/
def readLiteral : List Char → List Char → Option (String × List Char)
  | _, [] => none
  | reversed, c :: rest =>
    if c.toNat = 0x27 then some (String.ofList reversed.reverse, rest)
    else if isPrintable c then readLiteral (c :: reversed) rest
    else none

/-- The number of copies of a quote at the front. -/
def quoteRun (quote : Char) (chars : List Char) : Nat :=
  (chars.takeWhile (· == quote)).length

/-- What is left behind an escaped line end and the blanks and line ends behind it. -/
def skipEscapedNewline (chars : List Char) : Option (List Char) :=
  (skipNewline (skipBlanks chars)).map fun rest => go rest.length rest
where
  /-- Skips over at most the given number of line ends. -/
  go : Nat → List Char → List Char
    | 0, chars => chars
    | count + 1, chars =>
      match skipNewline (skipBlanks chars) with
      | some rest => go count rest
      | none => skipBlanks chars

/--
Reads the inside of a string of several lines and its three closing quotes. Up to two
quotes in front of the closing ones belong to the string.
-/
def readLong (quote : Char) (escapes : Bool) :
    Nat → List Char → List Char → Option (String × List Char)
  | 0, _, _ => none
  | _ + 1, _, [] => none
  | count + 1, reversed, c :: rest =>
    if c = quote then
      let run := quoteRun quote (c :: rest)
      if run < 3 then
        readLong quote escapes count (List.replicate run quote ++ reversed) (rest.drop (run - 1))
      else
        let extra := min (run - 3) 2
        some (String.ofList (reversed.reverse ++ List.replicate extra quote), rest.drop (extra + 2))
    else if escapes && c == '\\' then
      match skipEscapedNewline rest with
      | some rest => readLong quote escapes count reversed rest
      | none => do
        let (escaped, rest) ← readEscape rest
        readLong quote escapes count (escaped :: reversed) rest
    else if isPrintable c then readLong quote escapes count (c :: reversed) rest
    else do
      let rest ← skipNewline (c :: rest)
      readLong quote escapes count ('\n' :: reversed) rest

/-- What is left behind a line end, if one comes next. -/
def skipFirstNewline (chars : List Char) : List Char :=
  (skipNewline chars).getD chars

/-- The quote of a literal string. -/
def apostrophe : Char := Char.ofNat 0x27

/-- Reads a string of any kind, from its first quote on. -/
def readString (chars : List Char) : Option (String × List Char) :=
  match chars with
  | [] => none
  | c :: rest =>
    if c ≠ '"' ∧ c ≠ apostrophe then none
    else if quoteRun c chars ≥ 3 then
      readLong c (c == '"') (chars.length + 1) [] (skipFirstNewline (chars.drop 3))
    else if c = '"' then readBasic (chars.length + 1) [] rest
    else readLiteral [] rest

/-! ## Keys -/

/-- Whether a character may stand in a key without quotes. -/
def isKeyChar (c : Char) : Bool :=
  c.isAlphanum || c == '_' || c == '-'

/-- Reads one part of a key. -/
def readKeyPart (chars : List Char) : Option (String × List Char) :=
  match chars with
  | [] => none
  | c :: rest =>
    if c = '"' then readBasic (rest.length + 1) [] rest
    else if c = apostrophe then readLiteral [] rest
    else
      let part := chars.takeWhile isKeyChar
      if part.isEmpty then none else some (String.ofList part, chars.dropWhile isKeyChar)

/-- The greatest number of parts of a key and of nested values, plus one. -/
def nestingLimit : Nat := 80

/-- Reads the parts of a key, with points between them. -/
def readKeyParts : Nat → List Char → Option (List String × List Char)
  | 0, _ => none
  | count + 1, chars => do
    let (part, rest) ← readKeyPart (skipBlanks chars)
    match skipBlanks rest with
    | '.' :: rest =>
      let (parts, rest) ← readKeyParts count rest
      some (part :: parts, rest)
    | rest => some ([part], rest)

/-- Reads a key and the blanks around it: the parts before the last one, and the last one. -/
def readKey (chars : List Char) : Option ((List String × String) × List Char) := do
  let (parts, rest) ← readKeyParts (chars.length + 1) chars
  if parts.length < nestingLimit then some ((parts.dropLast, parts.getLast?.getD ""), rest)
  else none

/-! ## Dates and times -/

/-- Reads the given number of decimal digits. -/
def readDigits : Nat → Nat → List Char → Option (Nat × List Char)
  | 0, value, chars => some (value, chars)
  | _ + 1, _, [] => none
  | count + 1, value, c :: rest =>
    if c.isDigit then readDigits count (value * 10 + (c.toNat - 48)) rest else none

/-- Reads two digits of a number in the given range. -/
def readTwo (least greatest : Nat) (chars : List Char) : Option (Nat × List Char) := do
  let (value, rest) ← readDigits 2 0 chars
  if least ≤ value ∧ value ≤ greatest then some (value, rest) else none

/-- What is left behind a character that must come next. -/
def expect (c : Char) : List Char → Option (List Char)
  | found :: rest => if found = c then some rest else none
  | [] => none

/-- The number of days of a month. -/
def daysIn (year month : Nat) : Nat :=
  if month = 2 then
    if year % 4 = 0 ∧ (year % 100 ≠ 0 ∨ year % 400 = 0) then 29 else 28
  else if month = 4 ∨ month = 6 ∨ month = 9 ∨ month = 11 then 30
  else 31

/-- What is left behind a date. -/
def skipDate (chars : List Char) : Option (List Char) := do
  let (year, rest) ← readDigits 4 0 chars
  let (month, rest) ← readTwo 1 12 (← expect '-' rest)
  let (_, rest) ← readTwo 1 (daysIn year month) (← expect '-' rest)
  some rest

/-- What is left behind the fraction of a second, if there is one. -/
def skipSecondFraction : List Char → List Char
  | '.' :: c :: rest => if c.isDigit then rest.dropWhile Char.isDigit else '.' :: c :: rest
  | chars => chars

/-- What is left behind a time of day. -/
def skipTime (chars : List Char) : Option (List Char) := do
  let (_, rest) ← readTwo 0 23 chars
  let (_, rest) ← readTwo 0 59 (← expect ':' rest)
  let (_, rest) ← readTwo 0 60 (← expect ':' rest)
  some (skipSecondFraction rest)

/-- What is left behind an offset, if there is one. -/
def skipOffset : List Char → Option (List Char)
  | 'Z' :: rest => some rest
  | 'z' :: rest => some rest
  | '+' :: rest => signed rest
  | '-' :: rest => signed rest
  | chars => some chars
where
  /-- What is left behind the hours and minutes of an offset. -/
  signed (chars : List Char) : Option (List Char) := do
    let (_, rest) ← readTwo 0 23 chars
    let (_, rest) ← readTwo 0 59 (← expect ':' rest)
    some rest

/-- Whether a date comes next: four digits and a dash. -/
def atDate (chars : List Char) : Bool :=
  ((readDigits 4 0 chars).bind fun found => expect '-' found.2).isSome

/-- Whether a time comes next: two digits and a colon. -/
def atTime (chars : List Char) : Bool :=
  ((readTwo 0 23 chars).bind fun found => expect ':' found.2).isSome

/-- What is left behind a date, a time or both. -/
def skipMoment (chars : List Char) : Option (List Char) :=
  if atDate chars then do
    let rest ← skipDate chars
    match rest with
    | c :: after =>
      if (c = 'T' ∨ c = 't' ∨ c = ' ') ∧ atTime after then (skipTime after).bind skipOffset
      else some rest
    | [] => some []
  else skipTime chars

/-! ## Numbers -/

/-- Reads digits that pass the test, with single underscores between them. -/
def readGrouped (test : Char → Bool) : List Char → Option (List Char × List Char)
  | [] => none
  | c :: rest => if test c then go [c] rest else none
where
  /-- Reads on behind a digit. -/
  go : List Char → List Char → Option (List Char × List Char)
    | reversed, [] => some (reversed.reverse, [])
    | reversed, '_' :: c :: rest => if test c then go (c :: reversed) rest else none
    | _, ['_'] => none
    | reversed, c :: rest => if test c then go (c :: reversed) rest else some (reversed.reverse, c :: rest)

/-- The value of digits in a base. -/
def valueIn (base : Nat) (digits : List Char) : Nat :=
  digits.foldl (fun value c =>
    value * base + (Json.hexValue? (UInt8.ofNat c.toNat)).getD 0) 0

/-- Splits off a sign. -/
def readSign : List Char → Bool × List Char
  | '-' :: rest => (true, rest)
  | '+' :: rest => (false, rest)
  | chars => (false, chars)

/-- Reads the digits of a whole number, of which only zero begins with a zero. -/
def readWhole : List Char → Option (List Char × List Char)
  | '0' :: rest => some (['0'], rest)
  | chars => readGrouped Char.isDigit chars

/-- Whether a whole number fits 64 bits with a sign. -/
def fits (value : Int) : Bool :=
  -Int.pow 2 63 ≤ value && value < Int.pow 2 63

/-- Reads a whole number in a base other than ten, behind its two leading characters. -/
def readBased (base : Nat) (test : Char → Bool) (chars : List Char) :
    Option (Data × List Char) := do
  let (digits, rest) ← readGrouped test chars
  let value : Int := valueIn base digits
  if fits value then some (.integer value, rest) else none

/-- Whether a character is a hexadecimal digit. -/
def isHexDigit (c : Char) : Bool :=
  c.isDigit || ('a' ≤ c && c ≤ 'f') || ('A' ≤ c && c ≤ 'F')

/-- Reads the exponent of a number, if there is one. -/
def readExponent : List Char → Option (Option Int × List Char)
  | c :: rest =>
    if c = 'e' ∨ c = 'E' then do
      let (negative, rest) := readSign rest
      let (digits, rest) ← readGrouped Char.isDigit rest
      let value : Int := valueIn 10 digits
      some (some (if negative then -value else value), rest)
    else some (none, c :: rest)
  | [] => some (none, [])

/-- Reads the fraction of a number, if there is one. -/
def readFraction : List Char → Option (Option (List Char) × List Char)
  | '.' :: rest => do
    let (digits, rest) ← readGrouped Char.isDigit rest
    some (some digits, rest)
  | chars => some (none, chars)

/-- The floating-point number with the given parts, unless it is infinite and positive. -/
def floatOf (negative : Bool) (digits : Nat) (exponent : Int) : Option Data :=
  let bounded : Int := max (-5000) (min 5000 exponent)
  let found := if 0 ≤ bounded then Decimal.Binary64.ofRatio? (digits * Nat.pow 10 bounded.toNat) 1
    else Decimal.Binary64.ofRatio? digits (Nat.pow 10 (-bounded).toNat)
  match found with
  | some magnitude => some (.float negative magnitude)
  | none => if negative then some (.unbounded "-inf") else none

/-- Reads a number in base ten. -/
def readDecimal (chars : List Char) : Option (Data × List Char) := do
  let (negative, unsigned) := readSign chars
  let (digits, rest) ← readWhole unsigned
  let (fraction, rest) ← readFraction rest
  let (exponent, rest) ← readExponent rest
  match fraction, exponent with
  | none, none =>
    let value : Int := valueIn 10 digits
    let signed := if negative then -value else value
    if fits signed then some (.integer signed, rest) else none
  | _, _ =>
    let decimals := fraction.getD []
    let value ← floatOf negative (valueIn 10 (digits ++ decimals))
      (exponent.getD 0 - decimals.length)
    some (value, rest)

/-- Reads an infinity or a value that is not a number, behind its sign. -/
def readUnbounded : List Char → Option (Data × List Char)
  | 'i' :: 'n' :: 'f' :: rest => some (.unbounded "inf", rest)
  | 'n' :: 'a' :: 'n' :: rest => some (.unbounded "nan", rest)
  | _ => none

/-- Reads a number, a date or a time. -/
def readNumber (chars : List Char) : Option (Data × List Char) :=
  if atDate chars || atTime chars then (skipMoment chars).map fun rest => (.moment "", rest)
  else match chars with
    | '0' :: 'x' :: rest => readBased 16 isHexDigit rest
    | '0' :: 'o' :: rest => readBased 8 (fun c => '0' ≤ c && c ≤ '7') rest
    | '0' :: 'b' :: rest => readBased 2 (fun c => c == '0' || c == '1') rest
    | _ =>
      match readUnbounded (readSign chars).2 with
      | some found => some found
      | none => readDecimal chars

end Polyglot.Toml
