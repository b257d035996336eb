import Polyglot.Decimal.Shortest
import Polyglot.Host.Action
import Polyglot.Host.Numeral

/-!
# Escapes and formats of the output commands

The commands that print texts know escapes by backslash, and one of them knows formats:
a percent sign, flags, a width, a precision and a letter that says how the next
argument is written. A format is used again as long as arguments are left.

An argument that is not the number that it should be counts as the number at its front,
with a fault on record. A directive with an unknown letter ends the output.
-/

set_option autoImplicit false

namespace Polyglot.Host

open Polyglot.Text (Bytes)

/-! ## Escapes -/

/-- The value of an octal digit. -/
def octalDigit? (byte : UInt8) : Option Nat :=
  if 48 ≤ byte.toNat ∧ byte.toNat ≤ 55 then some (byte.toNat - 48) else none

/-- Reads at most the given number of octal digits. -/
def readOctal : Nat → Nat → Bytes → Nat × Bytes
  | 0, value, bytes => (value, bytes)
  | _ + 1, value, [] => (value, [])
  | count + 1, value, byte :: rest =>
    match octalDigit? byte with
    | some digit => readOctal count (value * 8 + digit) rest
    | none => (value, byte :: rest)

/-- The byte that a letter behind a backslash stands for. -/
def controlOf? (letter : UInt8) : Option UInt8 :=
  match letter.toNat with
  | 0x61 => some 7
  | 0x62 => some 8
  | 0x65 => some 27
  | 0x66 => some 12
  | 0x6E => some 10
  | 0x72 => some 13
  | 0x74 => some 9
  | 0x76 => some 11
  | 0x5C => some 0x5C
  | _ => none

/-- The bytes of an escape behind its backslash, and what follows it. -/
def escapeAt : Bytes → Bytes × Bytes
  | [] => ([0x5C], [])
  | letter :: rest =>
    match controlOf? letter with
    | some control => ([control], rest)
    | none =>
      if (octalDigit? letter).isSome then
        let (value, rest) := readOctal 3 0 (letter :: rest)
        ([UInt8.ofNat value], rest)
      else ([0x5C, letter], rest)

/--
The bytes that an argument with escapes stands for, and whether an escape ended the
output. A zero may stand in front of the three digits of an octal escape.
-/
def unescape : Nat → Bytes → Bytes × Bool
  | 0, bytes => (bytes, false)
  | _ + 1, [] => ([], false)
  | count + 1, byte :: rest =>
    let keep (front rest : Bytes) : Bytes × Bool :=
      let (tail, stop) := unescape count rest
      (front ++ tail, stop)
    if byte ≠ 0x5C then keep [byte] rest
    else match rest with
      | 0x63 :: _ => ([], true)
      | 0x30 :: digit :: behind =>
        let (front, rest) := escapeAt (if (octalDigit? digit).isSome then digit :: behind else rest)
        keep front rest
      | rest =>
        let (front, rest) := escapeAt rest
        keep front rest

/-- The bytes that an argument with escapes stands for, and whether an escape ended the output. -/
def unescaped (bytes : Bytes) : Bytes × Bool :=
  unescape (bytes.length + 1) bytes

/-! ## Directives -/

/-- Something that is wrong with a format or an argument. -/
inductive FormatFault where
  /-- An argument that should be a number does not begin with one. -/
  | notNumber (argument : String)
  /-- Something follows the number of an argument. -/
  | leftover (argument : String)
  /-- The letter of a directive is unknown. -/
  | unknown (directive : String)
  deriving DecidableEq, Repr

/-- How an argument is written. -/
structure Directive where
  /-- The directive as it stands in the format. -/
  text : Bytes
  /-- Whether it stands at the left end of its field. -/
  left : Bool
  /-- Whether the field is filled with zeros. -/
  zeros : Bool
  /-- What is written in front of a number that is not negative. -/
  sign : Bytes
  /-- The width of the field. -/
  width : Nat
  /-- The precision. -/
  precision : Option Nat
  /-- The letter of the directive. -/
  letter : Char
  deriving DecidableEq, Repr

/-- Reads a natural at the front of some bytes. -/
def leadingNatural (bytes : Bytes) : Option Nat × Bytes :=
  let digits := bytes.takeWhile fun byte => 48 ≤ byte && byte ≤ 57
  (if digits.isEmpty then none
   else some (digits.foldl (fun value byte => value * 10 + (byte.toNat - 48)) 0),
   bytes.drop digits.length)

/-- Reads a directive behind its percent sign. -/
def readDirective (bytes : Bytes) : Option (Directive × Bytes) :=
  let flags := bytes.takeWhile fun byte => byte == 0x2D || byte == 0x30 || byte == 0x2B || byte == 0x20
  let (width, rest) := leadingNatural (bytes.drop flags.length)
  let (precision, rest) := match rest with
    | 0x2E :: rest =>
      let (digits, rest) := leadingNatural rest
      (some (digits.getD 0), rest)
    | rest => (none, rest)
  match rest with
  | letter :: rest =>
    some (⟨0x25 :: bytes.take (bytes.length - rest.length), flags.contains 0x2D, flags.contains 0x30,
      if flags.contains 0x2B then [0x2B] else if flags.contains 0x20 then [32] else [],
      width.getD 0, precision, Char.ofNat letter.toNat⟩, rest)
  | [] => none

/-- The characters that bytes stand for one by one. -/
def charsOf (bytes : Bytes) : List Char :=
  bytes.map fun byte => Char.ofNat byte.toNat

/-- The number that an argument spells; a quote in front asks for the value of a character. -/
def numberOf (argument : Bytes) : Int × List FormatFault :=
  match argument with
  | [] => (0, [])
  | quote :: rest =>
    if quote = 0x22 || quote = 0x27 then ((rest.head?.getD 0).toNat, [])
    else match Numeral.readWhole (charsOf argument) with
      | some (value, []) => (value, [])
      | some (value, _) => (value, [.leftover (Text.lossy argument)])
      | none => (0, [.notNumber (Text.lossy argument)])

/-- The quotient of naturals that an argument with decimals spells, and whether it is negative. -/
def fractionOf (argument : Bytes) : (Bool × Nat × Nat) × List FormatFault :=
  let (negative, chars) := Numeral.splitSign ((charsOf argument).dropWhile Numeral.isBlank)
  let (whole, rest) := Numeral.readDigits 10 0 chars
  let (value, places, rest) := match rest with
    | '.' :: rest =>
      let (value, behind) := Numeral.readDigits 10 whole rest
      (value, rest.length - behind.length, behind)
    | rest => (whole, 0, rest)
  let faults : List FormatFault :=
    if argument.isEmpty || rest.isEmpty then []
    else if rest.length = chars.length then [.notNumber (Text.lossy argument)]
    else [.leftover (Text.lossy argument)]
  ((negative, value, Nat.pow 10 places), faults)

/-- A text at one end of a field. -/
def Directive.pad (directive : Directive) (text : Bytes) : Bytes :=
  let missing := directive.width - text.length
  if directive.left then text ++ List.replicate missing 32 else List.replicate missing 32 ++ text

/-- Digits with their sign in a field, filled with zeros if that is allowed and asked for. -/
def Directive.padDigits (directive : Directive) (mayFill negative : Bool) (digits : Bytes) : Bytes :=
  let sign : Bytes := if negative then [0x2D] else directive.sign
  if directive.zeros && !directive.left && mayFill then
    sign ++ List.replicate (directive.width - sign.length - digits.length) 48 ++ digits
  else directive.pad (sign ++ digits)

/-- A whole number in a field. -/
def Directive.padWhole (directive : Directive) (negative : Bool) (digits : Bytes) : Bytes :=
  directive.padDigits directive.precision.isNone negative
    (List.replicate ((directive.precision.getD 0) - digits.length) 48 ++ digits)

/-- The digits of a natural in a base. -/
def digitsIn (base n : Nat) : Bytes :=
  Text.utf8 (String.ofList (Nat.toDigits base n))

/-- A number as it is read without a sign, in 64 bits. -/
def unsigned (n : Int) : Nat :=
  (n % Int.pow 2 64).toNat

/-- The digits of a quotient with the given number of places, rounded as a number of 64 bits. -/
def placesOf (places num den : Nat) : Bytes :=
  let (num, den) := match Decimal.Binary64.ofRatio? num den with
    | some x => x.toRatio
    | none => (num, den)
  let digits := digitsIn 10 (Decimal.roundHalfEven (num * Nat.pow 10 places) den)
  let digits := List.replicate (places + 1 - digits.length) 48 ++ digits
  if places = 0 then digits
  else digits.take (digits.length - places) ++ 0x2E :: digits.drop (digits.length - places)

/-- What a directive makes of an argument. -/
structure Written where
  /-- The output. -/
  output : Bytes
  /-- The faults. -/
  faults : List FormatFault
  /-- Whether the whole output ends here. -/
  stops : Bool
  deriving DecidableEq, Repr

/-- An argument as a directive writes it. -/
def Directive.apply (directive : Directive) (argument : Bytes) : Written :=
  let (number, faults) := numberOf argument
  let whole (negative : Bool) (digits : Bytes) : Written :=
    ⟨directive.padWhole negative digits, faults, false⟩
  match directive.letter with
  | 's' => ⟨directive.pad (argument.take (directive.precision.getD argument.length)), [], false⟩
  | 'b' =>
    let (text, stop) := unescaped argument
    ⟨directive.pad text, [], stop⟩
  | 'c' => ⟨directive.pad (argument.take 1), [], false⟩
  | 'd' => whole (number < 0) (digitsIn 10 number.natAbs)
  | 'i' => whole (number < 0) (digitsIn 10 number.natAbs)
  | 'u' => whole false (digitsIn 10 (unsigned number))
  | 'o' => whole false (digitsIn 8 (unsigned number))
  | 'x' => whole false (digitsIn 16 (unsigned number))
  | 'X' =>
    whole false ((digitsIn 16 (unsigned number)).map fun byte => if byte ≥ 97 then byte - 32 else byte)
  | 'f' =>
    let ((negative, num, den), faults) := fractionOf argument
    ⟨directive.padDigits true negative (placesOf (directive.precision.getD 6) num den), faults, false⟩
  | _ => ⟨[], [.unknown (Text.lossy directive.text)], true⟩

/-! ## Formats -/

/-- What one use of a format comes to. -/
structure FormatUse where
  /-- What it writes, and its faults. -/
  written : Written
  /-- The arguments that are left. -/
  left : List Bytes
  /-- Whether it asked for an argument. -/
  asked : Bool
  deriving DecidableEq, Repr

/-- A use of a format that begins with something written before. -/
def FormatUse.behind (front : Written) (asked : Bool) (use : FormatUse) : FormatUse :=
  ⟨⟨front.output ++ use.written.output, front.faults ++ use.written.faults, use.written.stops⟩,
    use.left, asked || use.asked⟩

/-- One use of a format. -/
def formatOnce : Nat → Bytes → List Bytes → FormatUse
  | 0, _, arguments => ⟨⟨[], [], false⟩, arguments, false⟩
  | _ + 1, [], arguments => ⟨⟨[], [], false⟩, arguments, false⟩
  | count + 1, byte :: rest, arguments =>
    let keep (front rest : Bytes) : FormatUse :=
      .behind ⟨front, [], false⟩ false (formatOnce count rest arguments)
    if byte = 0x25 then
      match rest with
      | 0x25 :: rest => keep [0x25] rest
      | rest =>
        match readDirective rest with
        | none => ⟨⟨[], [.unknown "%"], true⟩, arguments, false⟩
        | some (directive, rest) =>
          let written := directive.apply (arguments.head?.getD [])
          if written.stops then ⟨written, arguments.drop 1, true⟩
          else .behind written true (formatOnce count rest (arguments.drop 1))
    else if byte = 0x5C then
      let (text, rest) := escapeAt rest
      keep text rest
    else keep [byte] rest

/-- The output of a format with arguments, used again as long as arguments are left. -/
def format : Nat → Bytes → List Bytes → Written
  | 0, _, _ => ⟨[], [], false⟩
  | count + 1, layout, arguments =>
    let use := formatOnce (layout.length + 1) layout arguments
    if use.written.stops || !use.asked || use.left.isEmpty then use.written
    else (FormatUse.behind use.written true ⟨format count layout use.left, [], true⟩).written

end Polyglot.Host
