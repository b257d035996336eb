import Polyglot.Decimal.Binary64

/-!
# The shortest decimal of a binary number

The text of a binary number has the fewest digits that still read back as the same
number, and of those the digits nearest to it. The reals that read back as a number
form an interval around it, whose ends belong to it when the mantissa is even. On the
grid of the decimals with a given count of digits only the two neighbours of the
number can be the nearest ones, so the search tries those for one digit, two digits
and so on; seventeen always suffice.

Between ten to the minus five and ten to the sixteen the digits are written
positionally with a point, and outside with an exponent that has a sign and at least
two digits.
-/

set_option autoImplicit false

namespace Polyglot.Decimal

/-- The decimal `digits * 10 ^ exponent`. -/
structure Scientific where
  /-- The digits, read as a natural. -/
  digits : Nat
  /-- The exponent of ten. -/
  exponent : Int
  deriving DecidableEq, Repr

/-- The value of a decimal as a quotient of naturals. -/
def Scientific.toRatio (d : Scientific) : Nat × Nat :=
  if 0 ≤ d.exponent then (d.digits * Nat.pow 10 d.exponent.toNat, 1)
  else (d.digits, Nat.pow 10 (-d.exponent).toNat)

/-- Whether a decimal reads back as the given number. -/
def Binary64.covers (x : Binary64) (d : Scientific) : Bool :=
  let (num, den) := d.toRatio
  Binary64.ofRatio? num den == some x

/-- The decimal exponent of the leading digit of a positive quotient. -/
def leadingExponent (num den : Nat) : Int :=
  let guess : Int := (Nat.toDigits 10 num).length - (Nat.toDigits 10 den).length
  let reaches (e : Int) : Bool :=
    if 0 ≤ e then den * Nat.pow 10 e.toNat ≤ num else den ≤ num * Nat.pow 10 (-e).toNat
  if reaches guess then guess else guess - 1

/-- The nearer neighbour with the given count of digits, if one of the two reads back. -/
def Binary64.withDigits? (x : Binary64) (count : Nat) : Option Scientific :=
  let (num, den) := x.toRatio
  let exponent := leadingExponent num den - count + 1
  let (n, d) :=
    if 0 ≤ exponent then (num, den * Nat.pow 10 exponent.toNat)
    else (num * Nat.pow 10 (-exponent).toNat, den)
  let below : Scientific := ⟨n / d, exponent⟩
  let above : Scientific := ⟨n / d + 1, exponent⟩
  let nearer := ⟨roundHalfEven n d, exponent⟩
  match x.covers below, x.covers above with
  | true, true => some nearer
  | true, false => some below
  | false, true => some above
  | false, false => none

/-- The shortest decimal that reads back as a positive number. -/
def Binary64.shortest (x : Binary64) : Scientific :=
  ((List.range 17).findSome? fun i => x.withDigits? (i + 1)).getD ⟨0, 0⟩

/-- A decimal without trailing zeros in its digits. -/
def Scientific.stripped (d : Scientific) : Scientific :=
  go 20 d
where
  /-- Removes at most the given count of zeros. -/
  go : Nat → Scientific → Scientific
    | 0, d => d
    | fuel + 1, d =>
      if d.digits ≠ 0 ∧ d.digits % 10 = 0 then go fuel ⟨d.digits / 10, d.exponent + 1⟩ else d

/-- The digits of an exponent, at least two of them. -/
def exponentText (n : Nat) : List Char :=
  let digits := Nat.toDigits 10 n
  if digits.length < 2 then '0' :: digits else digits

/-- The text of a decimal with digits other than zero. -/
def Scientific.text (d : Scientific) : List Char :=
  let digits := Nat.toDigits 10 d.digits
  let point : Int := digits.length + d.exponent
  if 0 ≤ d.exponent ∧ point ≤ 16 then
    digits ++ List.replicate d.exponent.toNat '0' ++ ['.', '0']
  else if 0 < point ∧ point ≤ 16 then
    digits.take point.toNat ++ '.' :: digits.drop point.toNat
  else if -5 < point ∧ point ≤ 0 then
    ['0', '.'] ++ List.replicate (-point).toNat '0' ++ digits
  else
    let mantissa := match digits with
      | [only] => [only]
      | first :: rest => first :: '.' :: rest
      | [] => []
    let sign := if point - 1 < 0 then '-' else '+'
    mantissa ++ 'e' :: sign :: exponentText (point - 1).natAbs

/-- The text of a number with a sign. -/
def floatText (negative : Bool) (x : Binary64) : String :=
  let body := if x.isZero then ['0', '.', '0'] else x.shortest.stripped.text
  String.ofList (if negative then '-' :: body else body)

end Polyglot.Decimal
