/-!
# Binary floating-point numbers of 64 bits

A non-negative finite number of the format is a mantissa below `2 ^ 53` times a power
of two whose exponent lies between -1074 and 971. Every quotient of naturals has a
nearest one, and of two equally near the one with the even mantissa is taken. A
quotient that rounds beyond the greatest number has none.

Products and quotients of the format are the rounded exact ones, so the whole
arithmetic is the function `ofRatio?`.
-/

set_option autoImplicit false

namespace Polyglot.Decimal

/-- The non-negative number `mantissa * 2 ^ exponent`. -/
structure Binary64 where
  /-- The mantissa, below `2 ^ 53`. -/
  mantissa : Nat
  /-- The exponent of two. -/
  exponent : Int
  deriving DecidableEq, Repr

/-- The number of binary digits. -/
def bitLength (n : Nat) : Nat :=
  if n = 0 then 0 else Nat.log2 n + 1

/-- The numerator and denominator of `num / den / 2 ^ exponent`. -/
def scaled (num den : Nat) (exponent : Int) : Nat × Nat :=
  if 0 ≤ exponent then (num, den * Nat.pow 2 exponent.toNat)
  else (num * Nat.pow 2 (-exponent).toNat, den)

/-- The natural nearest to a quotient, the even one of two equally near. -/
def roundHalfEven (num den : Nat) : Nat :=
  let whole := num / den
  let twice := 2 * (num % den)
  if twice < den then whole
  else if den < twice then whole + 1
  else if whole % 2 = 0 then whole else whole + 1

namespace Binary64

/-- The nearest number of the format to a quotient of naturals, unless it is too large. -/
def ofRatio? (num den : Nat) : Option Binary64 :=
  if num = 0 then some ⟨0, -1074⟩
  else
    let guess : Int := max ((bitLength num : Int) - bitLength den - 53) (-1074)
    let (n, d) := scaled num den guess
    let exponent := if n / d ≥ Nat.pow 2 53 then guess + 1 else guess
    let (n, d) := scaled num den exponent
    let rounded := roundHalfEven n d
    let result : Binary64 :=
      if rounded = Nat.pow 2 53 then ⟨Nat.pow 2 52, exponent + 1⟩ else ⟨rounded, exponent⟩
    if result.exponent > 971 then none else some result

/-- The exact value as a quotient of naturals. -/
def toRatio (x : Binary64) : Nat × Nat :=
  if 0 ≤ x.exponent then (x.mantissa * Nat.pow 2 x.exponent.toNat, 1)
  else (x.mantissa, Nat.pow 2 (-x.exponent).toNat)

/-- The rounded product. -/
def mul? (x y : Binary64) : Option Binary64 :=
  let (a, b) := x.toRatio
  let (c, d) := y.toRatio
  ofRatio? (a * c) (b * d)

/-- The rounded quotient. -/
def div? (x y : Binary64) : Option Binary64 :=
  let (a, b) := x.toRatio
  let (c, d) := y.toRatio
  ofRatio? (a * d) (b * c)

/-- The nearest number of the format to a natural below `2 ^ 1023`. -/
def ofNat (n : Nat) : Binary64 :=
  (ofRatio? n 1).getD ⟨Nat.pow 2 53 - 1, 971⟩

/-- Whether the number is zero. -/
def isZero (x : Binary64) : Bool :=
  x.mantissa == 0

end Binary64

end Polyglot.Decimal
