import Polyglot.Host.Numeral
import Polyglot.Host.Shell.Token

/-!
# Arithmetic of the command language

An expression of whole numbers with 64 bits is read into a tree and then evaluated. The
tree has variables, the usual operators with their usual precedence, comparisons that
yield one or zero, choices, and assignments. Of a connective or a choice only the
operands that matter are evaluated.
-/

set_option autoImplicit false

namespace Polyglot.Host.Shell.Arithmetic

/-- An operator with two operands. -/
inductive Operator where
  /-- Bits that are set in one of both. -/
  | bitOr
  /-- Bits that are set in exactly one of both. -/
  | bitXor
  /-- Bits that are set in both. -/
  | bitAnd
  /-- Equality. -/
  | equal
  /-- Difference. -/
  | unequal
  /-- The left one is less. -/
  | less
  /-- The left one is less or equal. -/
  | lessEqual
  /-- The left one is greater. -/
  | greater
  /-- The left one is greater or equal. -/
  | greaterEqual
  /-- Bits moved to the left. -/
  | shiftLeft
  /-- Bits moved to the right. -/
  | shiftRight
  /-- The sum. -/
  | add
  /-- The left one less the right one. -/
  | subtract
  /-- The product. -/
  | multiply
  /-- The quotient towards zero. -/
  | divide
  /-- The remainder with the sign of the left one. -/
  | remainder
  deriving DecidableEq, Repr

/-- An operator with one operand. -/
inductive Sign where
  /-- The negative. -/
  | minus
  /-- One for zero and zero for anything else. -/
  | not
  /-- All bits turned over. -/
  | flip
  deriving DecidableEq, Repr

/-- An expression. -/
inductive Expr where
  /-- A number. -/
  | number (value : Int)
  /-- The value of a variable. -/
  | variable (name : String)
  /-- An operation with one operand. -/
  | signed (sign : Sign) (operand : Expr)
  /-- An operation with two operands. -/
  | binary (operator : Operator) (left right : Expr)
  /-- Both are different from zero. -/
  | both (left right : Expr)
  /-- One of both is different from zero. -/
  | either (left right : Expr)
  /-- One of two values, as a condition decides. -/
  | choice (condition yes no : Expr)
  /-- A variable receives a value, or its own value combined with one. -/
  | assign (name : String) (operator : Option Operator) (value : Expr)
  deriving Repr

/-- Why an expression has no value. -/
inductive Fault where
  /-- Something else should stand at a place. -/
  | expecting (what : String)
  /-- Something is divided by zero. -/
  | divisionByZero
  /-- A variable does not hold a number. -/
  | notNumber (text : String)
  deriving DecidableEq, Repr

/-- The wording of a fault in an expression. -/
def Fault.message (source : String) : Fault → String
  | .expecting what => "arithmetic expression: expecting " ++ what ++ ": \"" ++ source ++ "\""
  | .divisionByZero => "arithmetic expression: division by zero: \"" ++ source ++ "\""
  | .notNumber text => "Illegal number: " ++ text

/-! ## Reading -/

/-- What is left behind the blanks that come next. -/
def skip (chars : List Char) : List Char :=
  chars.dropWhile fun c => c == ' ' || c == '\t' || c == '\n'

/-- The operator that comes next, with its precedence and what follows; higher ones bind more tightly. -/
def operatorAt? : List Char → Option (Operator × Nat × List Char)
  | '|' :: '|' :: _ => none
  | '&' :: '&' :: _ => none
  | '=' :: '=' :: rest => some (.equal, 4, rest)
  | '!' :: '=' :: rest => some (.unequal, 4, rest)
  | '<' :: '<' :: rest => some (.shiftLeft, 6, rest)
  | '>' :: '>' :: rest => some (.shiftRight, 6, rest)
  | '<' :: '=' :: rest => some (.lessEqual, 5, rest)
  | '>' :: '=' :: rest => some (.greaterEqual, 5, rest)
  | '|' :: rest => some (.bitOr, 1, rest)
  | '^' :: rest => some (.bitXor, 2, rest)
  | '&' :: rest => some (.bitAnd, 3, rest)
  | '<' :: rest => some (.less, 5, rest)
  | '>' :: rest => some (.greater, 5, rest)
  | '+' :: rest => some (.add, 7, rest)
  | '-' :: rest => some (.subtract, 7, rest)
  | '*' :: rest => some (.multiply, 8, rest)
  | '/' :: rest => some (.divide, 8, rest)
  | '%' :: rest => some (.remainder, 8, rest)
  | _ => none

/-- The sign of an assignment that comes next, with the operator in it and what follows. -/
def assignmentAt? (chars : List Char) : Option (Option Operator × List Char) :=
  match chars with
  | '=' :: '=' :: _ => none
  | '=' :: rest => some (none, rest)
  | chars =>
    match operatorAt? chars with
    | some (operator, precedence, '=' :: rest) =>
      if precedence = 4 ∨ precedence = 5 then none else some (some operator, rest)
    | _ => none

mutual

/-- Reads an assignment or a choice. -/
def readAssignment : Nat → List Char → Except Fault (Expr × List Char)
  | 0, _ => .error (.expecting "primary")
  | steps + 1, chars => do
    let chars := skip chars
    let name := chars.takeWhile isNameChar
    match name.head?.any isNameStart, assignmentAt? (skip (chars.drop name.length)) with
    | true, some (operator, rest) => do
      let (value, rest) ← readAssignment steps rest
      .ok (.assign (String.ofList name) operator value, rest)
    | _, _ => readChoice steps chars

/-- Reads a choice or a connective. -/
def readChoice : Nat → List Char → Except Fault (Expr × List Char)
  | 0, _ => .error (.expecting "primary")
  | steps + 1, chars => do
    let (condition, rest) ← readEither steps chars
    match skip rest with
    | '?' :: rest => do
      let (yes, rest) ← readAssignment steps rest
      match skip rest with
      | ':' :: rest => do
        let (no, rest) ← readChoice steps rest
        .ok (.choice condition yes no, rest)
      | _ => .error (.expecting "':'")
    | rest => .ok (condition, rest)

/-- Reads operands of which one must be different from zero. -/
def readEither : Nat → List Char → Except Fault (Expr × List Char)
  | 0, _ => .error (.expecting "primary")
  | steps + 1, chars => do
    let (left, rest) ← readBoth steps chars
    match skip rest with
    | '|' :: '|' :: rest => do
      let (right, rest) ← readEither steps rest
      .ok (.either left right, rest)
    | rest => .ok (left, rest)

/-- Reads operands that must both be different from zero. -/
def readBoth : Nat → List Char → Except Fault (Expr × List Char)
  | 0, _ => .error (.expecting "primary")
  | steps + 1, chars => do
    let (left, rest) ← readBinary steps 1 chars
    match skip rest with
    | '&' :: '&' :: rest => do
      let (right, rest) ← readBoth steps rest
      .ok (.both left right, rest)
    | rest => .ok (left, rest)

/-- Reads an expression whose operators have at least the given precedence. -/
def readBinary : Nat → Nat → List Char → Except Fault (Expr × List Char)
  | 0, _, _ => .error (.expecting "primary")
  | steps + 1, lowest, chars => do
    let (left, rest) ← readPrimary steps chars
    readOn steps lowest left rest

/-- Reads on behind an operand. -/
def readOn : Nat → Nat → Expr → List Char → Except Fault (Expr × List Char)
  | 0, _, _, _ => .error (.expecting "primary")
  | steps + 1, lowest, left, chars =>
    match operatorAt? (skip chars) with
    | some (operator, precedence, rest) =>
      if precedence < lowest then .ok (left, chars)
      else do
        let (right, rest) ← readBinary steps (precedence + 1) rest
        readOn steps lowest (.binary operator left right) rest
    | none => .ok (left, chars)

/-- Reads an operand. -/
def readPrimary : Nat → List Char → Except Fault (Expr × List Char)
  | 0, _ => .error (.expecting "primary")
  | steps + 1, chars =>
    let signed (sign : Sign) (rest : List Char) : Except Fault (Expr × List Char) := do
      let (operand, rest) ← readPrimary steps rest
      .ok (.signed sign operand, rest)
    match skip chars with
    | '-' :: rest => signed .minus rest
    | '+' :: rest => readPrimary steps rest
    | '!' :: rest => signed .not rest
    | '~' :: rest => signed .flip rest
    | '(' :: rest => do
      let (inner, rest) ← readAssignment steps rest
      match skip rest with
      | ')' :: rest => .ok (inner, rest)
      | _ => .error (.expecting "')'")
    | chars =>
      match Numeral.readNatural chars with
      | some (value, rest) => .ok (.number (Numeral.clamp value), rest)
      | none =>
        let name := chars.takeWhile isNameChar
        if name.head?.any isNameStart then
          .ok (.variable (String.ofList name), chars.drop name.length)
        else .error (.expecting "primary")

end

/-- The expression that a text spells. -/
def Expr.read (source : List Char) : Except Fault Expr := do
  match ← readAssignment (8 * source.length + 16) source with
  | (expr, rest) => if (skip rest).isEmpty then .ok expr else .error (.expecting "EOF")

/-! ## Evaluating -/

/-- One for a condition that holds and zero for one that does not. -/
def truth (condition : Bool) : Int :=
  if condition then 1 else 0

/-- A number as 64 bits. -/
def bits (n : Int) : UInt64 :=
  UInt64.ofNat (n % Int.pow 2 64).toNat

/-- The number of 64 bits. -/
def ofBits (word : UInt64) : Int :=
  Numeral.wrap word.toNat

/-- The value of an operation with two operands. -/
def Operator.apply (operator : Operator) (a b : Int) : Except Fault Int :=
  match operator with
  | .bitOr => .ok (ofBits (bits a ||| bits b))
  | .bitXor => .ok (ofBits (bits a ^^^ bits b))
  | .bitAnd => .ok (ofBits (bits a &&& bits b))
  | .equal => .ok (truth (a == b))
  | .unequal => .ok (truth (a != b))
  | .less => .ok (truth (a < b))
  | .lessEqual => .ok (truth (a ≤ b))
  | .greater => .ok (truth (b < a))
  | .greaterEqual => .ok (truth (b ≤ a))
  | .shiftLeft => .ok (ofBits (bits a <<< bits b))
  | .shiftRight => .ok (Int.fdiv a (Int.pow 2 ((bits b).toNat % 64)))
  | .add => .ok (Numeral.wrap (a + b))
  | .subtract => .ok (Numeral.wrap (a - b))
  | .multiply => .ok (Numeral.wrap (a * b))
  | .divide => if b = 0 then .error .divisionByZero else .ok (Numeral.clamp (a.tdiv b))
  | .remainder => if b = 0 then .error .divisionByZero else .ok (a.tmod b)

/-- The value of an operation with one operand. -/
def Sign.apply (sign : Sign) (a : Int) : Int :=
  match sign with
  | .minus => Numeral.wrap (-a)
  | .not => truth (a == 0)
  | .flip => -a - 1

/-- The number that a text holds; an empty text holds zero. -/
def numberIn (text : String) : Except Fault Int :=
  match Numeral.readWhole text.toList with
  | some (value, rest) => if (skip rest).isEmpty then .ok value else .error (.notNumber text)
  | none => if (skip text.toList).isEmpty then .ok 0 else .error (.notNumber text)

/-- The variables that an evaluation has set, the latest first. -/
abbrev Assignments := List (String × String)

/-- The number that a variable holds behind some assignments. -/
def numberOf (value? : String → Option String) (done : Assignments) (name : String) :
    Except Fault Int :=
  numberIn (((done.lookup name).or (value? name)).getD "")

/-- The value of an expression behind some assignments, and all assignments. -/
def Expr.eval (value? : String → Option String) :
    Expr → Assignments → Except Fault (Int × Assignments)
  | .number value, done => .ok (value, done)
  | .variable name, done => do .ok (← numberOf value? done name, done)
  | .signed sign operand, done => do
    let (a, done) ← operand.eval value? done
    .ok (sign.apply a, done)
  | .binary operator left right, done => do
    let (a, done) ← left.eval value? done
    let (b, done) ← right.eval value? done
    .ok (← operator.apply a b, done)
  | .both left right, done => do
    let (a, done) ← left.eval value? done
    if a = 0 then .ok (0, done)
    else
      let (b, done) ← right.eval value? done
      .ok (truth (b != 0), done)
  | .either left right, done => do
    let (a, done) ← left.eval value? done
    if a != 0 then .ok (1, done)
    else
      let (b, done) ← right.eval value? done
      .ok (truth (b != 0), done)
  | .choice condition yes no, done => do
    let (a, done) ← condition.eval value? done
    if a != 0 then yes.eval value? done else no.eval value? done
  | .assign name operator value, done => do
    let (b, done) ← value.eval value? done
    let result ← match operator with
      | none => .ok b
      | some operator => do operator.apply (← numberOf value? done name) b
    .ok (result, (name, toString result) :: done)

/-- The value of an expression that is given as a text, and the variables that it sets. -/
def evaluate (value? : String → Option String) (source : List Char) :
    Except Fault (Int × Assignments) := do
  (← Expr.read source).eval value? []

end Polyglot.Host.Shell.Arithmetic
