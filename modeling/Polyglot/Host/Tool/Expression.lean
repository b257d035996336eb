import Polyglot.Host.Numeral
import Polyglot.Host.Regex
import Polyglot.Host.Tool.Call

/-!
# Expressions of words

An expression is given word by word: operands that are texts or numbers, operators with
their precedence, parentheses, and a few functions. A comparison is made between
numbers if both operands are numbers, and between texts otherwise.
-/

set_option autoImplicit false

namespace Polyglot.Host.Tool

open Polyglot.Text (utf8)

/-- The value of an expression: a text, which may be a number. -/
abbrev ExprValue := String

/-- Why an expression has no value. -/
inductive ExprFault where
  /-- The expression ends too early or goes on too long. -/
  | malformed (message : String)
  /-- An operand should be a number. -/
  | notNumber
  /-- Something is divided by zero. -/
  | divisionByZero
  deriving DecidableEq, Repr

/-- The wording of a fault. -/
def ExprFault.message : ExprFault → String
  | .malformed message => message
  | .notNumber => "non-integer argument"
  | .divisionByZero => "division by zero"

/-- The precedence of an operator of an expression. -/
def exprPrecedence? (operator : String) : Option Nat :=
  match operator with
  | "|" => some 1
  | "&" => some 2
  | "=" => some 3
  | "==" => some 3
  | "!=" => some 3
  | "<" => some 3
  | "<=" => some 3
  | ">" => some 3
  | ">=" => some 3
  | "+" => some 4
  | "-" => some 4
  | "*" => some 5
  | "/" => some 5
  | "%" => some 5
  | ":" => some 6
  | _ => none

/-- Whether a value counts as false. -/
def isNull (value : ExprValue) : Bool :=
  value.isEmpty || Numeral.decimal? value == some 0

/-- How much of a text an expression matches at its front, or what its group matches there. -/
def matchValue (text pattern : String) : ExprValue :=
  match Regex.read? false (utf8 pattern) with
  | none => "0"
  | some regex =>
    let grouped := regex.any fun parts => parts.any fun part => match part with
      | .opens _ => true
      | _ => false
    match Regex.front regex true (utf8 text) with
    | some (rest, groups) =>
      if grouped then Text.lossy ((groups.lookup 1).getD [])
      else toString (text.utf8ByteSize - rest.length)
    | none => if grouped then "" else "0"

/-- The value of an operation. -/
def applyExpr (operator : String) (a b : ExprValue) : Except ExprFault ExprValue :=
  let numbers? := match Numeral.decimal? a, Numeral.decimal? b with
    | some a, some b => some (a, b)
    | _, _ => none
  let number (operation : Int → Int → Except ExprFault Int) : Except ExprFault ExprValue :=
    match numbers? with
    | some (a, b) => (operation a b).map toString
    | none => .error .notNumber
  let truth (onNumbers : Int → Int → Bool) (onTexts : String → String → Bool) :
      Except ExprFault ExprValue :=
    .ok (if match numbers? with
      | some (a, b) => onNumbers a b
      | none => onTexts a b
      then "1" else "0")
  match operator with
  | "|" => .ok (if isNull a then (if isNull b then "0" else b) else a)
  | "&" => .ok (if isNull a || isNull b then "0" else a)
  | "=" => truth (fun a b => a == b) fun a b => a == b
  | "==" => truth (fun a b => a == b) fun a b => a == b
  | "!=" => truth (fun a b => a != b) fun a b => a != b
  | "<" => truth (fun a b => a < b) fun a b => a < b
  | "<=" => truth (fun a b => a ≤ b) fun a b => a ≤ b
  | ">" => truth (fun a b => b < a) fun a b => b < a
  | ">=" => truth (fun a b => b ≤ a) fun a b => b ≤ a
  | "+" => number fun a b => .ok (a + b)
  | "-" => number fun a b => .ok (a - b)
  | "*" => number fun a b => .ok (a * b)
  | "/" => number fun a b => if b = 0 then .error .divisionByZero else .ok (a.tdiv b)
  | "%" => number fun a b => if b = 0 then .error .divisionByZero else .ok (a.tmod b)
  | _ => .ok (matchValue a b)

mutual

/-- Reads an operand. -/
def exprOperand : Nat → List String → Except ExprFault (ExprValue × List String)
  | 0, _ => .error (.malformed "syntax error")
  | steps + 1, words =>
    match words with
    | "(" :: rest => do
      match ← exprFrom steps 1 rest with
      | (value, ")" :: rest) => .ok (value, rest)
      | _ => .error (.malformed "syntax error: expecting ')'")
    | "length" :: text :: rest => .ok (toString text.length, rest)
    | "match" :: text :: pattern :: rest => .ok (matchValue text pattern, rest)
    | "substr" :: text :: first :: count :: rest =>
      match first.toNat?, count.toNat? with
      | some (first + 1), some count =>
        .ok (String.ofList ((text.toList.drop first).take count), rest)
      | _, _ => .ok ("", rest)
    | "index" :: text :: set :: rest =>
      .ok (toString (((text.toList.findIdx? fun c => set.toList.contains c).map (· + 1)).getD 0), rest)
    | word :: rest => .ok (word, rest)
    | [] => .error (.malformed "syntax error: missing argument")

/-- Reads an expression whose operators have at least the given precedence. -/
def exprFrom : Nat → Nat → List String → Except ExprFault (ExprValue × List String)
  | 0, _, _ => .error (.malformed "syntax error")
  | steps + 1, lowest, words => do
    let (value, rest) ← exprOperand steps words
    exprRest steps lowest value rest

/-- Reads on behind an operand. -/
def exprRest : Nat → Nat → ExprValue → List String → Except ExprFault (ExprValue × List String)
  | 0, _, _, _ => .error (.malformed "syntax error")
  | steps + 1, lowest, left, words =>
    match words with
    | [] => .ok (left, [])
    | operator :: rest =>
      match exprPrecedence? operator with
      | some precedence =>
        if precedence < lowest then .ok (left, words)
        else if rest.isEmpty then
          .error (.malformed ("syntax error: missing argument after '" ++ operator ++ "'"))
        else do
          let (right, rest) ← exprFrom steps (precedence + 1) rest
          exprRest steps lowest (← applyExpr operator left right) rest
      | none => .ok (left, words)

end

/-- Prints the value of an expression. -/
def expr (call : Invocation) : Action Exit :=
  if call.arguments.isEmpty then misused call 2 "missing operand"
  else match exprFrom (4 * call.arguments.length + 8) 1 call.arguments with
    | .error fault => refuse call 2 fault.message
    | .ok (_, word :: _) => refuse call 2 ("syntax error: unexpected argument '" ++ word ++ "'")
    | .ok (value, []) => do
      Action.say (value ++ "\n")
      .done (.status (if isNull value then 1 else 0))

end Polyglot.Host.Tool
