import Polyglot.Host.Numeral
import Polyglot.Host.Tool.Call

/-!
# Conditions

A condition is about texts, whole numbers or files. Conditions are negated, put in
parentheses, and connected so that both or one of them must hold. What a word means
depends on the number of words: a word that stands alone is a text, even if it looks
like an operator.
-/

set_option autoImplicit false

namespace Polyglot.Host.Tool

open Polyglot.Text (Bytes)

/-- Something that is wrong with a condition. -/
inductive ConditionFault where
  /-- An operand is missing behind a word. -/
  | argumentExpected (word : String)
  /-- A word does not fit. -/
  | unexpected (word : String)
  /-- A word should be a number. -/
  | notNumber (word : String)
  /-- The closing parenthesis is missing. -/
  | closingExpected
  deriving DecidableEq, Repr

/-- The wording of a fault. -/
def ConditionFault.message : ConditionFault → String
  | .argumentExpected word => word ++ ": argument expected"
  | .unexpected word => word ++ ": unexpected operator"
  | .notNumber word => "Illegal number: " ++ word
  | .closingExpected => "closing paren expected"

/-- Whether a word is an operator for one operand. -/
def isUnary (word : String) : Bool :=
  ["-n", "-z", "-e", "-f", "-d", "-s", "-x", "-r", "-w", "-L", "-h", "-t", "-b", "-c", "-p", "-S",
   "-u", "-g", "-k", "-O", "-G"].contains word

/-- Whether a word is an operator for two operands. -/
def isBinary (word : String) : Bool :=
  ["=", "==", "!=", "<", ">", "-eq", "-ne", "-lt", "-le", "-gt", "-ge", "-nt", "-ot", "-ef"].contains word

/-- Whether a condition with one operand holds. -/
def holdsUnary (tree : Tree) (directory operator operand : String) : Bool :=
  let node? : Option Node := (tree.lookup directory operand).toOption.map (·.2)
  match operator, node? with
  | "-n", _ => !operand.isEmpty
  | "-z", _ => operand.isEmpty
  | "-f", some (.file _ _) => true
  | "-f", some (.program _) => true
  | "-f", _ => false
  | "-d", some node => node.isDirectory
  | "-s", some (.file contents _) => !contents.isEmpty
  | "-s", some node => node.isDirectory
  | "-x", some node => node.isExecutable || node.isDirectory
  | "-c", some (.device _) => true
  | "-e", some _ => true
  | "-r", some _ => true
  | "-w", some _ => true
  | "-O", some _ => true
  | "-G", some _ => true
  | operator, _ =>
    if operator = "-L" ∨ operator = "-h" then
      match tree.locate directory operand false with
      | .ok (_, some (.link _)) => true
      | _ => false
    else false

/-- The number that a word spells. -/
def numberWord (word : String) : Except ConditionFault Int :=
  match Numeral.decimal? word with
  | some number => .ok number
  | none => .error (.notNumber word)

/-- Whether a condition with two operands holds. -/
def holdsBinary (left operator right : String) : Except ConditionFault Bool := do
  match operator with
  | "=" => .ok (left == right)
  | "==" => .ok (left == right)
  | "!=" => .ok (left != right)
  | "<" => .ok (left < right)
  | ">" => .ok (right < left)
  | "-eq" => .ok ((← numberWord left) == (← numberWord right))
  | "-ne" => .ok ((← numberWord left) != (← numberWord right))
  | "-lt" => .ok (decide ((← numberWord left) < (← numberWord right)))
  | "-le" => .ok (decide ((← numberWord left) ≤ (← numberWord right)))
  | "-gt" => .ok (decide ((← numberWord right) < (← numberWord left)))
  | "-ge" => .ok (decide ((← numberWord right) ≤ (← numberWord left)))
  | _ => .ok false

mutual

/-- Reads a condition of which one part must hold, and answers it with the words that are left. -/
def holdsEither (tree : Tree) (directory : String) :
    Nat → List String → Except ConditionFault (Bool × List String)
  | 0, words => .ok (false, words)
  | steps + 1, words => do
    let (left, rest) ← holdsBoth tree directory steps words
    match rest with
    | "-o" :: rest => do
      let (right, rest) ← holdsEither tree directory steps rest
      .ok (left || right, rest)
    | rest => .ok (left, rest)

/-- Reads a condition of which both parts must hold. -/
def holdsBoth (tree : Tree) (directory : String) :
    Nat → List String → Except ConditionFault (Bool × List String)
  | 0, words => .ok (false, words)
  | steps + 1, words => do
    let (left, rest) ← holdsNot tree directory steps words
    match rest with
    | "-a" :: rest => do
      let (right, rest) ← holdsBoth tree directory steps rest
      .ok (left && right, rest)
    | rest => .ok (left, rest)

/-- Reads a condition that may be negated. -/
def holdsNot (tree : Tree) (directory : String) :
    Nat → List String → Except ConditionFault (Bool × List String)
  | 0, words => .ok (false, words)
  | steps + 1, words =>
    match words with
    | "!" :: next :: rest => do
      let (holds, rest) ← holdsNot tree directory steps (next :: rest)
      .ok (!holds, rest)
    | words => holdsPrimary tree directory steps words

/-- Reads a condition without connectives. -/
def holdsPrimary (tree : Tree) (directory : String) :
    Nat → List String → Except ConditionFault (Bool × List String)
  | 0, words => .ok (false, words)
  | steps + 1, words =>
    match words with
    | [] => .ok (false, [])
    | [word] => .ok (!word.isEmpty, [])
    | left :: operator :: rest => do
      match isBinary operator, rest with
      | true, right :: rest => .ok (← holdsBinary left operator right, rest)
      | true, [] =>
        if isUnary left then .ok (holdsUnary tree directory left operator, [])
        else .error (.argumentExpected operator)
      | false, rest =>
        if left = "(" then
          let (holds, rest) ← holdsEither tree directory steps (operator :: rest)
          match rest with
          | ")" :: rest => .ok (holds, rest)
          | _ => .error .closingExpected
        else if isUnary left then .ok (holdsUnary tree directory left operator, rest)
        else .ok (!left.isEmpty, operator :: rest)

end

/-- Whether the condition that some words spell holds. -/
def holds (tree : Tree) (directory : String) (words : List String) : Except ConditionFault Bool := do
  let read (words : List String) : Except ConditionFault Bool := do
    match ← holdsEither tree directory (4 * words.length + 8) words with
    | (holds, []) => .ok holds
    | (_, rest) => .error (.unexpected ((words[words.length - rest.length - 1]?).getD ""))
  match words with
  | ["!", word] => .ok word.isEmpty
  | ["(", word, ")"] => .ok (!word.isEmpty)
  | ["!", left, operator, right] =>
    if isBinary operator then .ok (!(← holdsBinary left operator right)) else read words
  | words => read words

/-- Tests a condition; under the name of a bracket the closing one is required. -/
def test (complain : String → Action Unit) (call : Invocation) : Action Exit :=
  let isBracket := lastIsBracket call.name
  if isBracket && call.arguments.getLast? != some "]" then do
    complain "missing ]"
    .done (.status 2)
  else do
    let words := if isBracket then call.arguments.dropLast else call.arguments
    let tree ← Action.tree
    match holds tree call.directory words with
    | .ok true => .done fine
    | .ok false => .done (.status 1)
    | .error fault =>
      complain fault.message
      .done (.status 2)
where
  /-- Whether a name ends in a bracket. -/
  lastIsBracket (name : String) : Bool := name.toList.getLast? == some '['

end Polyglot.Host.Tool
