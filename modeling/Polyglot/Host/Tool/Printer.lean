import Polyglot.Host.Format
import Polyglot.Host.Tool.Call

/-!
# Programs that print and wait

These programs read no input: they print their arguments, numbers or what they know
about their user, or let time pass.
-/

set_option autoImplicit false

namespace Polyglot.Host.Tool

open Polyglot.Text (Bytes utf8)

/-! ## Texts -/

/-- Prints its arguments with blanks between them. -/
def echo (call : Invocation) : Action Exit := do
  let isOption (argument : String) : Bool :=
    argument.length > 1 && argument.toList.head? == some '-' &&
      (argument.toList.drop 1).all fun c => c == 'n' || c == 'e' || c == 'E'
  let options := letters (call.arguments.takeWhile isOption)
  let words := call.arguments.dropWhile isOption
  let text := utf8 (" ".intercalate words)
  let (text, stop) := if options.contains 'e' then unescaped text else (text, false)
  Action.put (if options.contains 'n' || stop then text else text ++ [10])
  .done fine

/-- The wording of a fault as the program words it. -/
def formatComplaint : FormatFault → String
  | .notNumber argument => "'" ++ argument ++ "': expected a numeric value"
  | .leftover argument => "'" ++ argument ++ "': value not completely converted"
  | .unknown directive => directive ++ ": invalid conversion specification"

/-- Prints its arguments by a format. -/
def printf (call : Invocation) : Action Exit :=
  match call.arguments with
  | [] => misused call 1 "missing operand"
  | layout :: arguments => do
    let written := format (arguments.length + 1) (utf8 layout) (arguments.map utf8)
    Action.put written.output
    written.faults.forM fun fault => Action.complain (call.name ++ ": " ++ formatComplaint fault)
    .done (.status (if written.faults.isEmpty then 0 else 1))

/-! ## Numbers -/

/-- Counts from one number to another. -/
def seq (call : Invocation) : Action Exit := do
  let (separator, arguments) := match valueOption 's' call.arguments with
    | some (text, rest) => (text, rest)
    | none => ("\n", call.arguments)
  let (fills, arguments) := (arguments.contains "-w", arguments.filter (· != "-w"))
  match arguments.find? fun text => (Numeral.decimal? text).isNone with
  | some text => misused call 1 ("invalid floating point argument: '" ++ text ++ "'")
  | none =>
    match arguments.map fun text => (Numeral.decimal? text).getD 0 with
    | [] => misused call 1 "missing operand"
    | first :: others => do
      let (first, step, last) : Int × Int × Int := match others with
        | [] => (1, 1, first)
        | [last] => (first, 1, last)
        | step :: last :: _ => (first, step, last)
      let count := if step = 0 then 0 else ((last - first) / step + 1).toNat
      let numbers := (List.range count).map fun i => toString (first + step * (i : Nat))
      let width := (numbers.map String.length).foldl max 0
      let filled (number : String) : String :=
        if fills then String.ofList (List.replicate (width - number.length) '0') ++ number else number
      if numbers.isEmpty then .done fine
      else do
        Action.say (separator.intercalate (numbers.map filled) ++ "\n")
        .done fine

/-! ## Time -/

/-- The milliseconds of a duration in seconds with decimals, or in larger units. -/
def durationMs? (text : String) : Option Nat :=
  let chars := text.toList
  let whole := chars.takeWhile Char.isDigit
  let (places, rest) := match chars.drop whole.length with
    | '.' :: rest => (rest.takeWhile Char.isDigit, rest.dropWhile Char.isDigit)
    | rest => ([], rest)
  let factor? := match rest with
    | [] => some 1
    | ['s'] => some 1
    | ['m'] => some 60
    | ['h'] => some 3600
    | ['d'] => some 86400
    | _ => none
  let thousandths := (places ++ List.replicate 3 '0').take 3
  if whole.isEmpty && places.isEmpty then none
  else factor?.map fun factor =>
    ((String.ofList (whole ++ thousandths)).toNat?.getD 0) * factor

/-- Lets time pass. -/
def sleep (call : Invocation) : Action Exit :=
  if call.arguments.isEmpty then misused call 1 "missing operand"
  else match call.arguments.find? fun text => (durationMs? text).isNone with
    | some text => misused call 1 ("invalid time interval '" ++ text ++ "'")
    | none => .sleep ((call.arguments.map fun text => (durationMs? text).getD 0).foldl (· + ·) 0) (.done fine)

/-! ## The user and the machine -/

/-- Prints a line. -/
def tell (line : String) (_ : Invocation) : Action Exit := do
  Action.say (line ++ "\n")
  .done fine

/-- Prints who runs the program. -/
def identity (call : Invocation) : Action Exit :=
  let flags := letters call.arguments
  if flags.contains 'n' then tell "root" call
  else if flags.isEmpty then tell "uid=0(root) gid=0(root) groups=0(root)" call
  else tell "0" call

/-- Prints the values of variables. -/
def printenv (call : Invocation) : Action Exit := do
  if call.arguments.isEmpty then do
    Action.say (String.join (call.bindings.map fun entry => entry.1 ++ "=" ++ entry.2 ++ "\n"))
    .done fine
  else do
    let values := call.arguments.map fun name => call.bindings.lookup name
    Action.say (String.join ((values.filterMap id).map (· ++ "\n")))
    .done (.status (if values.all Option.isSome then 0 else 1))

end Polyglot.Host.Tool
