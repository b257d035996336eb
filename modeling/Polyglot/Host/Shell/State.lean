import Polyglot.Host.Shell.Command
import Polyglot.Host.Tool.Call

/-!
# The state of a shell

A shell keeps variables, arguments, functions, a directory, the status of the last
command, where its streams go, and the commands that it has started without waiting for
them. This module holds what can be done with that state without running commands:
setting variables, cutting texts into fields, matching patterns and reading lines.
-/

set_option autoImplicit false

namespace Polyglot.Host.Shell

open Polyglot.Text (Bytes utf8)

/-- Where a stream of a shell goes. -/
inductive Sink where
  /-- To a stream of the process. -/
  | stream (target : Stream)
  /-- To the end of a file. -/
  | file (path : String)
  /-- Nowhere. -/
  | nowhere
  deriving DecidableEq, Repr

/-- A command that nobody waits for. -/
structure Job where
  /-- What is left for it to do. -/
  action : Action Exit
  /-- Whether it holds none of the streams of the shell. -/
  detached : Bool

/-- What a shell keeps between commands. -/
structure State where
  /-- The values of the variables. -/
  bindings : List (String × String)
  /-- The variables that programs see. -/
  exported : List String
  /-- The arguments. -/
  arguments : List String
  /-- The name under which the shell was started. -/
  name : String
  /-- The directory. -/
  directory : String
  /-- The status of the last command. -/
  status : Nat
  /-- The functions. -/
  functions : List (String × Command)
  /-- The line of the current command. -/
  line : Nat
  /-- Whether a failing command ends the shell. -/
  strict : Bool
  /-- Where the standard output goes. -/
  out : Sink
  /-- Where the standard error goes. -/
  err : Sink
  /-- Where further streams go, by their numbers. -/
  others : List (Nat × Sink)
  /-- Whether a variable that was never set ends the shell. -/
  cautious : Bool
  /-- The commands that run when a signal comes or the shell ends, by the name of the signal. -/
  traps : List (String × String)
  /-- The variables that keep their values. -/
  frozen : List String
  /-- The variables of a function with their values outside it; nothing outside functions. -/
  saved : Option (List (String × Option String))
  /-- The commands that nobody waits for, by their numbers. -/
  jobs : List (Nat × Job)
  /-- The number of the latest of these commands; zero if there was none. -/
  latestJob : Nat

/-- Whether the commands around a command go on. -/
inductive Flow where
  /-- They go on. -/
  | onward
  /-- The given number of loops ends. -/
  | leave (loops : Nat)
  /-- The given number of loops ends but the last, which goes on with its next round. -/
  | again (loops : Nat)
  /-- The function ends. -/
  | back
  deriving DecidableEq, Repr

/-- The number of the process. -/
def processNumber : Nat := 4711

/-- The value of a variable. -/
def State.value? (state : State) (name : String) : Option String :=
  match name with
  | "?" => some (toString state.status)
  | "$" => some (toString processNumber)
  | "#" => some (toString state.arguments.length)
  | "0" => some state.name
  | "*" =>
    let separator := match state.bindings.lookup "IFS" with
      | some text => (text.toList.head?.map String.singleton).getD ""
      | none => " "
    some (separator.intercalate state.arguments)
  | "@" => some (" ".intercalate state.arguments)
  | "!" => some (if state.latestJob = 0 then "" else toString state.latestJob)
  | "-" => some ""
  | name =>
    match name.toNat? with
    | some n => state.arguments[n - 1]?
    | none => state.bindings.lookup name

/-- The shell with a variable set. -/
def State.assign (state : State) (name value : String) : State :=
  { state with bindings := (name, value) :: state.bindings.filter fun entry => entry.1 != name }

/-- The shell with variables set, in order. -/
def State.assignEach (state : State) (entries : List (String × String)) : State :=
  entries.foldl (fun state entry => state.assign entry.1 entry.2) state

/-- The shell with a variable that has the given value or none. -/
def State.restore (state : State) (entry : String × Option String) : State :=
  match entry.2 with
  | some value => state.assign entry.1 value
  | none => { state with bindings := state.bindings.filter fun other => other.1 != entry.1 }

/-- The variables that programs see, with their values. -/
def State.environment (state : State) : List (String × String) :=
  state.bindings.filter fun entry => state.exported.contains entry.1

/-- The shell with the given status. -/
def State.ended (state : State) (status : Nat) : State :=
  { state with status := status }

/-- Writes a complaint of the shell to the standard error. -/
def State.complain (state : State) (text : String) : Action Unit :=
  Action.complain (state.name ++ ": " ++ toString state.line ++ ": " ++ text)

/-- Writes bytes to where a stream goes. -/
def Sink.put (sink : Sink) (bytes : Bytes) : Action Unit :=
  match sink with
  | .stream target => .write target bytes (.done ())
  | .file path => do
    let _ ← Action.change fun tree => tree.write "/" path bytes true
    .done ()
  | .nowhere => .done ()

/-- The action with its streams going to the given places. -/
def diverted {α : Type} (out err : Sink) (action : Action α) : Action α :=
  if out = .stream .out ∧ err = .stream .err then action
  else action.divert fun stream bytes => (if stream = .out then out else err).put bytes

/-! ## Words -/

/-- The fields of a word so far: the finished ones in reverse, and the one that is open. -/
structure Fields where
  /-- The finished fields. -/
  finished : List (List Mark)
  /-- The open field. -/
  current : Option (List Mark)

/-- Appends characters to the open field. -/
def Fields.add (fields : Fields) (quoted : Bool) (text : List Char) : Fields :=
  { fields with current := some (fields.current.getD [] ++ text.map fun c => ⟨c, quoted⟩) }

/-- Finishes the open field. -/
def Fields.close (fields : Fields) : Fields :=
  match fields.current with
  | some field => ⟨field :: fields.finished, none⟩
  | none => fields

/-- Appends the result of a replacement, cut at separators unless it was in quotes. -/
def Fields.addResult (separators : List Char) (quoted : Bool) (text : List Char) (fields : Fields) :
    Fields :=
  if quoted then fields.add true text
  else text.foldl (fun fields c =>
    if separators.contains c then fields.close else fields.add false [c]) fields

/-- Appends all arguments, each as a field of its own. -/
def Fields.addAll (fields : Fields) : List String → Fields
  | [] => fields
  | [only] => fields.add true only.toList
  | first :: rest => (fields.add true first.toList).close.addAll rest

/-- The separators of fields. -/
def State.separators (state : State) : List Char :=
  ((state.value? "IFS").getD " \t\n").toList

/-- The text without the line breaks at its end. -/
def withoutBreaks (text : List Char) : List Char :=
  (text.reverse.dropWhile (· == '\n')).reverse

/-- The text without the shortest or longest front or back that a pattern matches. -/
def trimPattern (operator : String) (pattern : List Mark) (text : List Char) : List Char :=
  let positions := List.range (text.length + 1)
  let fits (part : List Char) : Bool := Glob.covers pattern part
  match operator with
  | "#" => match positions.find? fun i => fits (text.take i) with
    | some i => text.drop i
    | none => text
  | "##" => match positions.reverse.find? fun i => fits (text.take i) with
    | some i => text.drop i
    | none => text
  | "%" => match positions.reverse.find? fun i => fits (text.drop i) with
    | some i => text.take i
    | none => text
  | _ => match positions.find? fun i => fits (text.drop i) with
    | some i => text.take i
    | none => text

/-! ## Reading lines into variables -/

/-- Cuts a line into at most the given number of fields; the last one takes the rest. -/
def cutFields (separators : List Char) : Nat → List Char → List (List Char)
  | 0, _ => []
  | 1, chars =>
    let isBlank (c : Char) : Bool := separators.contains c && (c == ' ' || c == '\t' || c == '\n')
    [((chars.dropWhile isBlank).reverse.dropWhile isBlank).reverse]
  | count + 2, chars =>
    let isSeparator (c : Char) : Bool := separators.contains c
    let chars := chars.dropWhile isSeparator
    let field := chars.takeWhile fun c => !isSeparator c
    field :: cutFields separators (count + 1) (chars.drop field.length)

/-- A line without its escapes. -/
def unescapeLine : List Char → List Char
  | '\\' :: c :: rest => c :: unescapeLine rest
  | c :: rest => c :: unescapeLine rest
  | [] => []

/-- Assigns fields to names. -/
def State.assignAll (state : State) : List String → List (List Char) → State
  | [], _ => state
  | name :: names, fields =>
    (state.assign name (String.ofList (fields.head?.getD []))).assignAll names (fields.drop 1)

/-- Reads a line from the standard input into variables. -/
def readLine (state : State) (arguments : List String) : Action State := do
  let (options, names) := Tool.splitOptions arguments
  let raw := (Tool.letters options).contains 'r'
  let bytes ← Action.input .line
  let complete := bytes.getLast? = some 10
  let line := (Text.lossy (Tool.bare bytes)).toList
  let line := if raw then line else unescapeLine line
  let names := if names.isEmpty then ["REPLY"] else names
  .done ((state.assignAll names (cutFields state.separators names.length line)).ended
    (if complete then 0 else 1))

/-- The number of a signal by its name or number. -/
def signalNumber? (text : String) : Option Nat :=
  match text.toNat? with
  | some n => some n
  | none =>
    let chars := text.toList
    let name := if chars.take 3 = ['S', 'I', 'G'] then String.ofList (chars.drop 3) else text
    (Exit.signalNames.idxOf? name).map (· + 1)

/-- Whether a signal ends a process that has made no arrangement for it. -/
def isFatal (signal : Nat) : Bool :=
  signal != 0 && signal != 17 && signal != 18 && signal != 23 && signal != 28

/-! ## The life of a shell -/

/-- The exit of a shell in its current state. -/
def State.exit (state : State) : Exit :=
  .status state.status

/-- The state of a shell that was started as a program. -/
def State.fresh (call : Invocation) (name : String) (arguments : List String) (strict : Bool) : State where
  bindings := ("PWD", call.directory) :: call.bindings.filter (·.1 != "PWD") ++ [("IFS", " \t\n")]
  exported := "PWD" :: call.bindings.map (·.1)
  arguments := arguments
  name := name
  directory := call.directory
  status := 0
  functions := []
  line := 1
  strict := strict
  out := .stream .out
  err := .stream .err
  others := []
  cautious := false
  traps := []
  frozen := []
  saved := none
  jobs := []
  latestJob := 0

/-- A flow behind a loop. -/
def Flow.outward : Flow → Flow
  | .leave loops => if loops ≤ 1 then .onward else .leave (loops - 1)
  | .again loops => if loops ≤ 1 then .onward else .again (loops - 1)
  | flow => flow

/-- Whether a loop goes on with its next round. -/
def Flow.repeats : Flow → Bool
  | .onward => true
  | .again 1 => true
  | _ => false

end Polyglot.Host.Shell
