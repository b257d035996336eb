import Polyglot.Host.Shell.Program
import Polyglot.Host.Shell.State

/-!
# Commands that the shell carries out itself

A shell carries out some commands itself, because they concern its own state or are
used so often. Those of this module need no other command to be run.
-/

set_option autoImplicit false

namespace Polyglot.Host.Shell

open Polyglot.Text (Bytes utf8)

/-- The commands that a shell carries out itself. -/
def builtinNames : List String :=
  [":", "true", "false", "echo", "printf", "cd", "pwd", "exit", "return", "break", "continue",
   "read", "export", "unset", "set", "shift", "eval", "exec", "kill", "test", "[", "wait", "trap",
   "umask", "type", "command", "local", "readonly", ".", "hash", "alias", "times", "ulimit", "getopts"]

/-- Goes on with a status. -/
def State.onward (state : State) (status : Nat) : Action (State × Flow) :=
  .done (state.ended status, .onward)

/-- Complains and goes on with a status. -/
def State.refuse (state : State) (status : Nat) (text : String) : Action (State × Flow) := do
  state.complain text
  state.onward status

/-- Complains and ends the shell. -/
def State.giveUp (state : State) (text : String) : Action (State × Flow) := do
  state.complain text
  .quit (.status 2)

/-- Prints arguments, with escapes. -/
def echo (arguments : List String) : Action Unit := do
  let (silent, words) := match arguments with
    | "-n" :: rest => (true, rest)
    | words => (false, words)
  let (text, stop) := unescaped (utf8 (" ".intercalate words))
  Action.put (if silent || stop then text else text ++ [10])

/-- The wording of a fault of a format. -/
def formatComplaint : FormatFault → String
  | .notNumber argument => argument ++ ": expected numeric value"
  | .leftover argument => argument ++ ": not completely converted"
  | .unknown directive => directive ++ ": invalid directive"

/-- Prints arguments by a format. -/
def printf (state : State) : List String → Action (State × Flow)
  | [] => state.refuse 2 "printf: usage: printf format [arg ...]"
  | layout :: arguments => do
    let written := format (arguments.length + 1) (utf8 layout) (arguments.map utf8)
    written.faults.forM fun fault => state.complain ("printf: " ++ formatComplaint fault)
    Action.put written.output
    state.onward (if written.faults.isEmpty then 0
      else if written.faults.any fun fault => match fault with
        | .unknown _ => true
        | _ => false
      then 2 else 1)

/-- Changes the directory; a dash stands for the one before. -/
def changeDirectory (state : State) (arguments : List String) : Action (State × Flow) := do
  let tree ← Action.tree
  let target := match arguments with
    | [] => (state.value? "HOME").getD "/"
    | "-" :: _ => (state.value? "OLDPWD").getD state.directory
    | target :: _ => target
  match tree.lookup "/" (Path.join state.directory target) with
  | .ok (location, .directory _) => do
    let place := Tree.pathOf location
    if arguments.head? = some "-" then Action.say (place ++ "\n")
    ({ state with directory := place }.assignEach
      [("OLDPWD", state.directory), ("PWD", place)]).onward 0
  | _ => state.refuse 2 ("cd: can't cd to " ++ target)

/-- An argument of the form `name=value`, or a name without a value. -/
def splitEntry (argument : String) : String × Option String :=
  let name := argument.toList.takeWhile (· != '=')
  (String.ofList name,
    if name.length < argument.length then some (String.ofList (argument.toList.drop (name.length + 1)))
    else none)

/-- Assigns the values that entries carry. -/
def assignEntries (state : State) (entries : List (String × Option String)) : State :=
  state.assignEach (entries.filterMap fun entry => entry.2.map fun value => (entry.1, value))

/-- Sets options and arguments. -/
def setOptions (state : State) (arguments : List String) : Action (State × Flow) :=
  let isOption (argument : String) : Bool :=
    argument.length > 1 && (argument.toList.head? == some '-' || argument.toList.head? == some '+')
  let options := arguments.takeWhile fun argument => isOption argument && argument != "--"
  let operands := arguments.drop options.length
  let names := options.contains "-o"
  let known := "aefuxvnCbmhIVEo".toList
  let given := options.flatMap fun option =>
    (option.toList.drop 1).map fun letter => (letter, option.toList.head? == some '-')
  match given.find? fun entry => !known.contains entry.1 with
  | some (letter, _) => state.giveUp ("set: Illegal option -" ++ String.singleton letter)
  | none =>
    let name := operands.head?.getD ""
    let given := if names && name = "errexit" then ('e', true) :: given
      else if names && name = "nounset" then ('u', true) :: given
      else given
    if names && !(["errexit", "nounset", "noglob", "xtrace", "verbose", "allexport", "noclobber"].contains name) then
      state.giveUp ("set: Illegal option -o " ++ name)
    else
      let operands := if names then operands.drop 1 else operands
      let last? (letter : Char) (now : Bool) : Bool :=
        (given.filter fun entry => entry.1 == letter).getLast?.elim now (·.2)
      let state := { state with
        strict := last? 'e' state.strict
        cautious := last? 'u' state.cautious }
      match operands with
      | [] => state.onward 0
      | "--" :: rest => { state with arguments := rest }.onward 0
      | operands => { state with arguments := operands }.onward 0

/-- Sets commands aside for signals and the end of the shell. -/
def setTraps (state : State) (arguments : List String) : Action (State × Flow) :=
  let named (name : String) : Option String :=
    if name = "0" || name = "EXIT" then some "EXIT" else (signalNumber? name).map toString
  match arguments with
  | [] => do
    Action.say (String.join (state.traps.map fun entry =>
      "trap -- '" ++ entry.2 ++ "' " ++ ((entry.1.toNat?.bind fun n => Exit.signalNames[n - 1]?).getD entry.1)
        ++ "\n"))
    state.onward 0
  | text :: names =>
    match names.find? fun name => (named name).isNone with
    | some name => do
      Action.complain ("trap: " ++ name ++ ": bad trap")
      state.onward 1
    | none =>
      let names := names.filterMap named
      let kept := state.traps.filter fun entry => !names.contains entry.1
      { state with
        traps := if text = "-" then kept else names.map (fun name => (name, text)) ++ kept }.onward 0

/-- What a name means as a command, as a text that follows the name, and as a path. -/
def meaning? (state : State) (tree : Tree) (name : String) : Option (String × String) :=
  if (state.functions.lookup name).isSome then some (" is a shell function", name)
  else if closers.contains name || ["if", "while", "until", "for", "case", "\x7b", "!"].contains name then
    some (" is a shell keyword", name)
  else if builtinNames.contains name then some (" is a shell builtin", name)
  else if name.toList.contains '/' then
    if (tree.lookup state.directory name).isOk then some (" is " ++ name, name) else none
  else (findProgram? tree (searchDirectories state.bindings) name).map fun path =>
    (" is " ++ path, path)

/-- Tells what names mean. -/
def tellMeanings (state : State) (names : List String) : Action (State × Flow) := do
  let tree ← Action.tree
  let sound ← names.foldlM (fun sound name =>
    match meaning? state tree name with
    | some (text, _) => do
      Action.say (name ++ text ++ "\n")
      .done sound
    | none => do
      Action.say (name ++ ": not found\n")
      .done false) true
  state.onward (if sound then 0 else 127)

/-- Waits for commands that nobody waited for: for all of them, or for those with the given numbers. -/
def waitFor (state : State) (arguments : List String) : Action (State × Flow) := do
  match arguments.find? fun text => text.toNat?.isNone with
  | some text => state.giveUp ("wait: Illegal number: " ++ text)
  | none =>
    let numbers := if arguments.isEmpty then state.jobs.map (·.1) else arguments.filterMap String.toNat?
    let status ← numbers.foldlM (fun _ number =>
      match state.jobs.lookup number with
      | none => .done 127
      | some job => do
        let exit ← job.action.isolate
        match exit.obituary? with
        | some text => if arguments.isEmpty then .done () else Action.complain text
        | none => .done ()
        .done exit.code) 0
    let left := state.jobs.filter fun entry => !numbers.contains entry.1
    { state with jobs := left }.onward (if arguments.isEmpty then 0 else status)

/-- Carries out a command that needs no other command. -/
def carryOut (state : State) (name : String) (arguments : List String) : Action (State × Flow) := do
  let first := arguments.head?.getD ""
  let count := first.toNat?.getD 1
  match name with
  | "false" => state.onward 1
  | "echo" => do
    echo arguments
    state.onward 0
  | "printf" => printf state arguments
  | "pwd" => do
    Action.say (state.directory ++ "\n")
    state.onward 0
  | "cd" => changeDirectory state arguments
  | "return" => .done (if arguments.isEmpty then state else state.ended count, .back)
  | "break" => .done (state.ended 0, .leave count)
  | "continue" => .done (state.ended 0, .again count)
  | "read" =>
    if (Tool.splitOptions arguments).2.isEmpty then state.refuse 2 "read: arg count"
    else do .done (← readLine state arguments, .onward)
  | "export" =>
    let entries := (Tool.splitOptions arguments).2.map splitEntry
    let names := entries.map fun entry => entry.1
    State.onward { assignEntries state entries with exported := names ++ state.exported } 0
  | "readonly" =>
    let entries := (Tool.splitOptions arguments).2.map splitEntry
    let names := entries.map fun entry => entry.1
    State.onward { assignEntries state entries with frozen := names ++ state.frozen } 0
  | "local" =>
    match state.saved with
    | none => state.giveUp "local: not in a function"
    | some saved =>
      let entries := arguments.map splitEntry
      let old := entries.map fun entry => (entry.1, state.bindings.lookup entry.1)
      (assignEntries { state with saved := some (old ++ saved) } entries).onward 0
  | "unset" =>
    let (options, names) := Tool.splitOptions arguments
    match names.find? state.frozen.contains with
    | some name => state.giveUp ("unset: " ++ name ++ ": is read only")
    | none =>
      let kept {α : Type} (entries : List (String × α)) : List (String × α) :=
        entries.filter fun entry => !names.contains entry.1
      if (Tool.letters options).contains 'f' then
        State.onward { state with functions := kept state.functions } 0
      else State.onward { state with bindings := kept state.bindings } 0
  | "set" => setOptions state arguments
  | "shift" =>
    if state.arguments.length < count then state.giveUp "shift: can't shift that many"
    else State.onward { state with arguments := state.arguments.drop count } 0
  | "trap" => setTraps state arguments
  | "type" => tellMeanings state arguments
  | "wait" => waitFor state arguments
  | "umask" => do
    if arguments.isEmpty then Action.say "0022\n"
    state.onward 0
  | "test" => do
    let exit ← Tool.test (fun text => state.complain (name ++ ": " ++ text))
      ⟨name, arguments, state.directory, []⟩
    state.onward exit.code
  | "[" => do
    let exit ← Tool.test (fun text => state.complain (name ++ ": " ++ text))
      ⟨name, arguments, state.directory, []⟩
    state.onward exit.code
  | _ => state.onward 0

end Polyglot.Host.Shell
