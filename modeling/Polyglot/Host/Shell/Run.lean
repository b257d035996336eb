import Polyglot.Host.Shell.Arithmetic
import Polyglot.Host.Shell.Builtin

/-!
# Running commands

Running a command yields an action of the process, the shell as it is then, and whether
the commands around it go on.

Scripts are run by the shell itself, so starting programs and running commands depend
on each other; a bound on the number of steps keeps both finite.
-/

set_option autoImplicit false

namespace Polyglot.Host.Shell

open Polyglot.Text (Bytes utf8)

/-- Lets the commands go on that nobody waited for, as far as they hold a stream of the shell. -/
def State.settleJobs (state : State) : Action Unit :=
  state.jobs.reverse.forM fun entry => do
    if entry.2.detached then .done ()
    else
      let _ ← entry.2.action.isolate
      .done ()

/-- Whether a command keeps both output streams to itself. -/
def Command.isDetached : Command → Bool
  | .simple _ _ _ redirects => covers redirects
  | .group _ _ redirects => covers redirects
  | _ => false
where
  /-- Whether redirections concern both output streams. -/
  covers (redirects : List Redirect) : Bool :=
    redirects.any (·.stream == 1) && redirects.any (·.stream == 2)

/-- The status that a program has when another one that it should start cannot be started. -/
def launchStatus : OsError → Nat
  | .notFound => 127
  | _ => 126

mutual

/-- Replaces the parts of a word and cuts the result into fields. -/
def expandParts : Nat → State → Fields → Word → Action (State × Fields)
  | 0, state, fields, _ => .done (state, fields)
  | _ + 1, state, fields, [] => .done (state, fields)
  | steps + 1, state, fields, part :: rest => do
    match part with
    | .plain text =>
      let text := match text, fields.current, fields.finished with
        | '~' :: more, none, [] =>
          if more.isEmpty || more.head? = some '/' then
            ((state.value? "HOME").getD "~").toList ++ more
          else text
        | _, _, _ => text
      expandParts steps state (fields.add false text) rest
    | .quoted text => expandParts steps state (fields.add true text) rest
    | .arithmetic source inQuotes =>
      let (state, text) ← expandText steps state source
      match Arithmetic.evaluate state.value? text.toList with
      | .ok (result, assignments) =>
        let state := state.assignEach assignments.reverse
        expandParts steps state
          (fields.addResult state.separators inQuotes (toString result).toList) rest
      | .error fault =>
        state.complain (fault.message text)
        .quit (.status 2)
    | .output source inQuotes =>
      let (exit, bytes) ← Action.capture (runSeparately steps state (Script.ofText source))
      let text := withoutBreaks ((Text.lossy (bytes.filter (· != 0))).toList)
      expandParts steps (state.ended exit.code)
        (fields.addResult state.separators inQuotes text) rest
    | .value name operator word inQuotes =>
      let held := state.value? name
      let given := match held with
        | some value => !(operator.toList.head? = some ':' && value.isEmpty)
        | none => false
      let operator := if operator.toList.head? = some ':' then String.ofList (operator.toList.drop 1)
        else operator
      let go (state : State) (text : String) : Action (State × Fields) :=
        expandParts steps state (fields.addResult state.separators inQuotes text.toList) rest
      match operator with
      | "" =>
        if name = "@" then
          let fields := if inQuotes then fields.addAll state.arguments
            else state.arguments.foldl (fun fields argument =>
              (fields.addResult state.separators false argument.toList).close) fields
          expandParts steps state fields rest
        else if state.cautious && held.isNone then
          state.complain (name ++ ": parameter not set")
          .quit (.status 2)
        else go state (held.getD "")
      | "-" =>
        if given then go state (held.getD "")
        else
          let (state, text) ← expandText steps state word
          go state text
      | "=" =>
        if given then go state (held.getD "")
        else
          let (state, text) ← expandText steps state word
          go (state.assign name text) text
      | "+" =>
        if given then
          let (state, text) ← expandText steps state word
          go state text
        else go state ""
      | "?" =>
        if given then go state (held.getD "")
        else
          let (state, text) ← expandText steps state word
          state.complain (name ++ ": " ++ (if text.isEmpty then "parameter not set" else text))
          .quit (.status 2)
      | "#" =>
        if word.isEmpty then go state (toString (held.getD "").length)
        else
          let (state, pattern) ← expandPattern steps state word
          go state (String.ofList (trimPattern "#" pattern (held.getD "").toList))
      | operator =>
        let (state, pattern) ← expandPattern steps state word
        go state (String.ofList (trimPattern operator pattern (held.getD "").toList))

/-- Replaces the parts of a text as if it stood in double quotes. -/
def expandText : Nat → State → List Char → Action (State × String)
  | 0, state, text => .done (state, String.ofList text)
  | steps + 1, state, text => do
    match readDouble (text.length + 2) [] (text ++ ['"']) with
    | .ok (parts, _) =>
      let (state, fields) ← expandParts steps state ⟨[], none⟩ parts
      .done (state, Glob.textOf (fields.current.getD []))
    | .error _ => .done (state, String.ofList text)

/-- Replaces the parts of a pattern. -/
def expandPattern : Nat → State → List Char → Action (State × List Mark)
  | 0, state, _ => .done (state, [])
  | steps + 1, state, text => do
    match readWord (text.length + 2) [] text with
    | .ok (parts, _) =>
      let (state, fields) ← expandParts steps { state with bindings := ("IFS", "") :: state.bindings }
        ⟨[], none⟩ parts
      .done ({ state with bindings := state.bindings.drop 1 }, fields.current.getD [])
    | .error _ => .done (state, [])

/-- The single text that a word stands for where it is not cut. -/
def expandWhole : Nat → State → Word → Action (State × String)
  | 0, state, _ => .done (state, "")
  | steps + 1, state, word => do
    let (state, fields) ← expandParts steps state ⟨[], none⟩ word
    let all := (fields.close).finished.reverse
    .done (state, " ".intercalate (all.map Glob.textOf))

/-- The texts that a list of words stands for. -/
def expandWords : Nat → State → List Word → Action (State × List String)
  | 0, state, _ => .done (state, [])
  | _ + 1, state, [] => .done (state, [])
  | steps + 1, state, word :: rest => do
    let (state, fields) ← expandParts steps state ⟨[], none⟩ word
    let tree ← Action.tree
    let texts := (fields.close).finished.reverse.flatMap (Glob.expand tree state.directory)
    let (state, others) ← expandWords steps state rest
    .done (state, texts ++ others)

/-- Carries out redirections: the shell with its new streams, and the new input; nothing if one fails. -/
def redirect : Nat → State → Option Bytes → List Redirect → Action (Option (State × Option Bytes))
  | 0, _, _, _ => .done none
  | _ + 1, state, input, [] => .done (some (state, input))
  | steps + 1, state, input, change :: rest => do
    let (state, target) ← expandWhole steps state change.target
    let path := Path.join state.directory target
    let withSink (sink : Sink) : State :=
      if change.stream = 2 then { state with err := sink }
      else if change.stream = 1 then { state with out := sink }
      else { state with others := (change.stream, sink) :: state.others }
    match change.operator with
    | "<" =>
      let tree ← Action.tree
      match tree.read state.directory target with
      | .ok bytes => redirect steps state (some bytes) rest
      | .error reason =>
        state.complain ("cannot open " ++ target ++ ": " ++
          (if reason = .notFound then "No such file" else reason.words))
        .done none
    | "<<" => redirect steps state (some (utf8 target)) rest
    | "<&" => redirect steps state input rest
    | ">&" =>
      let sink? := match target with
        | "1" => some state.out
        | "2" => some state.err
        | "-" => some .nowhere
        | target => target.toNat?.bind fun number => state.others.lookup number
      match sink? with
      | some sink => redirect steps (withSink sink) input rest
      | none =>
        state.complain (target ++ ": Bad file descriptor")
        .done none
    | operator =>
      let atEnd := operator = ">>"
      match ← Action.change fun tree => tree.write state.directory target [] atEnd with
      | none => redirect steps (withSink (.file path)) input rest
      | some reason =>
        state.complain ("cannot create " ++ target ++ ": " ++
          (if reason = .notFound then "Directory nonexistent" else reason.words))
        .done none

/-- Runs a script in a process of its own. -/
def runSeparately : Nat → State → Script → Action Exit
  | 0, state, _ => .done state.exit
  | steps + 1, state, script => do
    Action.isolate (do
      let state ← runAll steps { state with traps := [], jobs := [] } script.commands
      match script.mistake with
      | none => leave steps state state.exit
      | some (line, complaint) =>
        ({ state with line := line } : State).complain ("Syntax error: " ++ complaint)
        .done (.status 2))

/-- Ends the shell, after the commands that were set aside for its end. -/
def leave : Nat → State → Exit → Action Exit
  | 0, _, exit => .quit exit
  | steps + 1, state, exit => do
    match state.traps.lookup "EXIT" with
    | some text => do
      let after ← runAll steps { state with traps := [] } (Script.ofText text.toList).commands
      after.settleJobs
      .quit exit
    | none => do
      state.settleJobs
      .quit exit

/-- Runs the commands of a script one after the other. -/
def runAll : Nat → State → List Command → Action State
  | 0, state, _ => .done state
  | _ + 1, state, [] => .done state
  | steps + 1, state, command :: rest => do
    let (state, flow) ← run steps state command
    if flow = .onward then runAll steps state rest else .done state

/-- Runs a command in a process of its own. -/
def runApart : Nat → State → Command → Action Exit
  | 0, state, _ => .done state.exit
  | steps + 1, state, command =>
    Action.isolate (do
      let (state, _) ← run steps { state with traps := [], jobs := [] } command
      state.settleJobs
      .done state.exit)

/-- Starts a program in place of nothing: the action of the program, or why it cannot be started. -/
def start : Nat → Tree → Invocation → String → Except OsError (Action Exit)
  | 0, _, _, _ => .error .tooManyLinks
  | steps + 1, tree, call, path => do
    match ← startingOf tree call.directory path with
    | .program name =>
      if name = "sh" || name = "dash" || name = "bash" then .ok (runShell steps call)
      else if name = "env" then .ok (runEnvironment steps call)
      else if name = "timeout" then .ok (runTimeout steps call)
      else if name = "nohup" || name = "setsid" then .ok (runOther steps call call.arguments call.bindings)
      else match Tool.byName? name with
        | some tool => .ok (tool call)
        | none => .error .badFormat
    | .script interpreter argument =>
      start steps tree { call with
        name := interpreter
        arguments := argument.toList ++ path :: call.arguments } interpreter
    | .unknown _ => .error .badFormat

/-- Runs a shell as a program. -/
def runShell : Nat → Invocation → Action Exit
  | 0, _ => .done (.status 2)
  | steps + 1, call => do
    let (options, operands) := Tool.splitOptions call.arguments
    let flags := Tool.letters options
    let failWith (text : String) : Action Exit := do
      Action.complain (call.name ++ ": 0: " ++ text)
      .done (.status 2)
    if flags.contains '-' then failWith "Illegal option --"
    else
      let strict := flags.contains 'e'
      if flags.contains 'c' then
        match operands with
        | [] => failWith "-c requires an argument"
        | source :: rest =>
          runSeparately steps (.fresh call (rest.head?.getD call.name) (rest.drop 1) strict)
            (Script.ofText source.toList)
      else match operands with
        | [] =>
          let bytes ← Tool.wholeInput
          runSeparately steps (.fresh call call.name [] strict)
            (Script.ofText (Text.lossy bytes).toList)
        | path :: rest =>
          let tree ← Action.tree
          match tree.read call.directory path with
          | .ok bytes =>
            runSeparately steps (.fresh call path rest strict)
              (Script.ofText (Text.lossy bytes).toList)
          | .error reason =>
            failWith ("cannot open " ++ path ++ ": " ++
              (if reason = .notFound then "No such file" else reason.words))

/-- Runs a program with changed variables, or prints the variables. -/
def runEnvironment : Nat → Invocation → Action Exit
  | 0, _ => .done (.status 2)
  | steps + 1, call => do
    let (options, arguments) := Tool.splitOptions call.arguments
    let isAssignment (argument : String) : Bool := argument.toList.contains '='
    let changes := (arguments.takeWhile isAssignment).map splitEntry
    let bindings := changes.foldl (fun bindings change =>
      (change.1, change.2.getD "") :: bindings.filter fun entry => entry.1 != change.1)
      (if (Tool.letters options).contains 'i' then [] else call.bindings)
    match arguments.dropWhile isAssignment with
    | [] =>
      Action.say (String.join (bindings.map fun entry => entry.1 ++ "=" ++ entry.2 ++ "\n"))
      .done (.status 0)
    | words => runOther steps call words bindings

/-- Runs a program that is given up after a time. -/
def runTimeout : Nat → Invocation → Action Exit
  | 0, _ => .done (.status 2)
  | steps + 1, call =>
    match (Tool.splitOptions call.arguments).2 with
    | duration :: program :: arguments =>
      match Tool.durationMs? duration with
      | some limit => (runOther steps call (program :: arguments) call.bindings).within (.status 124) limit
      | none => Tool.misused call 125 ("invalid time interval '" ++ duration ++ "'")
    | _ => Tool.misused call 125 "missing operand"

/-- Runs the program that another one was told to start. -/
def runOther : Nat → Invocation → List String → List (String × String) → Action Exit
  | 0, _, _, _ => .done (.status 2)
  | _ + 1, call, [], _ => Tool.misused call 125 "missing operand"
  | steps + 1, call, program :: arguments, bindings => do
    let tree ← Action.tree
    let path? := if program.toList.contains '/' then some program
      else findProgram? tree (searchDirectories bindings) program
    let started := match path? with
      | some path => start steps tree ⟨program, arguments, call.directory, bindings⟩ path
      | none => .error .notFound
    match started with
    | .ok action => action
    | .error reason =>
      Tool.refuse call (launchStatus reason)
        ((if call.name = "env" then "'" else "failed to run command '") ++ program ++ "': " ++ reason.words)

/-- Runs a program that is not part of the shell. -/
def runProgram : Nat → State → String → List String → Action Exit
  | 0, _, _, _ => .done (.status 127)
  | steps + 1, state, name, arguments => do
    let tree ← Action.tree
    let path? := if name.toList.contains '/' then some name
      else findProgram? tree (searchDirectories state.bindings) name
    match path? with
    | none => do
      state.complain (name ++ ": not found")
      .done (.status 127)
    | some path =>
      match start steps tree ⟨name, arguments, state.directory, state.environment⟩ path with
      | .ok action => action.isolate
      | .error .badFormat =>
        match tree.read state.directory path with
        | .ok bytes =>
          runSeparately steps
            (.fresh ⟨name, arguments, state.directory, state.environment⟩ path arguments false)
            (Script.ofText (Text.lossy bytes).toList)
        | .error _ => .done (.status 126)
      | .error reason => do
        state.complain (name ++ ": " ++ (if reason = .notFound then "not found" else reason.words))
        .done (.status (launchStatus reason))

/-- Runs a command that the shell carries out itself. -/
def runBuiltin : Nat → State → String → List String → Action (State × Flow)
  | 0, state, _, _ => .done (state, .onward)
  | steps + 1, state, name, arguments => do
    let first := arguments.head?.getD ""
    match name with
    | "exit" =>
      match arguments with
      | [] => do
        let _ ← leave steps state state.exit
        .done (state, .onward)
      | text :: _ =>
        match text.toNat? with
        | none => state.giveUp ("exit: Illegal number: " ++ text)
        | some status => do
          let _ ← leave steps state (.status (status % 256))
          .done (state, .onward)
    | "eval" => do
      let script := Script.ofText (" ".intercalate arguments).toList
      let state ← runAll steps (if script.commands.isEmpty then state.ended 0 else state) script.commands
      match script.mistake with
      | none => .done (state, .onward)
      | some (line, complaint) =>
        ({ state with line := line } : State).giveUp ("eval: Syntax error: " ++ complaint)
    | "." => do
      let tree ← Action.tree
      match tree.read state.directory first with
      | .ok bytes => do
        let state ← runAll steps (state.ended 0) (Script.ofText (Text.lossy bytes).toList).commands
        .done (state, .onward)
      | .error _ => state.giveUp (".: cannot open " ++ first ++ ": No such file")
    | "exec" =>
      if arguments.isEmpty then state.onward 0
      else do
        let tree ← Action.tree
        if first.toList.contains '/' ||
            (findProgram? tree (searchDirectories state.bindings) first).isSome then do
          let exit ← runProgram steps state first (arguments.drop 1)
          state.settleJobs
          .quit exit
        else do
          state.complain ("exec: " ++ first ++ ": not found")
          .quit (.status 127)
    | "command" =>
      let (options, words) := Tool.splitOptions arguments
      match words with
      | [] => state.onward 0
      | word :: words =>
        if (Tool.letters options).contains 'v' then do
          let tree ← Action.tree
          match meaning? state tree word with
          | some (_, path) => do
            Action.say (path ++ "\n")
            state.onward 0
          | none => state.onward 127
        else if builtinNames.contains word then runBuiltin steps state word words
        else do
          let exit ← runProgram steps state word words
          state.onward exit.code
    | "kill" =>
      let (options, targets) := Tool.splitOptions arguments
      let (signal?, targets) : Option Nat × List String := match options with
        | "-s" :: _ => (signalNumber? (targets.head?.getD ""), targets.drop 1)
        | option :: _ => (signalNumber? (String.ofList (option.toList.drop 1)), targets)
        | [] => (some 15, targets)
      match signal?, targets with
      | none, _ =>
        let option := ((options.head?.getD "").toList.drop 1).head?.getD '?'
        state.giveUp ("kill: Illegal option -" ++ String.singleton option)
      | some _, [] => state.giveUp "kill: Usage: kill [-s sigspec | -signum | -sigspec] [pid | job]... or\nkill -l [exitstatus]"
      | some signal, targets =>
        if targets.contains (toString processNumber) then
          match state.traps.lookup (toString signal) with
          | some text => do
            let after ← runAll steps state (Script.ofText text.toList).commands
            after.onward 0
          | none => if isFatal signal then .quit (.signal signal) else state.onward 0
        else
          match targets.find? fun target => !(target.toNat?.any fun number => (state.jobs.lookup number).isSome) with
          | some target =>
            if target.toNat?.isSome then state.refuse 1 "kill: No such process\n"
            else state.giveUp ("kill: Illegal number: " ++ target)
          | none =>
            let ended (entry : Nat × Job) : Nat × Job :=
              if isFatal signal && targets.contains (toString entry.1) then
                (entry.1, ⟨.done (.signal signal), true⟩)
              else entry
            { state with jobs := state.jobs.map ended }.onward 0
    | name => carryOut state name arguments

/-- Runs assignments, words and redirections. -/
def runSimple : Nat → State → List (String × Word) → List Word → List Redirect → Action (State × Flow)
  | 0, state, _, _, _ => .done (state, .onward)
  | steps + 1, state, assignments, words, redirects => do
    let old := state
    let (state, texts) ← expandWords steps (state.ended state.status) words
    let state := if texts.isEmpty then state.ended 0 else state
    let state ← assignments.foldlM (fun (state : State) assignment => do
      let (state, value) ← expandWhole steps state assignment.2
      if state.frozen.contains assignment.1 then
        state.complain (assignment.1 ++ ": is read only")
        let _ ← (Action.quit (.status 2) : Action Unit)
      let state := state.assign assignment.1 value
      .done (if texts.isEmpty then state
        else { state with exported := assignment.1 :: state.exported })) state
    match ← diverted old.out old.err (redirect steps state none redirects) with
    | none => .done (old.ended 2, .onward)
    | some (inner, input) =>
      match texts with
      | [] => .done ({ inner with out := old.out, err := old.err }, .onward)
      | name :: arguments =>
        let settle (state : State) : State :=
          let state := { state with out := old.out, err := old.err }
          if assignments.isEmpty then state
          else { state with bindings := old.bindings, exported := old.exported }
        let within {α : Type} (action : Action α) : Action α :=
          let action := diverted inner.out inner.err action
          match input with
          | some bytes => action.feed bytes
          | none => action
        match inner.functions.lookup name with
        | some body =>
          let plain := { inner with
            arguments := arguments
            out := .stream .out
            err := .stream .err
            saved := some [] }
          let (state, flow) ← within (run steps plain body)
          let state := (state.saved.getD []).foldl State.restore state
          let flow := if flow = .back then .onward else flow
          .done (settle { state with arguments := old.arguments, saved := old.saved }, flow)
        | none =>
          if name = "exec" && arguments.isEmpty then .done (inner.ended 0, .onward)
          else if builtinNames.contains name then
            let (state, flow) ← within (runBuiltin steps inner name arguments)
            .done (settle state, flow)
          else
            let exit ← within (runProgram steps inner name arguments)
            match exit.obituary? with
            | some text => Action.complain text
            | none => .done ()
            .done (settle (inner.ended exit.code), .onward)

/-- Runs a command. -/
def run : Nat → State → Command → Action (State × Flow)
  | 0, state, _ => .done (state, .onward)
  | steps + 1, state, command => do
    match command with
    | .nothing => .done (state, .onward)
    | .simple line assignments words redirects =>
      let (state, flow) ← runSimple steps { state with line := line } assignments words redirects
      if state.strict && state.status != 0 then
        let _ ← leave steps state state.exit
        .done (state, flow)
      else .done (state, flow)
    | .pipe left right =>
      let (_, bytes) ← Action.capture (runApart steps { state with strict := false } left)
      let exit ← Action.feed bytes (runApart steps { state with strict := false } right)
      .done (state.ended exit.code, .onward)
    | .negated command =>
      let (after, flow) ← run steps { state with strict := false } command
      .done ({ after with strict := state.strict }.ended (if after.status = 0 then 1 else 0), flow)
    | .both left right =>
      let (after, flow) ← run steps { state with strict := false } left
      let after := { after with strict := state.strict }
      if flow = .onward && after.status = 0 then run steps after right else .done (after, flow)
    | .either left right =>
      let (after, flow) ← run steps { state with strict := false } left
      let after := { after with strict := state.strict }
      if flow = .onward && after.status != 0 then run steps after right else .done (after, flow)
    | .sequence left right =>
      let (state, flow) ← run steps state left
      if flow = .onward then run steps state right else .done (state, flow)
    | .background command =>
      let rest ← (Action.feed [] (runApart steps state command)).untilSleep
      let number := max state.latestJob processNumber + 1
      .done ({ state with
        jobs := (number, ⟨rest, command.isDetached⟩) :: state.jobs
        latestJob := number }.ended 0, .onward)
    | .group separate body redirects =>
      match ← diverted state.out state.err (redirect steps state none redirects) with
      | none => .done (state.ended 2, .onward)
      | some (inner, input) =>
        let plain := { inner with out := .stream .out, err := .stream .err }
        let within {α : Type} (action : Action α) : Action α :=
          let action := diverted inner.out inner.err action
          match input with
          | some bytes => action.feed bytes
          | none => action
        if separate then
          let exit ← within (runApart steps plain body)
          .done (state.ended exit.code, .onward)
        else
          let (after, flow) ← within (run steps plain body)
          .done ({ after with out := state.out, err := state.err }, flow)
    | .branch condition yes no =>
      let (after, flow) ← run steps { state with strict := false } condition
      let after := { after with strict := state.strict }
      if flow != .onward then .done (after, flow)
      else if after.status = 0 then run steps after yes
      else run steps (after.ended 0) no
    | .loop untilSuccess condition body => runLoop steps state untilSuccess condition body 0
    | .each name words body =>
      let (state, texts) ← match words with
        | some words => expandWords steps state words
        | none => .done (state, state.arguments)
      runEach steps state name body texts
    | .choice word arms =>
      let (state, subject) ← expandWhole steps state word
      runChoice steps state subject arms
    | .define name body =>
      .done ({ state with functions := (name, body) :: state.functions }.ended 0, .onward)

/-- Runs the rounds of a loop; the status is that of the last round. -/
def runLoop : Nat → State → Bool → Command → Command → Nat → Action (State × Flow)
  | 0, state, _, _, _, _ => .done (state, .onward)
  | steps + 1, state, untilSuccess, condition, body, last => do
    let (after, flow) ← run steps { state with strict := false } condition
    let after := { after with strict := state.strict }
    if flow != .onward then .done (after, flow.outward)
    else if (after.status = 0) == untilSuccess then .done (after.ended last, .onward)
    else
      let (after, flow) ← run steps after body
      if flow.repeats then runLoop steps after untilSuccess condition body after.status
      else .done (after, flow.outward)

/-- Runs a command for every text. -/
def runEach : Nat → State → String → Command → List String → Action (State × Flow)
  | 0, state, _, _, _ => .done (state, .onward)
  | _ + 1, state, _, _, [] => .done (state, .onward)
  | steps + 1, state, name, body, text :: rest => do
    let (state, flow) ← run steps ((state.assign name text).ended 0) body
    if flow.repeats then runEach steps state name body rest else .done (state, flow.outward)

/-- Runs the first arm that a subject matches. -/
def runChoice : Nat → State → String → List (List Word × Command) → Action (State × Flow)
  | 0, state, _, _ => .done (state, .onward)
  | _ + 1, state, _, [] => .done (state.ended 0, .onward)
  | steps + 1, state, subject, (patterns, body) :: rest => do
    let (state, hit) ← patterns.foldlM (fun (found : State × Bool) pattern => do
      if found.2 then .done found
      else
        let (state, fields) ← expandParts steps found.1 ⟨[], none⟩ pattern
        .done (state, Glob.covers (fields.current.getD []) subject.toList)) (state, false)
    if hit then run steps (state.ended 0) body else runChoice steps state subject rest

end

end Polyglot.Host.Shell
