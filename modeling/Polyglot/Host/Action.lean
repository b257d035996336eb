import Polyglot.Host.Tree

/-!
# What a process does

A process is described by everything it will do from now on: it reads from its standard
input, writes to its standard streams, sleeps, looks at the file tree and changes it,
until it is done or quits. What comes after a read is a function of the bytes that it
obtains, so one description covers every input.

A part of a program is an action that is done with a value of its own; actions are put
one behind the other, and an action can be run with its input served or its output
diverted, which is how a shell connects commands.
-/

set_option autoImplicit false

namespace Polyglot.Host

open Polyglot.Text (Bytes)

/-- How a process ends. -/
inductive Exit where
  /-- It ends by itself with a status. -/
  | status (code : Nat)
  /-- A signal ends it. -/
  | signal (number : Nat)
  deriving DecidableEq, Repr

namespace Exit

/-- The names of the signals, from the first one on. -/
def signalNames : List String :=
  ["HUP", "INT", "QUIT", "ILL", "TRAP", "ABRT", "BUS", "FPE", "KILL", "USR1", "SEGV", "USR2",
   "PIPE", "ALRM", "TERM", "STKFLT", "CHLD", "CONT", "STOP", "TSTP", "TTIN", "TTOU", "URG",
   "XCPU", "XFSZ", "VTALRM", "PROF", "WINCH", "IO", "PWR", "SYS"]

/-- Whether the process ended by itself with status zero. -/
def isSuccess : Exit → Bool
  | .status 0 => true
  | _ => false

/-- The description of an end. -/
def message : Exit → String
  | .status code => "exit status: " ++ toString code
  | .signal number =>
    match number with
    | 0 => "signal: 0"
    | n + 1 =>
      match signalNames[n]? with
      | some name => "signal: " ++ toString number ++ " (SIG" ++ name ++ ")"
      | none => "signal: " ++ toString number

/-- What a shell writes when a signal has ended a process that it waited for. -/
def obituary? : Exit → Option String
  | .status _ => none
  | .signal number =>
    match number with
    | 1 => some "Hangup"
    | 2 => none
    | 3 => some "Quit"
    | 4 => some "Illegal instruction"
    | 5 => some "Trace/breakpoint trap"
    | 6 => some "Aborted"
    | 7 => some "Bus error"
    | 8 => some "Floating point exception"
    | 9 => some "Killed"
    | 10 => some "User defined signal 1"
    | 11 => some "Segmentation fault"
    | 12 => some "User defined signal 2"
    | 13 => none
    | 14 => some "Alarm clock"
    | 15 => some "Terminated"
    | number => some ("Unknown signal " ++ toString number)

/-- The status that a shell sees. -/
def code : Exit → Nat
  | .status code => code
  | .signal number => 128 + number

end Exit

/-- A standard stream for output. -/
inductive Stream where
  /-- The standard output. -/
  | out
  /-- The standard error. -/
  | err
  deriving DecidableEq, Repr

/-- How much a read asks for. -/
inductive Want where
  /-- A line with its line break; less only at the end of the input. -/
  | line
  /-- Whatever is there, and at least one byte; nothing only at the end of the input. -/
  | some
  /-- At most the given number of bytes, and at least one; nothing only at the end. -/
  | upTo (count : Nat)
  deriving DecidableEq, Repr

/-- Everything that a program does until it is done with a value or quits. -/
inductive Action (α : Type) where
  /-- Nothing is left to do. -/
  | done (value : α)
  /-- The process ends here. -/
  | quit (exit : Exit)
  /-- Reads from the standard input. -/
  | read (want : Want) (resume : Bytes → Action α)
  /-- Writes to a standard stream. -/
  | write (stream : Stream) (bytes : Bytes) (next : Action α)
  /-- Lets time pass. -/
  | sleep (milliseconds : Nat) (next : Action α)
  /-- Looks at the file tree. -/
  | look (resume : Tree → Action α)
  /-- Changes the file tree. -/
  | store (tree : Tree) (next : Action α)

namespace Action

/-- Goes on with another action when the first is done. -/
def bind {α β : Type} (next : α → Action β) : Action α → Action β
  | .done value => next value
  | .quit exit => .quit exit
  | .read want resume => .read want fun bytes => bind next (resume bytes)
  | .write stream bytes rest => .write stream bytes (bind next rest)
  | .sleep milliseconds rest => .sleep milliseconds (bind next rest)
  | .look resume => .look fun tree => bind next (resume tree)
  | .store tree rest => .store tree (bind next rest)

instance : Monad Action where
  pure := .done
  bind action next := bind next action

/-- Writes bytes to the standard output. -/
def put (bytes : Bytes) : Action Unit :=
  if bytes.isEmpty then .done () else .write .out bytes (.done ())

/-- Writes a text to the standard output. -/
def say (text : String) : Action Unit :=
  put (Text.utf8 text)

/-- Writes a line to the standard error. -/
def complain (text : String) : Action Unit :=
  .write .err (Text.utf8 (text ++ "\n")) (.done ())

/-- The file tree. -/
def tree : Action Tree :=
  .look .done

/-- Reads from the standard input. -/
def input (want : Want) : Action Bytes :=
  .read want .done

/-- Changes the file tree by an operation, or answers why it was refused. -/
def change (operation : Tree → Except OsError Tree) : Action (Option OsError) :=
  .look fun tree =>
    match operation tree with
    | .ok changed => .store changed (.done none)
    | .error reason => .done (some reason)

/-- The action of a part that may end without ending the whole. -/
def isolate : Action Exit → Action Exit
  | .done exit => .done exit
  | .quit exit => .done exit
  | .read want resume => .read want fun bytes => isolate (resume bytes)
  | .write stream bytes rest => .write stream bytes (isolate rest)
  | .sleep milliseconds rest => .sleep milliseconds (isolate rest)
  | .look resume => .look fun tree => isolate (resume tree)
  | .store tree rest => .store tree (isolate rest)

/-- The action up to the point where it first lets time pass, and what is left of it then. -/
def untilSleep : Action Exit → Action (Action Exit)
  | .done exit => .done (.done exit)
  | .quit exit => .done (.done exit)
  | .read want resume => .read want fun bytes => untilSleep (resume bytes)
  | .write stream bytes rest => .write stream bytes (untilSleep rest)
  | .sleep milliseconds rest => .done (.sleep milliseconds rest)
  | .look resume => .look fun tree => untilSleep (resume tree)
  | .store tree rest => .store tree (untilSleep rest)

/-- The action, which is given up when more than the given time would pass. -/
def within (given : Exit) : Nat → Action Exit → Action Exit
  | _, .done exit => .done exit
  | _, .quit exit => .quit exit
  | left, .read want resume => .read want fun bytes => within given left (resume bytes)
  | left, .write stream bytes rest => .write stream bytes (within given left rest)
  | left, .sleep milliseconds rest =>
    if milliseconds < left then .sleep milliseconds (within given (left - milliseconds) rest)
    else .sleep left (.done given)
  | left, .look resume => .look fun tree => within given left (resume tree)
  | left, .store tree rest => .store tree (within given left rest)

/-- The action with everything written handed to the given action instead. -/
def divert {α : Type} (handler : Stream → Bytes → Action Unit) : Action α → Action α
  | .done value => .done value
  | .quit exit => .quit exit
  | .read want resume => .read want fun bytes => divert handler (resume bytes)
  | .write stream bytes rest => bind (fun _ => divert handler rest) (handler stream bytes)
  | .sleep milliseconds rest => .sleep milliseconds (divert handler rest)
  | .look resume => .look fun tree => divert handler (resume tree)
  | .store tree rest => .store tree (divert handler rest)

/-- The action with its standard output kept, in reverse order of the writes. -/
def captureFrom {α : Type} (kept : List Bytes) : Action α → Action (α × Bytes)
  | .done value => .done (value, kept.reverse.flatten)
  | .quit exit => .quit exit
  | .read want resume => .read want fun bytes => captureFrom kept (resume bytes)
  | .write .out bytes rest => captureFrom (bytes :: kept) rest
  | .write .err bytes rest => .write .err bytes (captureFrom kept rest)
  | .sleep milliseconds rest => .sleep milliseconds (captureFrom kept rest)
  | .look resume => .look fun tree => captureFrom kept (resume tree)
  | .store tree rest => .store tree (captureFrom kept rest)

/-- The action with its standard output kept and answered. -/
def capture {α : Type} (action : Action α) : Action (α × Bytes) :=
  captureFrom [] action

end Action

/-- The bytes up to and including the first line break. -/
def firstLine : Bytes → Bytes
  | [] => []
  | byte :: rest => if byte = 10 then [byte] else byte :: firstLine rest

/-- Whether some bytes contain a line break. -/
def hasLine (bytes : Bytes) : Bool :=
  bytes.any (· == 10)

/-- What a read obtains from the given input, and what is left of it. -/
def Want.take (want : Want) (input : Bytes) : Bytes × Bytes :=
  match want with
  | .line =>
    let line := input.takeWhile (· != 10)
    let behind := input.drop line.length
    (line ++ behind.take 1, behind.drop 1)
  | .some => (input, [])
  | .upTo count => (input.take count, input.drop count)

/-- Whether a read on an open input can be served now. -/
def Want.isServed (want : Want) (input : Bytes) : Bool :=
  match want with
  | .line => hasLine input
  | _ => !input.isEmpty

namespace Action

/-- The action with its input served from the given bytes, which end behind them. -/
def feed {α : Type} (input : Bytes) : Action α → Action α
  | .done value => .done value
  | .quit exit => .quit exit
  | .read want resume =>
    let (taken, rest) := want.take input
    feed rest (resume taken)
  | .write stream bytes rest => .write stream bytes (feed input rest)
  | .sleep milliseconds rest => .sleep milliseconds (feed input rest)
  | .look resume => .look fun tree => feed input (resume tree)
  | .store tree rest => .store tree (feed input rest)

end Action

/-! ## Running a process on its own -/

/-- What a process that was run on its own left behind. -/
structure Outcome where
  /-- How it ended, unless it took too long and was stopped. -/
  exit : Option Exit
  /-- What it wrote to its standard output. -/
  stdout : Bytes
  /-- What it wrote to its standard error. -/
  stderr : Bytes
  deriving DecidableEq, Repr

/-- A run so far: the writes to both streams in reverse order, and the time that is left. -/
structure Progress where
  /-- The writes to the standard output. -/
  out : List Bytes
  /-- The writes to the standard error. -/
  err : List Bytes
  /-- The milliseconds that are left, if they are bounded. -/
  left : Option Nat

/-- The outcome of a run that ends in the given way. -/
def Progress.outcome (progress : Progress) (exit : Option Exit) : Outcome :=
  ⟨exit, progress.out.reverse.flatten, progress.err.reverse.flatten⟩

/-- Runs a process whose input is empty, with a bound on its time. -/
def Action.runFrom (progress : Progress) (tree : Tree) : Action Exit → Outcome × Tree
  | .done exit => (progress.outcome (some exit), tree)
  | .quit exit => (progress.outcome (some exit), tree)
  | .read _ resume => runFrom progress tree (resume [])
  | .write .out bytes rest => runFrom { progress with out := bytes :: progress.out } tree rest
  | .write .err bytes rest => runFrom { progress with err := bytes :: progress.err } tree rest
  | .sleep milliseconds rest =>
    match progress.left with
    | none => runFrom progress tree rest
    | some left =>
      if milliseconds < left then runFrom { progress with left := some (left - milliseconds) } tree rest
      else (progress.outcome none, tree)
  | .look resume => runFrom progress tree (resume tree)
  | .store changed rest => runFrom progress changed rest

/-- Runs a process whose input is empty, with a bound on its time in milliseconds. -/
def Action.run (limit : Option Nat) (tree : Tree) (action : Action Exit) : Outcome × Tree :=
  action.runFrom ⟨[], [], limit⟩ tree

/-! ## A process that is fed line by line -/

/-- A process that waits for input or has ended, with the input that it has not read. -/
structure Waiting where
  /-- What it will do. -/
  action : Action Exit
  /-- What it has not read. -/
  input : Bytes
  /-- Whether the input ends behind that. -/
  closed : Bool

/-- Something that the parent of a process notices. -/
inductive Event where
  /-- Bytes on the standard output. -/
  | output (bytes : Bytes)
  /-- Time passes. -/
  | pause (milliseconds : Nat)
  /-- The process ends. -/
  | ended (exit : Exit)
  deriving DecidableEq, Repr

/-- Lets a process go on until it waits for input that is not there, or ends. -/
def Action.proceed (tree : Tree) (input : Bytes) (closed : Bool) (events : List Event) :
    Action Exit → Tree × Waiting × List Event
  | .done exit => (tree, ⟨.done exit, input, closed⟩, (.ended exit :: events).reverse)
  | .quit exit => (tree, ⟨.done exit, input, closed⟩, (.ended exit :: events).reverse)
  | .read want resume =>
    if closed || want.isServed input then
      let (taken, rest) := want.take input
      proceed tree rest closed events (resume taken)
    else (tree, ⟨.read want resume, input, closed⟩, events.reverse)
  | .write .out bytes rest => proceed tree input closed (.output bytes :: events) rest
  | .write .err _ rest => proceed tree input closed events rest
  | .sleep milliseconds rest => proceed tree input closed (.pause milliseconds :: events) rest
  | .look resume => proceed tree input closed events (resume tree)
  | .store changed rest => proceed changed input closed events rest

end Polyglot.Host
