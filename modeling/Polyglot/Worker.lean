import Polyglot.Backend.Spec
import Polyglot.Process
import Polyglot.Reply

/-!
# Channels to worker processes

A worker is a process that reads one request per line and answers one line for each. A
channel owns the worker's standard streams. A request is admitted only when no other
one is in flight; its line is written, and the next complete line of the worker's
output is its answer, whatever bytes it holds.

A channel is live until something shows that the worker has gone or can no longer be
trusted: its output ends before a line is complete, it does not answer in time, it has
ended, or the channel is closed. A channel that is not live never becomes live again
and writes nothing. An answer that is not a reply leaves the channel live.

How the worker behaves is left open: it is any process that reacts to a line, or to the
end of its input, by a finite run of events.
-/

set_option autoImplicit false

namespace Polyglot

open Polyglot.Host (Event OsError)
open Polyglot.Text (Bytes)

/-! ## Channels -/

/-- The standard streams of a worker. -/
structure Pipes (σ : Type) where
  /-- The state of the worker. -/
  worker : σ
  /-- What the worker has done and nobody has noticed, oldest first. -/
  pending : List Event
  /-- The output that has arrived and was not taken. -/
  buffered : Bytes

/-- A channel to a worker. -/
structure Channel (σ : Type) where
  /-- The language as it was registered. -/
  language : String
  /-- The bound on the wait for an answer in milliseconds. -/
  timeoutMs : Option Nat
  /-- The worker's streams, as long as the channel is live. -/
  pipes : Option (Pipes σ)

/-- Splits off the first complete line, without its line break. -/
def takeLine? (bytes : Bytes) : Option (Bytes × Bytes) :=
  let line := bytes.takeWhile (· != 10)
  match bytes.drop line.length with
  | _ :: rest => some (line, rest)
  | [] => none

/-- What a wait for a line comes to. -/
inductive Awaited where
  /-- A complete line, with the output and the events behind it. -/
  | line (bytes buffered : Bytes) (pending : List Event)
  /-- The output ends without one. -/
  | gone
  /-- No line comes in time. -/
  | late
  deriving DecidableEq, Repr

/-- Waits for a complete line, with a bound on the time. -/
def await : Option Nat → Bytes → List Event → Awaited
  | left, buffered, events =>
    match takeLine? buffered with
    | some (line, rest) => .line line rest events
    | none =>
      match events with
      | [] => .late
      | .output bytes :: events => await left (buffered ++ bytes) events
      | .ended _ :: _ => .gone
      | .pause milliseconds :: events =>
        match left with
        | none => await none buffered events
        | some left =>
          if milliseconds < left then await (some (left - milliseconds)) buffered events else .late
  termination_by _ _ events => events.length

/-- Whether the worker has ended by now. -/
def hasEnded : List Event → Bool
  | [] => false
  | .output _ :: events => hasEnded events
  | .pause _ :: _ => false
  | .ended _ :: _ => true

/-- Whether the worker ends if one waits long enough. -/
def ends (events : List Event) : Bool :=
  events.any fun event => match event with
    | .ended _ => true
    | _ => false

/-- The line that a request is written as. -/
def Request.line (request : Request) : Bytes :=
  Text.utf8 request.render ++ [10]

namespace Channel

variable {ω σ : Type}

/-- A channel whose worker was never started. -/
def dead (language : String) : Channel σ :=
  ⟨language, none, none⟩

/-- Whether the channel is live. -/
def isLive (channel : Channel σ) : Bool :=
  channel.pipes.isSome

/-- The channel after its worker has gone. -/
def drop (channel : Channel σ) : Channel σ :=
  { channel with pipes := none }

/-- Writes a line and waits for the next line of output. -/
def exchange (processes : Processes ω σ) (channel : Channel σ) (world : ω) (line : Bytes) :
    Except Failure Bytes × Channel σ × ω :=
  let gone : Failure := .workerDead channel.language
  match channel.pipes with
  | none => (.error gone, channel, world)
  | some pipes =>
    if hasEnded pipes.pending then (.error gone, channel.drop, world)
    else
      let (world, worker, events) := processes.receive world pipes.worker line
      match await channel.timeoutMs pipes.buffered (pipes.pending ++ events) with
      | .line bytes buffered pending =>
        (.ok bytes, { channel with pipes := some ⟨worker, pending, buffered⟩ }, world)
      | .gone => (.error gone, channel.drop, world)
      | .late => (.error (.timeout (channel.timeoutMs.getD 0 / 1000)), channel.drop, world)

/-- The reply that a line of output holds. -/
def replyOf (language : String) (line : Bytes) : Except Failure Reply :=
  match Reply.read line with
  | .ok reply => .ok reply
  | .error fault =>
    .error (.protocolError ("Malformed reply from " ++ language ++ " worker: " ++ fault.message ++
      " (" ++ Text.lossy line ++ ")"))

/-- Sends a request and answers the reply to it. -/
def submit (processes : Processes ω σ) (channel : Channel σ) (world : ω) (request : Request) :
    Except Failure Reply × Channel σ × ω :=
  let (answer, channel, world) := channel.exchange processes world request.line
  (answer.bind (replyOf channel.language), channel, world)

/-- Runs a job and answers its output. -/
def execute (processes : Processes ω σ) (channel : Channel σ) (world : ω) (job : Job) :
    Except Failure String × Channel σ × ω :=
  let (answer, channel, world) :=
    channel.submit processes world (Request.ofJob channel.language job)
  (answer.bind Reply.output, channel, world)

/-- Whether the worker is believed to be running; a worker that has ended is noticed. -/
def isAlive (channel : Channel σ) : Bool × Channel σ :=
  match channel.pipes with
  | none => (false, channel)
  | some pipes => if hasEnded pipes.pending then (false, channel.drop) else (true, channel)

/-- Waits until the worker has ended, if it ends. -/
def awaitEnd (channel : Channel σ) : Bool × Channel σ :=
  match channel.pipes with
  | none => (false, channel)
  | some pipes => if ends pipes.pending then (false, channel.drop) else (true, channel)

/-- Ends the worker's input and gives the worker up. -/
def close (processes : Processes ω σ) (channel : Channel σ) (world : ω) : Channel σ × ω :=
  match channel.pipes with
  | none => (channel, world)
  | some pipes => (channel.drop, (processes.finish world pipes.worker).1)

/-- Why a worker could not be started. -/
def spawnFailure (language program : String) (reason : OsError) : Failure :=
  .workerDead (language ++ " (failed to spawn '" ++ program ++ "': " ++ reason.message ++ ")")

/-- Starts a worker in a directory. -/
def spawn (processes : Processes ω σ) (world : ω) (language : String) (command : CommandLine)
    (directory : String) (timeoutMs : Option Nat) : Except Failure (Channel σ) × ω :=
  match command with
  | [] => (.error (.configuration (language ++ ": empty start command")), world)
  | program :: arguments =>
    match processes.resolve world program directory with
    | none => (.error (.commandNotFound program), world)
    | some path =>
      match processes.launch world path arguments directory with
      | .error reason => (.error (spawnFailure language path reason), world)
      | .ok (world, worker, events) =>
        (.ok ⟨language, timeoutMs, some ⟨worker, events, []⟩⟩, world)

end Channel

end Polyglot
