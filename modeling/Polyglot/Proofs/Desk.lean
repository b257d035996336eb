import Mathlib.Logic.Function.Basic
import Mathlib.Logic.Relation
import Polyglot.Proofs.Exchange

/-!
# Callers at one channel

Any number of callers share a channel. A caller queues for the lock of the channel,
writes its line in chunks of any size, reads the worker's output in chunks of any size,
and leaves with the first complete line. The steps of different callers interleave in
any way that the lock admits: a step belongs to one caller and looks only at what that
caller is doing, at the lock and at the channel.

A caller that calls more than once is several callers here.

The desk keeps a record that no step looks at: in which order callers were admitted,
which bytes were written to the worker, and which line each answered caller took.
-/

set_option autoImplicit false

namespace Polyglot

open Polyglot.Host (Event)
open Polyglot.Text (Bytes)

variable {ι ω σ : Type}

/-! ## States -/

/-- What a caller is doing. -/
inductive Stage where
  /-- It has not called. -/
  | absent
  /-- It waits for the lock. -/
  | queued (errand : Errand)
  /-- It holds the lock and has bytes left to write. -/
  | writing (errand : Errand) (rest : Bytes)
  /-- It holds the lock and waits for a line, with a bound on the time that is left. -/
  | waiting (errand : Errand) (left : Option Nat)
  /-- It was told something. -/
  | served (report : Report)

/-- Whether the request of a caller is in flight. -/
def Stage.inFlight : Stage → Bool
  | .writing _ _ | .waiting _ _ => true
  | .absent | .queued _ | .served _ => false

/-- That a caller took a line. -/
structure Receipt (ι : Type) where
  /-- The caller. -/
  caller : ι
  /-- What it had asked for. -/
  errand : Errand
  /-- The line. -/
  line : Bytes

namespace Receipt

/-- The admission that a receipt answers. -/
def entry (receipt : Receipt ι) : ι × Errand :=
  (receipt.caller, receipt.errand)

/-- What a caller that took a line is told. -/
def report (language : String) (receipt : Receipt ι) : Report :=
  receipt.errand.report language (.ok receipt.line)

end Receipt

/-- A channel with its callers. -/
structure Desk (ι ω σ : Type) where
  /-- The channel. -/
  channel : Channel σ
  /-- The world of the worker. -/
  world : ω
  /-- The holder of the lock. -/
  owner : Option ι
  /-- What each caller is doing. -/
  stage : ι → Stage
  /-- Who was admitted, in the order in which the lock was taken. -/
  admitted : List (ι × Errand)
  /-- The bytes that were written to the worker. -/
  written : Bytes
  /-- Who took a line, in the order in which the lines were taken. -/
  taken : List (Receipt ι)

/-! ## Steps -/

/-- The events behind a chunk that was read from the output of a worker. -/
def remaining (rest : Bytes) (events : List Event) : List Event :=
  if rest = [] then events else .output rest :: events

@[simp] theorem deedsOf_remaining (rest : Bytes) (events : List Event) :
    deedsOf (remaining rest events) = rest.map .byte ++ deedsOf events := by
  by_cases none : rest = []
  · simp [remaining, none]
  · simp [remaining, none, deedsOf]

/-- Reading a chunk only moves it into the buffer. -/
theorem Pipes.ahead_read (worker : σ) (chunk rest buffered : Bytes) (events : List Event) :
    (⟨worker, remaining rest events, buffered ++ chunk⟩ : Pipes σ).ahead =
      (⟨worker, .output (chunk ++ rest) :: events, buffered⟩ : Pipes σ).ahead := by
  simp [Pipes.ahead, deedsOf]

namespace Desk

variable [DecidableEq ι]

/-- A caller goes on to another stage. -/
def move (desk : Desk ι ω σ) (caller : ι) (stage : Stage) : Desk ι ω σ :=
  { desk with stage := Function.update desk.stage caller stage }

/-- A caller returns the lock, as the channel then is. -/
def release (desk : Desk ι ω σ) (caller : ι) (report : Report) (channel : Channel σ) :
    Desk ι ω σ :=
  { desk.move caller (.served report) with owner := none, channel := channel }

/-- A caller finds that the worker is given up. -/
def abandon (desk : Desk ι ω σ) (caller : ι) (errand : Errand) (reason : Failure) :
    Desk ι ω σ :=
  desk.release caller (errand.report desk.channel.language (.error reason)) desk.channel.drop

/-- A caller comes with an errand. -/
inductive Arrives : Desk ι ω σ → Desk ι ω σ → Prop where
  | call {desk : Desk ι ω σ} {caller : ι} (errand : Errand)
      (absent : desk.stage caller = .absent) :
      Arrives desk (desk.move caller (.queued errand))

/-- A caller at the desk goes on. -/
inductive Works (processes : Processes ω σ) : Desk ι ω σ → Desk ι ω σ → Prop where
  /-- It takes the lock of a live channel. -/
  | take {desk : Desk ι ω σ} {caller : ι} {errand : Errand}
      (queued : desk.stage caller = .queued errand) (free : desk.owner = none)
      (live : desk.channel.isLive = true) :
      Works processes desk
        { desk.move caller (.writing errand (errand.line desk.channel.language)) with
          owner := some caller
          admitted := desk.admitted ++ [(caller, errand)] }
  /-- It takes the lock of a channel that is not live, and returns it. -/
  | refuse {desk : Desk ι ω σ} {caller : ι} {errand : Errand}
      (queued : desk.stage caller = .queued errand) (free : desk.owner = none)
      (gone : desk.channel.isLive = false) :
      Works processes desk (desk.abandon caller errand (.workerDead desk.channel.language))
  /-- It writes a chunk of its line, and not the last. -/
  | write {desk : Desk ι ω σ} {caller : ι} {errand : Errand} {chunk rest : Bytes}
      {pipes : Pipes σ} (writing : desk.stage caller = .writing errand (chunk ++ rest))
      (some_written : chunk ≠ []) (more : rest ≠ []) (live : desk.channel.pipes = some pipes)
      (runs : hasEnded pipes.pending = false) :
      Works processes desk
        { desk.move caller (.writing errand rest) with written := desk.written ++ chunk }
  /-- It writes the last chunk of its line, and the worker reacts to the line. -/
  | send {desk : Desk ι ω σ} {caller : ι} {errand : Errand} {chunk : Bytes} {pipes : Pipes σ}
      (writing : desk.stage caller = .writing errand chunk)
      (live : desk.channel.pipes = some pipes) (runs : hasEnded pipes.pending = false)
      {world : ω} {worker : σ} {events : List Event}
      (reaction : processes.receive desk.world pipes.worker
        (errand.line desk.channel.language) = (world, worker, events)) :
      Works processes desk
        { desk.move caller (.waiting errand desk.channel.timeoutMs) with
          channel := { desk.channel with
            pipes := some ⟨worker, pipes.pending ++ events, pipes.buffered⟩ }
          world := world
          written := desk.written ++ chunk }
  /-- It cannot write since the worker has ended. -/
  | fail {desk : Desk ι ω σ} {caller : ι} {errand : Errand} {rest : Bytes} {pipes : Pipes σ}
      (writing : desk.stage caller = .writing errand rest)
      (live : desk.channel.pipes = some pipes) (ended : hasEnded pipes.pending = true) :
      Works processes desk (desk.abandon caller errand (.workerDead desk.channel.language))
  /-- It reads a chunk of the output. -/
  | read {desk : Desk ι ω σ} {caller : ι} {errand : Errand} {left : Option Nat}
      {worker : σ} {chunk rest : Bytes} {events : List Event} {buffered : Bytes}
      (waiting : desk.stage caller = .waiting errand left)
      (live : desk.channel.pipes = some ⟨worker, .output (chunk ++ rest) :: events, buffered⟩)
      (unbroken : takeLine? buffered = none) (some_read : chunk ≠ [] ∨ rest = []) :
      Works processes desk
        { desk with
          channel := { desk.channel with
            pipes := some ⟨worker, remaining rest events, buffered ++ chunk⟩ } }
  /-- Time passes. -/
  | pass {desk : Desk ι ω σ} {caller : ι} {errand : Errand} {left still : Option Nat}
      {worker : σ} {milliseconds : Nat} {events : List Event} {buffered : Bytes}
      (waiting : desk.stage caller = .waiting errand left)
      (live : desk.channel.pipes = some ⟨worker, .pause milliseconds :: events, buffered⟩)
      (unbroken : takeLine? buffered = none) (inTime : elapse left milliseconds = some still) :
      Works processes desk
        { desk.move caller (.waiting errand still) with
          channel := { desk.channel with pipes := some ⟨worker, events, buffered⟩ } }
  /-- The time is over. -/
  | expire {desk : Desk ι ω σ} {caller : ι} {errand : Errand} {left : Option Nat}
      {pipes : Pipes σ} (waiting : desk.stage caller = .waiting errand left)
      (live : desk.channel.pipes = some pipes) (unbroken : takeLine? pipes.buffered = none)
      (late : (pipes.pending = [] ∧ left.isSome = true) ∨
        ∃ milliseconds events, pipes.pending = .pause milliseconds :: events ∧
          elapse left milliseconds = none) :
      Works processes desk
        (desk.abandon caller errand (.timeout (desk.channel.timeoutMs.getD 0 / 1000)))
  /-- The output ends without a line. -/
  | miss {desk : Desk ι ω σ} {caller : ι} {errand : Errand} {left : Option Nat}
      {worker : σ} {exit : Host.Exit} {events : List Event} {buffered : Bytes}
      (waiting : desk.stage caller = .waiting errand left)
      (live : desk.channel.pipes = some ⟨worker, .ended exit :: events, buffered⟩)
      (unbroken : takeLine? buffered = none) :
      Works processes desk (desk.abandon caller errand (.workerDead desk.channel.language))
  /-- It takes a line and returns the lock. -/
  | leave {desk : Desk ι ω σ} {caller : ι} {errand : Errand} {left : Option Nat}
      {pipes : Pipes σ} {line rest : Bytes}
      (waiting : desk.stage caller = .waiting errand left)
      (live : desk.channel.pipes = some pipes)
      (found : takeLine? pipes.buffered = some (line, rest)) :
      Works processes desk
        { desk.release caller (errand.report desk.channel.language (.ok line))
            { desk.channel with pipes := some { pipes with buffered := rest } } with
          taken := desk.taken ++ [⟨caller, errand, line⟩] }

/-- Anything that happens at the desk. -/
def Step (processes : Processes ω σ) (desk next : Desk ι ω σ) : Prop :=
  Arrives desk next ∨ Works processes desk next

/-- Any run, in any order of the callers' steps. -/
abbrev Steps (processes : Processes ω σ) : Desk ι ω σ → Desk ι ω σ → Prop :=
  Relation.ReflTransGen (Step processes)

end Desk

/-! ## The beginning -/

/-- How a channel begins. -/
structure Opening (ω σ : Type) where
  /-- The language as it was registered. -/
  language : String
  /-- The bound on the wait for an answer in milliseconds. -/
  timeoutMs : Option Nat
  /-- The world. -/
  world : ω
  /-- The worker. -/
  worker : σ
  /-- What the worker does unasked. -/
  started : List Event

namespace Opening

/-- The channel as it was opened. -/
def channel (opening : Opening ω σ) : Channel σ :=
  ⟨opening.language, opening.timeoutMs, some ⟨opening.worker, opening.started, []⟩⟩

/-- The desk before anyone has called. -/
def desk (opening : Opening ω σ) : Desk ι ω σ where
  channel := opening.channel
  world := opening.world
  owner := none
  stage _ := .absent
  admitted := []
  written := []
  taken := []

/-- The world and the worker when it has reacted to some lines. -/
def after (opening : Opening ω σ) (processes : Processes ω σ) (lines : List Bytes) : ω × σ :=
  processes.after (opening.world, opening.worker) (lines.map fun line => line ++ [10])

/-- What the worker writes in reaction to each of some lines. -/
def reactions (opening : Opening ω σ) (processes : Processes ω σ) (lines : List Bytes) :
    List Bytes :=
  processes.reactions (opening.world, opening.worker) (lines.map fun line => line ++ [10])

/-- All that the worker writes until it has reacted to some lines. -/
def spoken (opening : Opening ω σ) (processes : Processes ω σ) (lines : List Bytes) : Bytes :=
  spokenIn opening.started ++ (opening.reactions processes lines).flatten

theorem after_concat (opening : Opening ω σ) (processes : Processes ω σ) (lines : List Bytes)
    (line : Bytes) :
    opening.after processes (lines ++ [line]) =
      let before := opening.after processes lines
      let reaction := processes.receive before.1 before.2 (line ++ [10])
      (reaction.1, reaction.2.1) := by
  rw [after, List.map_append]
  exact processes.after_concat _ _ _

theorem reactions_concat (opening : Opening ω σ) (processes : Processes ω σ)
    (lines : List Bytes) (line : Bytes) :
    opening.reactions processes (lines ++ [line]) =
      let before := opening.after processes lines
      opening.reactions processes lines ++
        [spokenIn (processes.receive before.1 before.2 (line ++ [10])).2.2] := by
  rw [reactions, List.map_append]
  exact processes.reactions_concat _ _ _

theorem spoken_concat (opening : Opening ω σ) (processes : Processes ω σ) (lines : List Bytes)
    (line : Bytes) :
    opening.spoken processes (lines ++ [line]) =
      let before := opening.after processes lines
      opening.spoken processes lines ++
        spokenIn (processes.receive before.1 before.2 (line ++ [10])).2.2 := by
  simp only [spoken, reactions_concat, List.flatten_append, List.flatten_singleton,
    List.append_assoc]

/-- Every channel that is started begins in this way. -/
theorem exists_of_spawn {processes : Processes ω σ} {world world' : ω} {language : String}
    {command : CommandLine} {directory : String} {timeoutMs : Option Nat} {channel : Channel σ}
    (spawned : Channel.spawn processes world language command directory timeoutMs =
      (.ok channel, world')) :
    ∃ opening : Opening ω σ, channel = opening.channel ∧ world' = opening.world := by
  unfold Channel.spawn at spawned
  split at spawned
  · cases spawned
  · split at spawned
    · cases spawned
    · split at spawned
      · cases spawned
      · rename_i started _
        cases spawned
        exact ⟨⟨language, timeoutMs, _, _, _⟩, rfl, rfl⟩

end Opening

end Polyglot
