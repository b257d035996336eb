import Polyglot.Proofs.Lineup

/-!
# The bytes at a desk

As long as the channel is live, what was written to the worker is the lines of the
admitted requests in their order, up to the line that is being written, and what the
worker wrote is the lines that were taken in their order, and behind them what is not
read yet (`Flow`). This holds for every worker: it may write what it wants when it wants.

A second channel goes along on which the callers come one after the other. It keeps
abreast of the desk, so that the callers are told the same on both.
-/

set_option autoImplicit false

namespace Polyglot

open Polyglot.Host (Event)
open Polyglot.Text (Bytes)

variable {ι ω σ : Type}

/-! ## The invariant -/

/-- What callers are told that come one after the other. -/
def Opening.inTurn (opening : Opening ω σ) (processes : Processes ω σ) (errands : List Errand) :
    List Report × Channel σ × ω :=
  Errand.performAll processes opening.channel opening.world errands

/-- The lines that the worker has received. -/
def heard (language : String) (taken : List (Receipt ι)) (underway : Underway ι) : List Bytes :=
  (taken.map Receipt.errand ++ underway.sent?.toList).map (Errand.text language)

/-- A channel on which the answered errands were gone on one after the other keeps abreast
of the desk. With nobody waiting, the same is ahead of both; with somebody waiting, the
reaction of the worker brings the same line to both. -/
def Abreast (processes : Processes ω σ) (opening : Opening ω σ) (alone : Pipes σ) (world : ω)
    (pipes : Pipes σ) (now : ω) : Underway ι → Prop
  | .waiting _ errand left =>
    let reaction := processes.receive world alone.worker (errand.line opening.language)
    endsNow alone.ahead = false ∧ reaction.1 = now ∧ reaction.2.1 = pipes.worker ∧
      seek opening.timeoutMs [] (alone.ahead ++ deedsOf reaction.2.2) = seek left [] pipes.ahead
  | _ => alone.ahead = pipes.ahead ∧ alone.worker = pipes.worker ∧ world = now

/-- What holds of the bytes at a desk whose channel is live. -/
structure Flow (processes : Processes ω σ) (opening : Opening ω σ) (desk : Desk ι ω σ)
    (pipes : Pipes σ) (underway : Underway ι) : Prop where
  language : desk.channel.language = opening.language
  timeoutMs : desk.channel.timeoutMs = opening.timeoutMs
  live : desk.channel.pipes = some pipes
  /-- The line that is written is cut in two. -/
  cut : ∀ caller errand begun rest, underway = .writing caller errand begun rest →
    begun ++ rest = errand.line opening.language ∧ rest ≠ []
  /-- The bytes that were written are the lines that the worker has received, and the
  beginning of the next. -/
  written : desk.written =
    terminated (heard opening.language desk.taken underway) ++ underway.begun
  state : opening.after processes (heard opening.language desk.taken underway) =
    (desk.world, pipes.worker)
  unbroken : ∀ receipt ∈ desk.taken, 10 ∉ receipt.line
  /-- The lines that were taken and the output that was not are all of the output. -/
  stream : opening.spoken processes (heard opening.language desk.taken underway) =
    terminated (desk.taken.map Receipt.line) ++ pipes.unread
  /-- Who was told something was told what it is told when the callers come one after the
  other. -/
  inTurn : ∃ alone world,
    opening.inTurn processes (desk.taken.map Receipt.errand) =
      (desk.taken.map (Receipt.report opening.language),
        ⟨opening.language, opening.timeoutMs, some alone⟩, world) ∧
    Abreast processes opening alone world pipes desk.world underway

namespace Flow

variable {processes : Processes ω σ} {opening : Opening ω σ} {desk : Desk ι ω σ}
variable {pipes : Pipes σ} {underway : Underway ι} {caller : ι} {errand : Errand}

theorem initial (processes : Processes ω σ) (opening : Opening ω σ) :
    Flow processes opening (opening.desk : Desk ι ω σ) ⟨opening.worker, opening.started, []⟩
      .nobody where
  language := rfl
  timeoutMs := rfl
  live := rfl
  cut := by
    intro caller errand begun rest writing
    cases writing
  written := rfl
  state := rfl
  unbroken := by
    intro receipt member
    cases member
  stream := by
    simp [Opening.spoken, Opening.reactions, Processes.reactions, heard, Underway.sent?,
      Opening.desk, Pipes.unread_eq]
  inTurn := ⟨_, _, rfl, rfl, rfl, rfl⟩

/-- What the line in flight is cut into ends with the line break. -/
theorem begun_unbroken (flow : Flow processes opening desk pipes underway) :
    10 ∉ underway.begun := by
  cases underway with
  | nobody => exact List.not_mem_nil
  | waiting caller errand left => exact List.not_mem_nil
  | writing caller errand begun rest =>
      obtain ⟨whole, more⟩ := flow.cut caller errand begun rest rfl
      rw [Errand.line_eq, ← List.dropLast_append_getLast more, ← List.append_assoc] at whole
      have front : begun ++ rest.dropLast = errand.text opening.language :=
        (List.append_inj' whole rfl).1
      intro member
      exact errand.newline_not_mem_text opening.language
        (front ▸ List.mem_append_left _ member)

theorem heard_unbroken (language : String) (taken : List (Receipt ι)) (underway : Underway ι) :
    ∀ line ∈ heard language taken underway, 10 ∉ line := by
  intro line member
  obtain ⟨errand, _, rfl⟩ := List.mem_map.mp member
  exact errand.newline_not_mem_text language

theorem taken_unbroken (flow : Flow processes opening desk pipes underway) :
    ∀ line ∈ desk.taken.map Receipt.line, 10 ∉ line := by
  intro line member
  obtain ⟨receipt, found, rfl⟩ := List.mem_map.mp member
  exact flow.unbroken receipt found

theorem linesOf_written (flow : Flow processes opening desk pipes underway) :
    linesOf desk.written = heard opening.language desk.taken underway := by
  rw [flow.written, linesOf_terminated_append (heard_unbroken _ _ _),
    linesOf_eq_nil flow.begun_unbroken, List.append_nil]

/-- The lines that were taken are the first lines of the output. -/
theorem taken_prefix (flow : Flow processes opening desk pipes underway) :
    desk.taken.map Receipt.line <+: linesOf (opening.spoken processes (linesOf desk.written)) := by
  rw [flow.linesOf_written, flow.stream, linesOf_terminated_append flow.taken_unbroken]
  exact List.prefix_append _ _

/-! ## Steps -/

/-- A caller that takes the lock has its whole line left to write. -/
theorem take (flow : Flow processes opening desk pipes .nobody) (caller : ι) (errand : Errand)
    {next : Desk ι ω σ} (channel : next.channel = desk.channel) (world : next.world = desk.world)
    (written : next.written = desk.written) (taken : next.taken = desk.taken) :
    Flow processes opening next pipes
      (.writing caller errand [] (errand.line opening.language)) := by
  obtain ⟨alone, before, told, sameAhead, sameWorker, sameWorld⟩ := flow.inTurn
  constructor
  case language => rw [channel, flow.language]
  case timeoutMs => rw [channel, flow.timeoutMs]
  case live => rw [channel, flow.live]
  case cut =>
    intro other asked begun rest same
    rw [Underway.writing.injEq] at same
    obtain ⟨-, rfl, rfl, rfl⟩ := same
    exact ⟨List.nil_append _, by simp [Errand.line_eq]⟩
  case written =>
    rw [written, taken]
    exact flow.written
  case state =>
    rw [world, taken]
    exact flow.state
  case unbroken =>
    rw [taken]
    exact flow.unbroken
  case stream =>
    rw [taken]
    exact flow.stream
  case inTurn =>
    rw [taken, world]
    exact ⟨alone, before, told, sameAhead, sameWorker, sameWorld⟩

/-- A chunk that is written goes over to what is begun. -/
theorem write {begun chunk rest : Bytes}
    (flow : Flow processes opening desk pipes (.writing caller errand begun (chunk ++ rest)))
    (more : rest ≠ []) {next : Desk ι ω σ} (channel : next.channel = desk.channel)
    (world : next.world = desk.world) (written : next.written = desk.written ++ chunk)
    (taken : next.taken = desk.taken) :
    Flow processes opening next pipes (.writing caller errand (begun ++ chunk) rest) := by
  obtain ⟨whole, _⟩ := flow.cut _ _ _ _ rfl
  constructor
  case language => rw [channel, flow.language]
  case timeoutMs => rw [channel, flow.timeoutMs]
  case live => rw [channel, flow.live]
  case cut =>
    rintro _ _ _ _ ⟨⟩
    exact ⟨by rw [List.append_assoc, whole], more⟩
  case written =>
    rw [written, flow.written, taken, List.append_assoc]
    rfl
  case state =>
    rw [world, taken]
    exact flow.state
  case unbroken =>
    rw [taken]
    exact flow.unbroken
  case stream =>
    rw [taken]
    exact flow.stream
  case inTurn =>
    rw [taken, world]
    exact flow.inTurn

/-- The last chunk ends the line, and what the worker writes in reaction is ahead. -/
theorem send {begun chunk : Bytes}
    (flow : Flow processes opening desk pipes (.writing caller errand begun chunk))
    (runs : hasEnded pipes.pending = false) {world : ω} {worker : σ} {events : List Event}
    (reaction : processes.receive desk.world pipes.worker (errand.line desk.channel.language) =
      (world, worker, events)) {next : Desk ι ω σ}
    (channel : next.channel = { desk.channel with
      pipes := some ⟨worker, pipes.pending ++ events, pipes.buffered⟩ })
    (now : next.world = world) (written : next.written = desk.written ++ chunk)
    (taken : next.taken = desk.taken) :
    Flow processes opening next ⟨worker, pipes.pending ++ events, pipes.buffered⟩
      (.waiting caller errand desk.channel.timeoutMs) := by
  obtain ⟨whole, _⟩ := flow.cut _ _ _ _ rfl
  obtain ⟨alone, before, told, sameAhead, sameWorker, sameWorld⟩ := flow.inTurn
  rw [flow.language] at reaction
  have longer : heard opening.language desk.taken (.waiting caller errand desk.channel.timeoutMs) =
      heard opening.language desk.taken (.writing caller errand begun chunk) ++
        [errand.text opening.language] := by
    simp [heard, Underway.sent?]
  have ahead : (⟨worker, pipes.pending ++ events, pipes.buffered⟩ : Pipes σ).ahead =
      pipes.ahead ++ deedsOf events := by
    simp [Pipes.ahead, deedsOf_append]
  have reacts : processes.receive
      (opening.after processes
        (heard opening.language desk.taken (.writing caller errand begun chunk))).1
      (opening.after processes
        (heard opening.language desk.taken (.writing caller errand begun chunk))).2
      (errand.text opening.language ++ [10]) = (world, worker, events) := by
    rw [flow.state, ← Errand.line_eq]
    exact reaction
  constructor
  case language => rw [channel, ← flow.language]
  case timeoutMs => rw [channel, ← flow.timeoutMs]
  case live => rw [channel]
  case cut => rintro _ _ _ _ ⟨⟩
  case written =>
    rw [written, flow.written, taken, longer, terminated_concat, ← Errand.line_eq, ← whole]
    simp [Underway.begun]
  case state =>
    rw [taken, longer, opening.after_concat]
    simp only [reacts, now]
  case unbroken =>
    rw [taken]
    exact flow.unbroken
  case stream =>
    rw [taken, longer, opening.spoken_concat, flow.stream, Pipes.unread, Pipes.unread, ahead,
      bytesOf_append]
    simp only [reacts, List.append_assoc]
    rfl
  case inTurn =>
    rw [taken, now]
    refine ⟨alone, before, told, ?_⟩
    rw [Abreast, sameAhead, sameWorker, sameWorld, reaction, ahead, flow.timeoutMs]
    exact ⟨pipes.hasEnded_pending.symm.trans runs, rfl, rfl, rfl⟩

/-- Reading and waiting change nothing as long as the wait still comes to the same. -/
theorem wait {left still : Option Nat}
    (flow : Flow processes opening desk pipes (.waiting caller errand left)) {later : Pipes σ}
    (unread : later.unread = pipes.unread)
    (same : seek still [] later.ahead = seek left [] pipes.ahead)
    (worker : later.worker = pipes.worker) {next : Desk ι ω σ}
    (channel : next.channel = { desk.channel with pipes := some later })
    (world : next.world = desk.world) (written : next.written = desk.written)
    (taken : next.taken = desk.taken) :
    Flow processes opening next later (.waiting caller errand still) := by
  obtain ⟨alone, before, told, runs, sameWorld, sameWorker, brings⟩ := flow.inTurn
  constructor
  case language => rw [channel, ← flow.language]
  case timeoutMs => rw [channel, ← flow.timeoutMs]
  case live => rw [channel]
  case cut => rintro _ _ _ _ ⟨⟩
  case written =>
    rw [written, taken]
    exact flow.written
  case state =>
    rw [world, taken, worker]
    exact flow.state
  case unbroken =>
    rw [taken]
    exact flow.unbroken
  case stream =>
    rw [taken, unread]
    exact flow.stream
  case inTurn =>
    rw [taken, world]
    exact ⟨alone, before, told, runs, sameWorld, sameWorker.trans worker.symm,
      brings.trans same.symm⟩

/-- The line that is taken is what the caller is told when the callers come one after the
other. -/
theorem leave {left : Option Nat} {line rest : Bytes}
    (flow : Flow processes opening desk pipes (.waiting caller errand left))
    (found : takeLine? pipes.buffered = some (line, rest)) {next : Desk ι ω σ}
    (channel : next.channel = { desk.channel with pipes := some { pipes with buffered := rest } })
    (world : next.world = desk.world) (written : next.written = desk.written)
    (taken : next.taken = desk.taken ++ [⟨caller, errand, line⟩]) :
    Flow processes opening next { pipes with buffered := rest } .nobody := by
  obtain ⟨plain, arrived⟩ := takeLine?_eq_some_iff.mp found
  obtain ⟨alone, before, told, runs, sameWorld, sameWorker, brings⟩ := flow.inTurn
  have received : heard opening.language next.taken .nobody =
      heard opening.language desk.taken (.waiting caller errand left) := by
    simp [heard, Underway.sent?, taken]
  have brought : seek left [] pipes.ahead =
      .line line ({ pipes with buffered := rest } : Pipes σ).ahead := by
    rw [Pipes.ahead, arrived, seek_of_line left plain]
    rfl
  constructor
  case language => rw [channel, ← flow.language]
  case timeoutMs => rw [channel, ← flow.timeoutMs]
  case live => rw [channel]
  case cut => rintro _ _ _ _ ⟨⟩
  case written =>
    rw [written, received]
    exact flow.written
  case state =>
    rw [world, received]
    exact flow.state
  case unbroken =>
    rw [taken]
    intro receipt member
    rcases List.mem_append.mp member with old | last
    · exact flow.unbroken receipt old
    · rw [List.mem_singleton.mp last]
      exact plain
  case stream =>
    rw [received, flow.stream, taken, List.map_append, List.map_singleton, terminated_concat,
      Pipes.unread_eq, Pipes.unread_eq, arrived]
    simp
  case inTurn =>
    rw [brought] at brings
    have live : (⟨opening.language, opening.timeoutMs, some alone⟩ : Channel σ).pipes =
        some alone := rfl
    obtain ⟨after, exchanged, itsWorker, itsAhead⟩ :=
      Channel.exchange_of_seek live runs brings
    refine ⟨after, _, ?_, itsAhead, itsWorker.trans sameWorker, sameWorld.trans world.symm⟩
    rw [Opening.inTurn] at told
    rw [taken, Opening.inTurn, List.map_append, List.map_singleton, Errand.performAll_concat, told]
    simp only [Errand.perform_eq, exchanged, List.map_append]
    rfl

end Flow

end Polyglot
