import Polyglot.Proofs.Await

/-!
# Exchanges with a worker

An exchange succeeds exactly when the worker has not ended, and the stream ahead,
followed by the reaction to the request, brings a line in time (`exchange_ok`,
`exchange_of_seek`). It then takes that line and nothing behind it. Every other exchange
gives the worker up (`exchange_error`).

What callers ask of a channel are errands: to send a request, or to run a job. An errand
is one exchange, whose line is reported in one of two ways (`Errand.perform_eq`).
-/

set_option autoImplicit false

namespace Polyglot

open Polyglot.Host (Event)
open Polyglot.Text (Bytes)

variable {ω σ : Type}

/-! ## What a worker receives and writes -/

namespace Processes

/-- The world and a worker after the worker has received some lines. -/
def after (processes : Processes ω σ) (state : ω × σ) (lines : List Bytes) : ω × σ :=
  lines.foldl (fun state line =>
    let reaction := processes.receive state.1 state.2 line
    (reaction.1, reaction.2.1)) state

/-- The output of a worker in reaction to each of some lines. -/
def reactions (processes : Processes ω σ) : ω × σ → List Bytes → List Bytes
  | _, [] => []
  | state, line :: lines =>
    let reaction := processes.receive state.1 state.2 line
    spokenIn reaction.2.2 :: processes.reactions (reaction.1, reaction.2.1) lines

variable (processes : Processes ω σ)

theorem after_concat (state : ω × σ) (lines : List Bytes) (line : Bytes) :
    processes.after state (lines ++ [line]) =
      let before := processes.after state lines
      let reaction := processes.receive before.1 before.2 line
      (reaction.1, reaction.2.1) := by
  rw [after, List.foldl_append]
  rfl

@[simp] theorem length_reactions (state : ω × σ) (lines : List Bytes) :
    (processes.reactions state lines).length = lines.length := by
  induction lines generalizing state with
  | nil => rfl
  | cons line lines ih => simp [reactions, ih]

theorem reactions_concat (state : ω × σ) (lines : List Bytes) (line : Bytes) :
    processes.reactions state (lines ++ [line]) =
      processes.reactions state lines ++
        [spokenIn (processes.receive (processes.after state lines).1
          (processes.after state lines).2 line).2.2] := by
  induction lines generalizing state with
  | nil => rfl
  | cons first lines ih =>
      rw [List.cons_append, reactions, reactions, ih]
      rfl

end Processes

/-! ## Exchanges -/

namespace Channel

variable {processes : Processes ω σ} {channel : Channel σ} {world : ω} {line answer : Bytes}

/-- An exchange takes the line that the stream ahead and the reaction to the request bring. -/
theorem exchange_of_seek {pipes : Pipes σ} {ahead : List Deed} (live : channel.pipes = some pipes)
    (runs : endsNow pipes.ahead = false)
    (found : seek channel.timeoutMs []
      (pipes.ahead ++ deedsOf (processes.receive world pipes.worker line).2.2) =
        .line answer ahead) :
    ∃ left : Pipes σ,
      channel.exchange processes world line =
        (.ok answer, { channel with pipes := some left },
          (processes.receive world pipes.worker line).1) ∧
      left.worker = (processes.receive world pipes.worker line).2.1 ∧ left.ahead = ahead := by
  have shape := sought_await channel.timeoutMs pipes.buffered
    (pipes.pending ++ (processes.receive world pipes.worker line).2.2)
  rw [deedsOf_append, ← List.append_assoc, ← Pipes.ahead, found] at shape
  have running : hasEnded pipes.pending = false := pipes.hasEnded_pending.trans runs
  cases waited : await channel.timeoutMs pipes.buffered
      (pipes.pending ++ (processes.receive world pipes.worker line).2.2) with
  | line bytes buffered pending =>
      rw [waited] at shape
      injection shape with sameLine sameAhead
      subst sameLine
      refine ⟨⟨(processes.receive world pipes.worker line).2.1, pending, buffered⟩, ?_, rfl,
        sameAhead⟩
      simp [exchange, live, running, waited]
  | gone =>
      rw [waited] at shape
      cases shape
  | late =>
      rw [waited] at shape
      cases shape

/-- What a successful exchange tells about the channel: it was live, its worker had not
ended, and its stream brought the line. -/
theorem exchange_ok (answered : (channel.exchange processes world line).1 = .ok answer) :
    ∃ (pipes : Pipes σ) (ahead : List Deed),
      channel.pipes = some pipes ∧ endsNow pipes.ahead = false ∧
      seek channel.timeoutMs []
        (pipes.ahead ++ deedsOf (processes.receive world pipes.worker line).2.2) =
          .line answer ahead := by
  cases live : channel.pipes with
  | none => simp [exchange, live] at answered
  | some pipes =>
      cases running : hasEnded pipes.pending with
      | true => simp [exchange, live, running] at answered
      | false =>
          have shape := sought_await channel.timeoutMs pipes.buffered
            (pipes.pending ++ (processes.receive world pipes.worker line).2.2)
          rw [deedsOf_append, ← List.append_assoc, ← Pipes.ahead] at shape
          cases waited : await channel.timeoutMs pipes.buffered
              (pipes.pending ++ (processes.receive world pipes.worker line).2.2) with
          | line bytes buffered pending =>
              have same : bytes = answer := by
                simpa [exchange, live, running, waited] using answered
              rw [waited, same] at shape
              exact ⟨pipes, _, rfl, pipes.hasEnded_pending.symm.trans running, shape.symm⟩
          | gone => simp [exchange, live, running, waited] at answered
          | late => simp [exchange, live, running, waited] at answered

/-- An exchange that fails leaves a channel that is not live. -/
theorem exchange_error {reason : Failure}
    (failed : (channel.exchange processes world line).1 = .error reason) :
    (channel.exchange processes world line).2.1.pipes = none := by
  cases live : channel.pipes with
  | none => simp [exchange, live]
  | some pipes =>
      cases running : hasEnded pipes.pending with
      | true => simp [exchange, live, running, drop]
      | false =>
          cases waited : await channel.timeoutMs pipes.buffered
              (pipes.pending ++ (processes.receive world pipes.worker line).2.2) with
          | line bytes buffered pending => simp [exchange, live, running, waited] at failed
          | gone => simp [exchange, live, running, waited, drop]
          | late => simp [exchange, live, running, waited, drop]

/-- An exchange keeps the language of the channel. -/
theorem exchange_language :
    (channel.exchange processes world line).2.1.language = channel.language := by
  simp only [exchange]
  repeat' split
  all_goals rfl

/-- An exchange never revives a channel. -/
theorem isLive_of_exchange (live : (channel.exchange processes world line).2.1.isLive = true) :
    channel.isLive = true := by
  cases pipes : channel.pipes with
  | none => simp [exchange, pipes, isLive] at live
  | some pipes => simp [isLive, pipes]

end Channel

/-! ## Errands -/

/-- What a caller asks of a channel. -/
inductive Errand where
  /-- To send a request. -/
  | submit (request : Request)
  /-- To run a job. -/
  | execute (job : Job)

/-- What a caller is told. -/
inductive Report where
  /-- The reply to a request. -/
  | reply (answer : Except Failure Reply)
  /-- The output of a job. -/
  | output (answer : Except Failure String)

namespace Errand

/-- The request that is sent on an errand. -/
def request (language : String) : Errand → Request
  | .submit request => request
  | .execute job => Request.ofJob language job

/-- The text of the request that is sent on an errand. -/
def text (language : String) (errand : Errand) : Bytes :=
  Text.utf8 (errand.request language).render

/-- The line that is written on an errand. -/
def line (language : String) (errand : Errand) : Bytes :=
  (errand.request language).line

/-- What is reported when an exchange has come to a line or has failed. -/
def report (language : String) (answer : Except Failure Bytes) : Errand → Report
  | .submit _ => .reply (answer.bind (Channel.replyOf language))
  | .execute _ => .output ((answer.bind (Channel.replyOf language)).bind Reply.output)

/-- Goes on an errand when no other one is under way. -/
def perform (processes : Processes ω σ) (channel : Channel σ) (world : ω) :
    Errand → Report × Channel σ × ω
  | .submit request =>
    let (answer, channel, world) := channel.submit processes world request
    (.reply answer, channel, world)
  | .execute job =>
    let (answer, channel, world) := channel.execute processes world job
    (.output answer, channel, world)

/-- Goes on some errands, one after the other. -/
def performAll (processes : Processes ω σ) :
    Channel σ → ω → List Errand → List Report × Channel σ × ω
  | channel, world, [] => ([], channel, world)
  | channel, world, errand :: errands =>
    let first := errand.perform processes channel world
    let others := performAll processes first.2.1 first.2.2 errands
    (first.1 :: others.1, others.2)

/-- The line of an errand is the text of its request and one line break. -/
theorem line_eq (language : String) (errand : Errand) :
    errand.line language = errand.text language ++ [10] := rfl

theorem newline_not_mem_text (language : String) (errand : Errand) :
    10 ∉ errand.text language :=
  (errand.request language).newline_not_mem_render

/-- An errand is one exchange, and a report of what it came to. -/
theorem perform_eq (processes : Processes ω σ) (channel : Channel σ) (world : ω)
    (errand : Errand) :
    errand.perform processes channel world =
      ((errand.report channel.language
          (channel.exchange processes world (errand.line channel.language)).1),
        (channel.exchange processes world (errand.line channel.language)).2) := by
  cases errand with
  | submit request =>
      simp only [perform, Channel.submit, report, line, Errand.request, Channel.exchange_language]
  | execute job =>
      simp only [perform, Channel.execute, Channel.submit, report, line, Errand.request,
        Channel.exchange_language]

theorem performAll_concat (processes : Processes ω σ) (channel : Channel σ) (world : ω)
    (errands : List Errand) (errand : Errand) :
    performAll processes channel world (errands ++ [errand]) =
      let before := performAll processes channel world errands
      let last := errand.perform processes before.2.1 before.2.2
      (before.1 ++ [last.1], last.2) := by
  induction errands generalizing channel world with
  | nil => rfl
  | cons first errands ih =>
      simp only [List.cons_append, performAll, ih]

end Errand

end Polyglot
