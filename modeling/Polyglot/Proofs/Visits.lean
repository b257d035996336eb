import Polyglot.Proofs.Exchange

/-!
# Channels that are given up

Whoever holds a channel goes on errands, asks whether the worker is running, closes the
channel, or does nothing for a while, in any order and as often as he likes. Each of these
visits comes to a notice. Some notices tell that the worker has been given up: that it is
dead, that it has not answered in time, that it is not running, or that the channel was
closed.

The notice says whether the channel is live (`Visit.isLive_perform`): a channel is live
until the first notice of that kind. After it, every visit is turned away and nothing
changes any more (`Visit.performAll_of_not_isLive`). Every other errand has taken exactly
one line, whatever bytes the line holds (`Visit.exists_line_of_go`).
-/

set_option autoImplicit false

namespace Polyglot

open Polyglot.Host (Event)
open Polyglot.Text (Bytes)

variable {ω σ : Type}

/-! ## Time that passes -/

/-- What nobody has noticed of a worker, when some time has passed. -/
def elapsed : Nat → List Event → List Event
  | _, [] => []
  | time, .output bytes :: events => .output bytes :: elapsed time events
  | time, .pause milliseconds :: events =>
    if milliseconds ≤ time then elapsed (time - milliseconds) events
    else .pause (milliseconds - time) :: events
  | _, .ended exit :: events => .ended exit :: events

/-- A channel that nobody visits for some milliseconds. -/
def Channel.rest (milliseconds : Nat) (channel : Channel σ) : Channel σ :=
  { channel with pipes := channel.pipes.map fun pipes =>
      { pipes with pending := elapsed milliseconds pipes.pending } }

/-! ## Visits and their notices -/

/-- What is done with a channel. -/
inductive Visit where
  /-- To go on an errand. -/
  | go (errand : Errand)
  /-- To ask whether the worker is running. -/
  | inquire
  /-- To close the channel. -/
  | close
  /-- To do nothing for some milliseconds. -/
  | rest (milliseconds : Nat)

/-- What a visit comes to. -/
inductive Notice where
  /-- What is reported of an errand. -/
  | report (report : Report)
  /-- Whether the worker is running. -/
  | running (answer : Bool)
  /-- That the channel was closed. -/
  | closed
  /-- That time has passed. -/
  | passed

/-- A failure for which a worker is given up. -/
def Failure.endsChannel : Failure → Bool
  | .workerDead _ | .timeout _ => true
  | _ => false

/-- Whether a notice tells that the worker has been given up. -/
def Notice.tellsEnd : Notice → Bool
  | .report (.reply (.error reason)) => reason.endsChannel
  | .report (.output (.error reason)) => reason.endsChannel
  | .report (.reply (.ok _)) => false
  | .report (.output (.ok _)) => false
  | .running answer => !answer
  | .closed => true
  | .passed => false

namespace Visit

/-- Visits a channel. -/
def perform (processes : Processes ω σ) (channel : Channel σ) (world : ω) :
    Visit → Notice × Channel σ × ω
  | .go errand =>
    let (report, channel, world) := errand.perform processes channel world
    (.report report, channel, world)
  | .inquire =>
    let (answer, channel) := channel.isAlive
    (.running answer, channel, world)
  | .close =>
    let (channel, world) := channel.close processes world
    (.closed, channel, world)
  | .rest milliseconds => (.passed, channel.rest milliseconds, world)

/-- Visits a channel several times. -/
def performAll (processes : Processes ω σ) :
    Channel σ → ω → List Visit → List Notice × Channel σ × ω
  | channel, world, [] => ([], channel, world)
  | channel, world, visit :: visits =>
    let first := visit.perform processes channel world
    let others := performAll processes first.2.1 first.2.2 visits
    (first.1 :: others.1, others.2)

/-- What a visit to a channel comes to whose worker was given up. -/
def refusal (language : String) : Visit → Notice
  | .go (.submit _) => .report (.reply (.error (.workerDead language)))
  | .go (.execute _) => .report (.output (.error (.workerDead language)))
  | .inquire => .running false
  | .close => .closed
  | .rest _ => .passed

end Visit

/-! ## What an errand reports -/

/-- A line that is no reply, and a reply without output, do not end a channel. -/
theorem Errand.not_tellsEnd_report (language : String) (line : Bytes) (errand : Errand) :
    (Notice.report (errand.report language (.ok line))).tellsEnd = false := by
  have noEnd : ∀ reason, Channel.replyOf language line = .error reason →
      reason.endsChannel = false := by
    intro reason failed
    unfold Channel.replyOf at failed
    split at failed
    · cases failed
    · cases failed
      rfl
  cases read : Channel.replyOf language line with
  | error reason =>
      cases errand with
      | submit request => simpa [report, read, Except.bind, Notice.tellsEnd] using noEnd reason read
      | execute job => simpa [report, read, Except.bind, Notice.tellsEnd] using noEnd reason read
  | ok reply =>
      cases errand with
      | submit request => simp [report, read, Except.bind, Notice.tellsEnd]
      | execute job =>
          simp only [report, read, Except.bind, Reply.output]
          cases reply.exception with
          | some text => rfl
          | none =>
              cases reply.result with
              | some output => rfl
              | none => rfl

theorem Errand.tellsEnd_report_error (language : String) (reason : Failure) (errand : Errand) :
    (Notice.report (errand.report language (.error reason))).tellsEnd = reason.endsChannel := by
  cases errand with
  | submit request => rfl
  | execute job => rfl

namespace Channel

variable {processes : Processes ω σ} {channel : Channel σ} {world : ω} {line : Bytes}

theorem endsChannel_of_exchange {reason : Failure}
    (failed : (channel.exchange processes world line).1 = .error reason) :
    reason.endsChannel = true := by
  unfold exchange at failed
  split at failed
  · cases failed
    rfl
  · split at failed
    · cases failed
      rfl
    · dsimp only at failed
      split at failed
      · cases failed
      · cases failed
        rfl
      · cases failed
        rfl

/-- An exchange with a channel that is not live writes nothing and changes nothing. -/
theorem exchange_of_not_isLive (gone : channel.isLive = false) :
    channel.exchange processes world line =
      (.error (.workerDead channel.language), channel, world) := by
  have none : channel.pipes = none := by
    simpa [isLive] using gone
  rw [exchange, none]

/-- An exchange that comes to a line leaves a live channel, and takes exactly that line of
the output that is left and of the reaction to the request. -/
theorem exists_of_exchange_ok {answer : Bytes}
    (answered : (channel.exchange processes world line).1 = .ok answer) :
    ∃ pipes left : Pipes σ, channel.pipes = some pipes ∧
      (channel.exchange processes world line).2 =
        ({ channel with pipes := some left }, (processes.receive world pipes.worker line).1) ∧
      left.worker = (processes.receive world pipes.worker line).2.1 ∧ 10 ∉ answer ∧
      pipes.unread ++ spokenIn (processes.receive world pipes.worker line).2.2 =
        answer ++ 10 :: left.unread := by
  obtain ⟨pipes, ahead, live, runs, found⟩ := exchange_ok answered
  obtain ⟨left, exchanged, worker, leftAhead⟩ := exchange_of_seek live runs found
  obtain ⟨plain, cut⟩ := bytes_of_seek List.not_mem_nil found
  refine ⟨pipes, left, live, by rw [exchanged], worker, plain, ?_⟩
  rw [List.nil_append, bytesOf_append] at cut
  rw [Pipes.unread, Pipes.unread, leftAhead]
  exact cut

end Channel

namespace Visit

variable {processes : Processes ω σ} {channel : Channel σ} {world : ω}

/-! ## One visit -/

theorem perform_go (processes : Processes ω σ) (channel : Channel σ) (world : ω)
    (errand : Errand) :
    perform processes channel world (.go errand) =
      (.report (errand.report channel.language
          (channel.exchange processes world (errand.line channel.language)).1),
        (channel.exchange processes world (errand.line channel.language)).2) := by
  rw [perform, errand.perform_eq]

theorem language_perform (processes : Processes ω σ) (channel : Channel σ) (world : ω)
    (visit : Visit) : (visit.perform processes channel world).2.1.language = channel.language := by
  cases visit with
  | go errand =>
      rw [perform_go]
      exact Channel.exchange_language
  | inquire =>
      simp only [perform, Channel.isAlive]
      split
      · rfl
      · split
        · rfl
        · rfl
  | close =>
      simp only [perform, Channel.close]
      split
      · rfl
      · rfl
  | rest milliseconds => rfl

/-- **The notice of a visit tells whether the channel is still live.** -/
theorem isLive_perform (processes : Processes ω σ) (channel : Channel σ) (world : ω)
    (visit : Visit) :
    (visit.perform processes channel world).2.1.isLive =
      (channel.isLive && !(visit.perform processes channel world).1.tellsEnd) := by
  cases visit with
  | go errand =>
      rw [perform_go]
      cases outcome : (channel.exchange processes world (errand.line channel.language)).1 with
      | ok line =>
          obtain ⟨pipes, left, live, after, _⟩ := Channel.exists_of_exchange_ok outcome
          simp only [errand.not_tellsEnd_report, after, Channel.isLive, live]
          rfl
      | error reason =>
          have gone := Channel.exchange_error outcome
          simp only [errand.tellsEnd_report_error, Channel.endsChannel_of_exchange outcome,
            Channel.isLive, gone]
          simp
  | inquire =>
      simp only [perform, Channel.isAlive]
      cases live : channel.pipes with
      | none => simp [Channel.isLive, live]
      | some pipes =>
          cases running : hasEnded pipes.pending with
          | true => simp [running, Channel.isLive, Channel.drop, Notice.tellsEnd]
          | false => simp [running, Channel.isLive, live, Notice.tellsEnd]
  | close =>
      simp only [perform, Channel.close]
      cases live : channel.pipes with
      | none => simp [Channel.isLive, live]
      | some pipes => simp [Channel.isLive, Channel.drop, Notice.tellsEnd]
  | rest milliseconds => simp [perform, Channel.rest, Channel.isLive, Notice.tellsEnd]

theorem perform_of_not_isLive (gone : channel.isLive = false) (visit : Visit) :
    visit.perform processes channel world = (visit.refusal channel.language, channel, world) := by
  have none : channel.pipes = none := by
    simpa [Channel.isLive] using gone
  cases visit with
  | go errand =>
      rw [perform_go, Channel.exchange_of_not_isLive gone]
      cases errand with
      | submit request => rfl
      | execute job => rfl
  | inquire => simp only [perform, Channel.isAlive, none, refusal]
  | close => simp only [perform, Channel.close, none, refusal]
  | rest milliseconds =>
      obtain ⟨language, timeoutMs, pipes⟩ := channel
      subst none
      rfl

/-- An errand that does not end the channel has taken one line. -/
theorem exists_line_of_go {errand : Errand}
    (goes_on : (perform processes channel world (.go errand)).1.tellsEnd = false) :
    ∃ (pipes left : Pipes σ) (line : Bytes), channel.pipes = some pipes ∧
      perform processes channel world (.go errand) =
        (.report (errand.report channel.language (.ok line)), { channel with pipes := some left },
          (processes.receive world pipes.worker (errand.line channel.language)).1) ∧
      left.worker =
        (processes.receive world pipes.worker (errand.line channel.language)).2.1 ∧
      10 ∉ line ∧
      pipes.unread ++
          spokenIn (processes.receive world pipes.worker (errand.line channel.language)).2.2 =
        line ++ 10 :: left.unread := by
  rw [perform_go] at goes_on ⊢
  cases outcome : (channel.exchange processes world (errand.line channel.language)).1 with
  | error reason =>
      rw [outcome, errand.tellsEnd_report_error, Channel.endsChannel_of_exchange outcome] at goes_on
      cases goes_on
  | ok line =>
      obtain ⟨pipes, left, live, after, worker, plain, cut⟩ := Channel.exists_of_exchange_ok outcome
      exact ⟨pipes, left, line, live, by rw [after], worker, plain, cut⟩

/-! ## Any number of visits -/

theorem language_performAll (processes : Processes ω σ) (channel : Channel σ) (world : ω)
    (visits : List Visit) :
    (performAll processes channel world visits).2.1.language = channel.language := by
  induction visits generalizing channel world with
  | nil => rfl
  | cons visit visits ih =>
      rw [performAll]
      exact (ih _ _).trans (language_perform processes channel world visit)

/-- A channel that is not live turns all visits away, and nothing changes. -/
theorem performAll_of_not_isLive (gone : channel.isLive = false) (visits : List Visit) :
    performAll processes channel world visits =
      (visits.map (refusal channel.language), channel, world) := by
  induction visits with
  | nil => rfl
  | cons visit visits ih =>
      rw [performAll, perform_of_not_isLive gone, ih]
      rfl

/-- **A worker that was given up stays given up, and a bad answer gives no worker up.** Let
a channel be visited any number of times. The notice of a visit tells whether the channel
is live after it. When it is not, all later visits are turned away with the language of
the channel, and neither the channel nor the world changes, so that nothing is written to
the worker. An errand with any other notice leaves a live channel of which exactly one
line was taken: the next one of the output that was left and of the reaction to the line
of the errand. -/
theorem given_up_for_good (processes : Processes ω σ) (channel : Channel σ) (world : ω)
    (earlier later : List Visit) (visit : Visit) :
    let before := performAll processes channel world earlier
    let now := visit.perform processes before.2.1 before.2.2
    now.2.1.isLive = (before.2.1.isLive && !now.1.tellsEnd) ∧
    (now.1.tellsEnd = true → performAll processes now.2.1 now.2.2 later =
      (later.map (refusal channel.language), now.2)) ∧
    (∀ errand, visit = .go errand → now.1.tellsEnd = false →
      ∃ (pipes left : Pipes σ) (line : Bytes), before.2.1.pipes = some pipes ∧
        now = (.report (errand.report channel.language (.ok line)),
          { before.2.1 with pipes := some left },
          (processes.receive before.2.2 pipes.worker (errand.line channel.language)).1) ∧
        left.worker =
          (processes.receive before.2.2 pipes.worker (errand.line channel.language)).2.1 ∧
        10 ∉ line ∧
        pipes.unread ++ spokenIn
            (processes.receive before.2.2 pipes.worker (errand.line channel.language)).2.2 =
          line ++ 10 :: left.unread) := by
  intro before now
  have language : before.2.1.language = channel.language :=
    language_performAll processes channel world earlier
  have live := isLive_perform processes before.2.1 before.2.2 visit
  refine ⟨live, fun ended => ?_, ?_⟩
  · have gone : now.2.1.isLive = false := by
      rw [live, ended, Bool.not_true, Bool.and_false]
    rw [performAll_of_not_isLive gone, language_perform, language]
  · rintro errand rfl goes_on
    rw [← language]
    exact exists_line_of_go goes_on

/-- A worker that answers its first line by no reply and ends after the second, in a world
that records every line. -/
def mumbling : Processes (List Bytes) Bool where
  resolve _ program _ := some program
  launch record _ _ _ := .ok (record, true, [])
  receive record first line :=
    (record ++ [line], false,
      if first then [.output (Text.utf8 "no reply\n")] else [.ended (.status 0)])
  finish record first := (record, first, [.ended (.status 0)])

/-- The channel to such a worker when it was started. -/
def mumblingChannel : Channel Bool :=
  ⟨"p", none, some ⟨true, [], []⟩⟩

/-- To run some code without anything that goes with it. -/
def trial (code : String) : Visit :=
  .go (.execute ⟨"caller", code, "", "", ""⟩)

/-- The answer to the first visit is no reply and leaves the channel live, with its line
taken. The second visit finds the worker dead, and the later ones write nothing. -/
theorem given_up_for_good_mumbling :
    Channel.spawn mumbling [] "p" ["worker"] "/" none = (.ok mumblingChannel, []) ∧
    let first := (trial "1").perform mumbling mumblingChannel []
    let second := (trial "2").perform mumbling first.2.1 first.2.2
    first.1.tellsEnd = false ∧ first.2.1.isLive = true ∧
    (∃ (left : Pipes Bool) (line : Bytes), first.2.1.pipes = some left ∧
      Text.utf8 "no reply\n" = line ++ 10 :: left.unread) ∧
    second.1.tellsEnd = true ∧
    performAll mumbling second.2.1 second.2.2 [trial "3", .inquire] =
      ([.report (.output (.error (.workerDead "p"))), .running false], second.2) := by
  have goes_on : ((trial "1").perform mumbling mumblingChannel []).1.tellsEnd = false := by
    decide +kernel
  have ended : ((trial "2").perform mumbling
      ((trial "1").perform mumbling mumblingChannel []).2.1
      ((trial "1").perform mumbling mumblingChannel []).2.2).1.tellsEnd = true := by
    decide +kernel
  refine ⟨rfl, ?_⟩
  intro first second
  obtain ⟨live, _, taken⟩ := given_up_for_good mumbling mumblingChannel [] [] [] (trial "1")
  obtain ⟨_, turnedAway, _⟩ :=
    given_up_for_good mumbling mumblingChannel [] [trial "1"] [trial "3", .inquire] (trial "2")
  obtain ⟨pipes, left, line, before, now, _, _, cut⟩ := taken _ rfl goes_on
  obtain rfl : ⟨true, [], []⟩ = pipes := Option.some.inj before
  refine ⟨goes_on, ?_, ⟨left, line, ?_, cut⟩, ended, turnedAway ended⟩
  · exact live.trans (congrArg (fun ended => true && !ended) goes_on)
  · exact congrArg (fun outcome => outcome.2.1.pipes) now

end Visit

end Polyglot
