import Mathlib
import Polyglot.Proofs.Pairing

/-!
# Output that was left over

A channel takes the next line of the worker's output, whenever the line was written.
Output that nobody took before a request was written is therefore the beginning of the
answer to that request, and the answer is free of earlier output exactly when the earlier
answers have used all of it up. They have, when the worker writes nothing unasked and one
line in reaction to each line. They have not, when the worker greets its callers or reacts
to a line by two.

The errands of a run that leaves the channel live were all answered (`Settled`); each of
them took the next line of what was left over and of the reaction to it
(`Settled.concat`).
-/

set_option autoImplicit false

namespace Polyglot

open Polyglot.Host (Event)
open Polyglot.Text (Bytes)

variable {ω σ : Type}

/-! ## Errands that were all answered -/

namespace Channel

variable {processes : Processes ω σ} {channel : Channel σ} {world : ω} {line : Bytes}

/-- An exchange that leaves a live channel has come to a line. -/
theorem exchange_of_isLive (live : (channel.exchange processes world line).2.1.isLive = true) :
    ∃ answer, (channel.exchange processes world line).1 = .ok answer := by
  cases outcome : (channel.exchange processes world line).1 with
  | ok answer => exact ⟨answer, rfl⟩
  | error reason =>
      rw [isLive, exchange_error outcome] at live
      cases live

end Channel

/-- Some errands were answered one after the other, each by one of some lines. -/
structure Settled (processes : Processes ω σ) (opening : Opening ω σ) (errands : List Errand)
    (lines : List Bytes) (pipes : Pipes σ) (world : ω) : Prop where
  outcome : opening.inTurn processes errands =
    (List.zipWith (fun errand line => errand.report opening.language (.ok line)) errands lines,
      ⟨opening.language, opening.timeoutMs, some pipes⟩, world)
  count : lines.length = errands.length
  unbroken : ∀ line ∈ lines, 10 ∉ line
  state : opening.after processes (errands.map (Errand.text opening.language)) =
    (world, pipes.worker)
  /-- What the worker wrote is what was taken, and behind it what is left over. -/
  stream : opening.spoken processes (errands.map (Errand.text opening.language)) =
    terminated lines ++ pipes.unread

namespace Settled

variable {processes : Processes ω σ} {opening : Opening ω σ} {errands : List Errand}
variable {lines : List Bytes} {pipes : Pipes σ} {world : ω}

theorem initial (processes : Processes ω σ) (opening : Opening ω σ) :
    Settled processes opening [] [] ⟨opening.worker, opening.started, []⟩ opening.world where
  outcome := rfl
  count := rfl
  unbroken := List.forall_mem_nil _
  state := rfl
  stream := by
    simp [Opening.spoken, Opening.reactions, Processes.reactions, Pipes.unread_eq]

/-- One more errand takes the next line of what is left over and of the reaction to it. -/
theorem concat (settled : Settled processes opening errands lines pipes world) {errand : Errand}
    {line : Bytes}
    (answered : ((⟨opening.language, opening.timeoutMs, some pipes⟩ : Channel σ).exchange processes
      world (errand.line opening.language)).1 = .ok line) :
    ∃ later now, Settled processes opening (errands ++ [errand]) (lines ++ [line]) later now ∧
      10 ∉ line ∧
      pipes.unread ++
          spokenIn (processes.receive world pipes.worker (errand.line opening.language)).2.2 =
        line ++ 10 :: later.unread := by
  obtain ⟨same, ahead, live, runs, found⟩ := Channel.exchange_ok answered
  obtain rfl : pipes = same := Option.some.inj live
  obtain ⟨later, exchanged, worker, laterAhead⟩ := Channel.exchange_of_seek live runs found
  obtain ⟨plain, bytes⟩ := bytes_of_seek List.not_mem_nil found
  have cut : pipes.unread ++
      spokenIn (processes.receive world pipes.worker (errand.line opening.language)).2.2 =
        line ++ 10 :: later.unread := by
    rw [List.nil_append, bytesOf_append] at bytes
    rw [Pipes.unread, Pipes.unread, laterAhead]
    exact bytes
  refine ⟨later, (processes.receive world pipes.worker (errand.line opening.language)).1,
    ⟨?_, ?_, ?_, ?_, ?_⟩, plain, cut⟩
  · have outcome := settled.outcome
    rw [Opening.inTurn] at outcome
    rw [Opening.inTurn, Errand.performAll_concat, outcome,
      List.zipWith_append settled.count.symm]
    simp only [Errand.perform_eq, exchanged]
    rfl
  · simp [settled.count]
  · exact List.forall_mem_append.mpr ⟨settled.unbroken, List.forall_mem_singleton.mpr plain⟩
  · rw [List.map_append, List.map_singleton, opening.after_concat, settled.state,
      ← Errand.line_eq]
    exact Prod.ext rfl worker.symm
  · rw [List.map_append, List.map_singleton, opening.spoken_concat, settled.stream,
      settled.state, ← Errand.line_eq, terminated_concat]
    simp only [List.append_assoc, cut, List.singleton_append]

/-- As long as the channel is live, every errand was answered. -/
theorem of_isLive (live : (opening.inTurn processes errands).2.1.isLive = true) :
    ∃ lines pipes world, Settled processes opening errands lines pipes world := by
  induction errands using List.reverseRecOn with
  | nil => exact ⟨_, _, _, initial processes opening⟩
  | append_singleton errands errand ih =>
      rw [Opening.inTurn, Errand.performAll_concat] at live
      simp only [Errand.perform_eq] at live
      obtain ⟨lines, pipes, world, settled⟩ := ih (Channel.isLive_of_exchange live)
      have outcome := settled.outcome
      rw [Opening.inTurn] at outcome
      rw [outcome] at live
      obtain ⟨line, answered⟩ := Channel.exchange_of_isLive live
      obtain ⟨later, now, more, _⟩ := settled.concat answered
      exact ⟨_, _, _, more⟩

end Settled

/-! ## Where an answer comes from -/

/-- A line that is taken from some bytes and the bytes behind them takes the first as long
as there are any. -/
theorem exists_parts_of_append {stale fresh taken rest : Bytes}
    (cut : stale ++ fresh = taken ++ rest) :
    ∃ old new kept more, taken = old ++ new ∧ stale = old ++ kept ∧ fresh = new ++ more ∧
      rest = kept ++ more ∧ (kept = [] ∨ new = []) := by
  rcases List.append_eq_append_iff.mp cut with ⟨new, whole, behind⟩ | ⟨kept, before, after⟩
  · exact ⟨stale, new, [], rest, whole, (List.append_nil stale).symm, behind, rfl, .inl rfl⟩
  · exact ⟨taken, [], kept, fresh, (List.append_nil taken).symm, before, rfl, after, .inr rfl⟩

/-- **An answer begins with the output that was left over.** For every worker, and after
any errands, let one more errand be answered. Of the line that it takes, `old` was written
before the line of the errand was, and `new` in reaction to that line. Nothing is old
exactly when the earlier answers have used up all that was written before; and with a
worker that writes nothing unasked and one line in reaction to each line, nothing ever is,
and the whole reaction is taken. -/
theorem reply_begins_with_leftover (processes : Processes ω σ) (opening : Opening ω σ)
    (earlier : List Errand) (errand : Errand)
    (live : (opening.inTurn processes (earlier ++ [errand])).2.1.isLive = true) :
    ∃ (lines : List Bytes) (line old new kept more : Bytes),
      lines.length = earlier.length ∧
      (opening.inTurn processes (earlier ++ [errand])).1 =
        List.zipWith (fun errand line => errand.report opening.language (.ok line))
          (earlier ++ [errand]) (lines ++ [line]) ∧
      (∀ one ∈ lines ++ [line], 10 ∉ one) ∧ line ++ [10] = old ++ new ∧
      opening.spoken processes (earlier.map (Errand.text opening.language)) =
        terminated lines ++ (old ++ kept) ∧
      opening.reactions processes ((earlier ++ [errand]).map (Errand.text opening.language)) =
        opening.reactions processes (earlier.map (Errand.text opening.language)) ++
          [new ++ more] ∧
      (kept = [] ∨ new = []) ∧
      (old = [] ↔ opening.spoken processes (earlier.map (Errand.text opening.language)) =
        terminated lines) ∧
      (opening.Orderly processes → old = [] ∧ more = []) := by
  have before := live
  rw [Opening.inTurn, Errand.performAll_concat] at before
  simp only [Errand.perform_eq] at before
  obtain ⟨lines, pipes, world, settled⟩ :=
    Settled.of_isLive (Channel.isLive_of_exchange before)
  have outcome := settled.outcome
  rw [Opening.inTurn] at outcome
  rw [outcome] at before
  obtain ⟨line, answered⟩ := Channel.exchange_of_isLive before
  obtain ⟨later, now, after, plain, cut⟩ := settled.concat answered
  rw [List.append_cons] at cut
  obtain ⟨old, new, kept, more, whole, stale, fresh, rest, order⟩ := exists_parts_of_append cut
  have stream := settled.stream
  rw [stale] at stream
  have texts : ∀ errands : List Errand,
      ∀ text ∈ errands.map (Errand.text opening.language), 10 ∉ text := by
    intro errands text member
    obtain ⟨errand, _, rfl⟩ := List.mem_map.mp member
    exact errand.newline_not_mem_text opening.language
  refine ⟨lines, line, old, new, kept, more, settled.count, ?_, after.unbroken, whole, stream, ?_,
    order, ?_, ?_⟩
  · rw [after.outcome]
  · rw [List.map_append, List.map_singleton, opening.reactions_concat, settled.state,
      ← Errand.line_eq, ← fresh]
  · rw [stream, List.append_right_eq_self, List.append_eq_nil_iff]
    constructor
    · rintro rfl
      refine ⟨rfl, order.resolve_right ?_⟩
      rintro rfl
      simp at whole
    · exact And.left
  · intro orderly
    obtain ⟨none, count, unread, _⟩ :=
      orderly.exists_answers (texts _) settled.unbroken settled.stream
    obtain ⟨still, laterCount, laterUnread, _⟩ :=
      orderly.exists_answers (texts _) after.unbroken after.stream
    have empty : none = [] := by
      simpa [settled.count] using count
    have stillEmpty : still = [] := by
      simpa [after.count] using laterCount
    rw [empty, stale] at unread
    rw [stillEmpty, rest] at laterUnread
    exact ⟨(List.append_eq_nil_iff.mp unread).1, (List.append_eq_nil_iff.mp laterUnread).2⟩

/-- A worker that answers each line by the next of some texts, and ends after the last. -/
def scripted : Processes Unit (List String) where
  resolve _ program _ := some program
  launch _ _ _ _ := .ok ((), [], [])
  receive _ texts _ :=
    match texts with
    | [] => ((), [], [.ended (.status 0)])
    | text :: texts => ((), texts, [.output (Text.utf8 (text ++ "\n"))])
  finish _ texts := ((), texts, [.ended (.status 0)])

/-- A channel to a worker that answers its first line by two. -/
def talkative : Opening Unit (List String) where
  language := "p"
  timeoutMs := some 5000
  world := ()
  worker := ["\x7b\"result\":\"a\"\x7d\n\x7b\"result\":\"b\"\x7d", "\x7b\"result\":\"c\"\x7d"]
  started := []

/-- To run some code without anything that goes with it. -/
def snippet (code : String) : Errand :=
  .execute ⟨"caller", code, "", "", ""⟩

/-- With such a worker, the answer to the second job begins with earlier output. -/
theorem reply_begins_with_leftover_talkative :
    (talkative.inTurn scripted [snippet "1", snippet "2"]).2.1.isLive = true ∧
    ∃ (line old new : Bytes), line ++ [10] = old ++ new ∧ old ≠ [] ∧
      (talkative.inTurn scripted [snippet "1", snippet "2"]).1[1]? =
        some ((snippet "2").report "p" (.ok line)) := by
  have live : (talkative.inTurn scripted [snippet "1", snippet "2"]).2.1.isLive = true := by cbv
  obtain ⟨lines, line, old, new, kept, more, count, told, unbroken, whole, _, _, _, fresh, _⟩ :=
    reply_begins_with_leftover scripted talkative [snippet "1"] (snippet "2") live
  refine ⟨live, line, old, new, whole, ?_, ?_⟩
  · intro none
    -- The worker has written two lines by then, and only one was taken.
    have spoken := congrArg linesOf (fresh.mp none)
    rw [linesOf_terminated fun one member => unbroken one (List.mem_append_left _ member)] at spoken
    have two : (linesOf (talkative.spoken scripted [(snippet "1").text "p"])).length = 2 := by rfl
    have one : (linesOf (talkative.spoken scripted [(snippet "1").text "p"])).length = 1 :=
      (congrArg List.length spoken).trans count
    omega
  · obtain ⟨taken, rfl⟩ := List.length_eq_one_iff.mp count
    exact congrArg (fun reports => reports[1]?) told

/-- The second of two jobs is told what the worker wrote before it received the job. -/
theorem second_line_reaches_next_job :
    talkative.spoken scripted [(snippet "1").text "p"] =
      Text.utf8 "\x7b\"result\":\"a\"\x7d\n\x7b\"result\":\"b\"\x7d\n" ∧
    (talkative.inTurn scripted [snippet "1", snippet "2"]).1 =
      [.output (.ok "a"), .output (.ok "b")] := by
  refine ⟨by rfl, ?_⟩
  cbv

end Polyglot
