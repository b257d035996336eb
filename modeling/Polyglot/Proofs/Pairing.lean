import Polyglot.Proofs.Flow

/-!
# Replies pair with requests

Whatever the worker does, and in whatever order the steps of the callers come, a live
channel has at most one request in flight, the worker has received the admitted requests
in the order in which the lock was taken, and the callers have taken the worker's lines
one by one in the same order (`Paired`). A worker that answers every line by one line
therefore answers every caller (`Answered`), and no caller waits for ever
(`Reached.exists_works`).
-/

set_option autoImplicit false

namespace Polyglot

open Polyglot.Host (Event)
open Polyglot.Text (Bytes)

variable {ι ω σ : Type}

/-! ## The invariant -/

/-- What holds at a desk whose channel is not live. -/
structure Closed (processes : Processes ω σ) (opening : Opening ω σ) (desk : Desk ι ω σ) :
    Prop where
  language : desk.channel.language = opening.language
  gone : desk.channel.pipes = none
  free : desk.owner = none
  idle : ∀ caller, (desk.stage caller).inFlight = false
  order : desk.taken.map Receipt.entry <+: desk.admitted
  once : (desk.admitted.map Prod.fst).Nodup
  lines : desk.taken.map Receipt.line <+: linesOf (opening.spoken processes (linesOf desk.written))
  told : ∀ caller report, desk.stage caller = .served report →
    (∃ receipt ∈ desk.taken, receipt.caller = caller ∧
      report = receipt.report opening.language) ∨
    ∃ errand reason, report = Errand.report opening.language (.error reason) errand

/-- What holds at every desk that a run leads to. -/
inductive Reached (processes : Processes ω σ) (opening : Opening ω σ) (desk : Desk ι ω σ) :
    Prop where
  | live {pipes : Pipes σ} {underway : Underway ι}
      (lineup : Lineup opening.language desk underway)
      (flow : Flow processes opening desk pipes underway)
  | closed (closed : Closed processes opening desk)

namespace Closed

variable [DecidableEq ι] {processes : Processes ω σ} {opening : Opening ω σ}
variable {desk next : Desk ι ω σ} {caller : ι} {errand : Errand}

/-- A caller that finds the worker gone gives the channel up. -/
theorem of_abandon {pipes : Pipes σ} {underway : Underway ι}
    (lineup : Lineup opening.language desk underway)
    (flow : Flow processes opening desk pipes underway) {stage : Stage}
    (held : underway.place? = some (caller, stage)) (reason : Failure) :
    Closed processes opening (desk.abandon caller errand reason) where
  language := flow.language
  gone := rfl
  free := rfl
  idle := by
    intro other
    by_cases same : other = caller
    · subst same
      simp [Desk.abandon, Desk.release, Desk.move, Stage.inFlight]
    · cases flying : (desk.stage other).inFlight with
      | false => simpa [Desk.abandon, Desk.release, Desk.move, same] using flying
      | true =>
          have place := (lineup.inFlight other _ flying).mp rfl
          rw [held] at place
          cases place
          exact absurd rfl same
  order := by
    show desk.taken.map Receipt.entry <+: desk.admitted
    rw [lineup.admitted]
    exact List.prefix_append _ _
  once := lineup.once
  lines := flow.taken_prefix
  told := by
    intro other report told
    by_cases same : other = caller
    · subst same
      refine .inr ⟨errand, reason, ?_⟩
      simpa [Desk.abandon, Desk.release, Desk.move, flow.language] using told.symm
    · refine .inl ((lineup.served other report).mp ?_)
      simpa [Desk.abandon, Desk.release, Desk.move, same] using told

theorem call (closed : Closed processes opening desk) (absent : desk.stage caller = .absent) :
    Closed processes opening (desk.move caller (.queued errand)) := by
  refine { closed with idle := ?_, told := ?_ }
  · intro other
    by_cases same : other = caller
    · subst same
      simp [Desk.move, Stage.inFlight]
    · simpa [Desk.move, same] using closed.idle other
  · intro other report told
    by_cases same : other = caller
    · subst same
      simp [Desk.move] at told
    · exact closed.told other report (by simpa [Desk.move, same] using told)

theorem refuse (closed : Closed processes opening desk) (reason : Failure) :
    Closed processes opening (desk.abandon caller errand reason) := by
  refine { closed with gone := rfl, free := rfl, idle := ?_, told := ?_ }
  · intro other
    by_cases same : other = caller
    · subst same
      simp [Desk.abandon, Desk.release, Desk.move, Stage.inFlight]
    · simpa [Desk.abandon, Desk.release, Desk.move, same] using closed.idle other
  · intro other report told
    by_cases same : other = caller
    · subst same
      refine .inr ⟨errand, reason, ?_⟩
      simpa [Desk.abandon, Desk.release, Desk.move, closed.language] using told.symm
    · refine closed.told other report ?_
      simpa [Desk.abandon, Desk.release, Desk.move, same] using told

/-- Every step of a caller leaves the channel closed. -/
theorem works (closed : Closed processes opening desk) (step : Desk.Works processes desk next) :
    Closed processes opening next := by
  -- Nobody is in flight, and the lock can only be taken to return it.
  have idle := closed.idle
  have gone := closed.gone
  cases step with
  | take queued free live => simp [Channel.isLive, gone] at live
  | refuse queued free dead => exact closed.refuse _
  | @write caller _ _ _ _ writing => simpa [writing, Stage.inFlight] using idle caller
  | @send caller _ _ _ writing => simpa [writing, Stage.inFlight] using idle caller
  | @fail caller _ _ _ writing => simpa [writing, Stage.inFlight] using idle caller
  | @read caller _ _ _ _ _ _ _ waiting => simpa [waiting, Stage.inFlight] using idle caller
  | @pass caller _ _ _ _ _ _ _ waiting => simpa [waiting, Stage.inFlight] using idle caller
  | @expire caller _ _ _ waiting => simpa [waiting, Stage.inFlight] using idle caller
  | @miss caller _ _ _ _ _ _ waiting => simpa [waiting, Stage.inFlight] using idle caller
  | @leave caller _ _ _ _ _ waiting => simpa [waiting, Stage.inFlight] using idle caller

end Closed

namespace Reached

theorem initial (processes : Processes ω σ) (opening : Opening ω σ) :
    Reached processes opening (opening.desk : Desk ι ω σ) :=
  .live (Lineup.initial opening) (Flow.initial processes opening)

variable [DecidableEq ι] {processes : Processes ω σ} {opening : Opening ω σ}
variable {desk next : Desk ι ω σ}

theorem arrives (reached : Reached processes opening desk) (step : Desk.Arrives desk next) :
    Reached processes opening next := by
  cases step with
  | call errand absent =>
      cases reached with
      | live lineup flow => exact .live (lineup.call absent) { flow with }
      | closed closed => exact .closed (closed.call absent)

/-- Every step of a caller at a live channel keeps the lineup and the flow, or closes it. -/
theorem works_of_live {pipes : Pipes σ} {underway : Underway ι}
    (lineup : Lineup opening.language desk underway)
    (flow : Flow processes opening desk pipes underway) (step : Desk.Works processes desk next) :
    Reached processes opening next := by
  cases step with
  | take queued free live =>
      obtain rfl := lineup.free_iff.mp free
      rw [flow.language]
      exact .live (lineup.take queued _) (flow.take _ _ rfl rfl rfl rfl)
  | refuse queued free gone => simp [Channel.isLive, flow.live] at gone
  | @write caller errand chunk rest _ writing some_written more live runs =>
      obtain ⟨begun, rfl⟩ := lineup.eq_writing writing
      have advanced : Lineup opening.language (desk.move caller (.writing errand rest))
          (.writing caller errand (begun ++ chunk) rest) :=
        lineup.advance writing rfl rfl rfl rfl
      exact .live { advanced with } (flow.write more rfl rfl rfl rfl)
  | @send caller errand chunk _ writing live runs world worker events reaction =>
      obtain ⟨begun, rfl⟩ := lineup.eq_writing writing
      rw [flow.live, Option.some.injEq] at live
      subst live
      have advanced : Lineup opening.language
          (desk.move caller (.waiting errand desk.channel.timeoutMs))
          (.waiting caller errand desk.channel.timeoutMs) :=
        lineup.advance writing rfl rfl rfl rfl
      exact .live { advanced with } (flow.send runs reaction rfl rfl rfl rfl)
  | fail writing live ended =>
      obtain ⟨begun, rfl⟩ := lineup.eq_writing writing
      exact .closed (.of_abandon lineup flow rfl _)
  | @read caller errand left worker chunk rest events buffered waiting live unbroken
      some_read =>
      obtain rfl := lineup.eq_waiting waiting
      rw [flow.live, Option.some.injEq] at live
      subst live
      have same := Pipes.ahead_read worker chunk rest buffered events
      exact .live { lineup with } (flow.wait (congrArg bytesOf same)
        (congrArg (seek left []) same) rfl rfl rfl rfl rfl)
  | @pass caller errand left still worker milliseconds events buffered waiting live unbroken
      inTime =>
      obtain rfl := lineup.eq_waiting waiting
      rw [flow.live, Option.some.injEq] at live
      subst live
      have advanced : Lineup opening.language (desk.move caller (.waiting errand still))
          (.waiting caller errand still) :=
        lineup.advance waiting rfl rfl rfl rfl
      exact .live { advanced with } (flow.wait (Pipes.unread_pass worker milliseconds buffered
        events) (Pipes.seek_pass worker events unbroken inTime) rfl rfl rfl rfl rfl)
  | expire waiting live unbroken late =>
      obtain rfl := lineup.eq_waiting waiting
      exact .closed (.of_abandon lineup flow rfl _)
  | miss waiting live unbroken =>
      obtain rfl := lineup.eq_waiting waiting
      exact .closed (.of_abandon lineup flow rfl _)
  | leave waiting live found =>
      obtain rfl := lineup.eq_waiting waiting
      rw [flow.live, Option.some.injEq] at live
      subst live
      rw [flow.language]
      exact .live (lineup.leave _ _) (flow.leave found rfl rfl rfl rfl)

/-- Every step of a caller keeps what holds. -/
theorem works (reached : Reached processes opening desk) (step : Desk.Works processes desk next) :
    Reached processes opening next := by
  cases reached with
  | closed closed => exact .closed (closed.works step)
  | live lineup flow => exact works_of_live lineup flow step

/-- What holds at the beginning holds after every run. -/
theorem of_steps (run : Desk.Steps processes opening.desk desk) :
    Reached processes opening desk := by
  induction run with
  | refl => exact initial processes opening
  | tail _ step reached =>
      rcases step with arrival | work
      · exact reached.arrives arrival
      · exact reached.works work

end Reached

/-! ## What the callers are told -/

/-- What holds at every desk, whether its channel is live or not. -/
structure Delivered (processes : Processes ω σ) (opening : Opening ω σ) (desk : Desk ι ω σ) :
    Prop where
  /-- The lines that were taken are the first complete lines of the worker's output. -/
  lines : desk.taken.map Receipt.line <+: linesOf (opening.spoken processes (linesOf desk.written))
  /-- They were taken in the order in which the lock was taken. -/
  order : desk.taken.map Receipt.entry <+: desk.admitted
  /-- No caller takes two of them. -/
  once : (desk.admitted.map Prod.fst).Nodup
  /-- A caller is told what its line holds, or that there was none. -/
  told : ∀ caller report, desk.stage caller = .served report →
    (∃ receipt ∈ desk.taken, receipt.caller = caller ∧
      report = receipt.report opening.language) ∨
    ∃ errand reason, report = Errand.report opening.language (.error reason) errand

/-- What holds at a desk whose channel is live. -/
structure Paired (processes : Processes ω σ) (opening : Opening ω σ) (desk : Desk ι ω σ) :
    Prop where
  /-- At most one request is in flight. -/
  alone : ∀ first second, (desk.stage first).inFlight = true →
    (desk.stage second).inFlight = true → first = second
  /-- The worker has received the requests in the order in which the lock was taken, each
  once, but for one that is still being written. -/
  received : ∃ sent unsent, desk.admitted = sent ++ unsent ∧
    linesOf desk.written = sent.map (fun entry => entry.2.text opening.language) ∧
    unsent.length ≤ 1 ∧
    ∀ entry ∈ unsent, ∃ rest, desk.stage entry.1 = .writing entry.2 rest
  /-- The callers that were told something took a line, and were told what it holds. -/
  served : ∀ caller report, desk.stage caller = .served report ↔
    ∃ receipt ∈ desk.taken, receipt.caller = caller ∧
      report = receipt.report opening.language
  /-- They were told what they are told when the callers come one after the other. -/
  inTurn : (opening.inTurn processes (desk.taken.map Receipt.errand)).1 =
    desk.taken.map (Receipt.report opening.language)

namespace Reached

variable {processes : Processes ω σ} {opening : Opening ω σ} {desk : Desk ι ω σ}

theorem delivered (reached : Reached processes opening desk) :
    Delivered processes opening desk := by
  cases reached with
  | closed closed => exact ⟨closed.lines, closed.order, closed.once, closed.told⟩
  | live lineup flow =>
      refine ⟨flow.taken_prefix, ?_, lineup.once, ?_⟩
      · rw [lineup.admitted]
        exact List.prefix_append _ _
      · intro caller report told
        exact .inl ((lineup.served caller report).mp told)

/-- A live channel has a lineup and a flow. -/
theorem exists_of_isLive (reached : Reached processes opening desk)
    (live : desk.channel.isLive = true) :
    ∃ pipes underway, Lineup opening.language desk underway ∧
      Flow processes opening desk pipes underway := by
  cases reached with
  | closed closed => simp [Channel.isLive, closed.gone] at live
  | live lineup flow => exact ⟨_, _, lineup, flow⟩

theorem paired (reached : Reached processes opening desk) (live : desk.channel.isLive = true) :
    Paired processes opening desk := by
  obtain ⟨pipes, underway, lineup, flow⟩ := reached.exists_of_isLive live
  refine ⟨?_, ?_, lineup.served, ?_⟩
  · intro first second firstFlies secondFlies
    have firstPlace := (lineup.inFlight first _ firstFlies).mp rfl
    have secondPlace := (lineup.inFlight second _ secondFlies).mp rfl
    rw [firstPlace] at secondPlace
    exact (Prod.mk.inj (Option.some.inj secondPlace)).1
  · rw [flow.linesOf_written, lineup.admitted]
    cases underway with
    | nobody =>
        exact ⟨_, [], rfl, by simp [heard, Underway.sent?, Receipt.entry], by simp, by simp⟩
    | writing caller errand begun rest =>
        refine ⟨desk.taken.map Receipt.entry, [(caller, errand)], rfl, ?_, Nat.le_refl 1, ?_⟩
        · simp [heard, Underway.sent?, Receipt.entry]
        · intro entry member
          rw [List.mem_singleton.mp member]
          exact ⟨rest, (lineup.inFlight caller _ rfl).mpr rfl⟩
    | waiting caller errand left =>
        exact ⟨_, [], (List.append_nil _).symm,
          by simp [heard, Underway.sent?, Underway.entry?, Receipt.entry], by simp, by simp⟩
  · obtain ⟨alone, world, told, _⟩ := flow.inTurn
    rw [told]

end Reached

/-! ## Workers that answer every line by one line -/

/-- A worker that writes nothing unasked, and one line in reaction to each line. -/
structure Opening.Orderly (opening : Opening ω σ) (processes : Processes ω σ) : Prop where
  silent : spokenIn opening.started = []
  answers : ∀ lines, (∀ line ∈ lines, 10 ∉ line) →
    ∀ reaction ∈ opening.reactions processes lines, ∃ answer, 10 ∉ answer ∧ reaction = answer ++ [10]

/-- What such a worker makes of a desk whose channel is live. -/
structure Answered (processes : Processes ω σ) (opening : Opening ω σ) (desk : Desk ι ω σ) :
    Prop where
  /-- A caller is told what the worker wrote in reaction to the caller's own line. -/
  own : ∀ caller report, desk.stage caller = .served report →
    ∃ (k : Nat) (errand : Errand) (answer : Bytes),
      desk.admitted[k]? = some (caller, errand) ∧
      (linesOf desk.written)[k]? = some (errand.text opening.language) ∧
      (opening.reactions processes (linesOf desk.written))[k]? = some (answer ++ [10]) ∧
      report = errand.report opening.language (.ok answer)
  /-- With no request in flight, every line is answered and nothing is left to read. -/
  settled : (∀ caller, (desk.stage caller).inFlight = false) →
    desk.taken.length = (linesOf desk.written).length ∧
      ∃ pipes, desk.channel.pipes = some pipes ∧ pipes.unread = []

/-- Reactions that are lines are the answers in them with line breaks. -/
theorem exists_answers_of_lines {reactions : List Bytes}
    (answers : ∀ reaction ∈ reactions, ∃ answer, 10 ∉ answer ∧ reaction = answer ++ [10]) :
    ∃ texts : List Bytes, (∀ text ∈ texts, 10 ∉ text) ∧
      reactions = texts.map fun text => text ++ [10] := by
  induction reactions with
  | nil => exact ⟨[], by simp, rfl⟩
  | cons reaction reactions ih =>
      obtain ⟨answer, plain, rfl⟩ := answers reaction List.mem_cons_self
      obtain ⟨texts, others, rfl⟩ :=
        ih fun other member => answers other (List.mem_cons_of_mem _ member)
      exact ⟨answer :: texts, List.forall_mem_cons.mpr ⟨plain, others⟩, rfl⟩

/-- What an orderly worker wrote is the lines that were taken and one more for each line
that was not answered yet. -/
theorem Opening.Orderly.exists_answers {opening : Opening ω σ} {processes : Processes ω σ}
    (orderly : opening.Orderly processes) {heard lines : List Bytes} {unread : Bytes}
    (plain : ∀ line ∈ heard, 10 ∉ line) (unbroken : ∀ line ∈ lines, 10 ∉ line)
    (stream : opening.spoken processes heard = terminated lines ++ unread) :
    ∃ answers, lines.length + answers.length = heard.length ∧ unread = terminated answers ∧
      opening.reactions processes heard = (lines ++ answers).map fun answer => answer ++ [10] := by
  obtain ⟨texts, whole, reactions⟩ := exists_answers_of_lines (orderly.answers _ plain)
  rw [Opening.spoken, orderly.silent, List.nil_append, reactions, ← List.flatMap_def,
    ← terminated] at stream
  have cut := congrArg linesOf stream
  rw [linesOf_terminated whole, linesOf_terminated_append unbroken] at cut
  subst cut
  refine ⟨linesOf unread, ?_, ?_, reactions⟩
  · have count := congrArg List.length reactions
    rw [Opening.reactions, Processes.length_reactions, List.length_map, List.length_map,
      List.length_append] at count
    exact count.symm
  · rw [terminated, List.flatMap_append] at stream
    exact (List.append_cancel_left stream).symm

/-- The unread output of an orderly worker is the answer to the line that waits for one. -/
theorem Flow.exists_answers {processes : Processes ω σ} {opening : Opening ω σ}
    {desk : Desk ι ω σ} {pipes : Pipes σ} {underway : Underway ι}
    (flow : Flow processes opening desk pipes underway) (orderly : opening.Orderly processes) :
    ∃ answers, answers.length = underway.sent?.toList.length ∧
      pipes.unread = terminated answers ∧
      opening.reactions processes (linesOf desk.written) =
        (desk.taken.map Receipt.line ++ answers).map fun answer => answer ++ [10] := by
  rw [flow.linesOf_written]
  obtain ⟨answers, count, unread, reactions⟩ :=
    orderly.exists_answers (Flow.heard_unbroken _ _ _) flow.taken_unbroken flow.stream
  refine ⟨answers, ?_, unread, reactions⟩
  simpa [heard, Nat.add_left_cancel_iff] using count

/-- A caller of an orderly worker is told what the worker wrote for that caller. -/
theorem Reached.answered {processes : Processes ω σ} {opening : Opening ω σ} {desk : Desk ι ω σ}
    (reached : Reached processes opening desk) (orderly : opening.Orderly processes)
    (live : desk.channel.isLive = true) : Answered processes opening desk := by
  obtain ⟨pipes, underway, lineup, flow⟩ := reached.exists_of_isLive live
  obtain ⟨answers, count, unread, reactions⟩ := flow.exists_answers orderly
  constructor
  · intro caller report told
    obtain ⟨receipt, member, rfl, rfl⟩ := (lineup.served caller report).mp told
    obtain ⟨k, bound, rfl⟩ := List.getElem_of_mem member
    refine ⟨k, desk.taken[k].errand, desk.taken[k].line, ?_, ?_, ?_, rfl⟩
    · rw [lineup.admitted, List.getElem?_append_left (by simpa using bound), List.getElem?_map,
        List.getElem?_eq_getElem bound]
      rfl
    · rw [flow.linesOf_written, heard, List.getElem?_map,
        List.getElem?_append_left (by simpa using bound), List.getElem?_map,
        List.getElem?_eq_getElem bound]
      rfl
    · rw [reactions, List.getElem?_map, List.getElem?_append_left (by simpa using bound),
        List.getElem?_map, List.getElem?_eq_getElem bound]
      rfl
  · intro idle
    cases underway with
    | nobody =>
        obtain rfl : answers = [] := List.length_eq_zero_iff.mp count
        refine ⟨?_, pipes, flow.live, unread⟩
        simp [flow.linesOf_written, heard, Underway.sent?]
    | writing caller errand begun rest =>
        have flying := idle caller
        rw [(lineup.inFlight caller _ rfl).mpr rfl] at flying
        cases flying
    | waiting caller errand left =>
        have flying := idle caller
        rw [(lineup.inFlight caller _ rfl).mpr rfl] at flying
        cases flying

/-! ## Nobody waits for ever -/

section Progress

variable [DecidableEq ι] {processes : Processes ω σ} {opening : Opening ω σ}
variable {desk : Desk ι ω σ} {caller : ι} {errand : Errand}

/-- A caller that waits goes on when a line break is ahead. -/
theorem exists_works_of_waiting {left : Option Nat} {pipes : Pipes σ}
    (waiting : desk.stage caller = .waiting errand left)
    (live : desk.channel.pipes = some pipes) (ahead : 10 ∈ pipes.unread) :
    ∃ next, Desk.Works processes desk next := by
  obtain ⟨worker, pending, buffered⟩ := pipes
  cases found : takeLine? buffered with
  | some pair => exact ⟨_, .leave waiting live found⟩
  | none =>
      have unbroken := takeLine?_eq_none_iff.mp found
      rw [Pipes.unread_eq, List.mem_append] at ahead
      cases pending with
      | nil => exact absurd (ahead.resolve_left unbroken) List.not_mem_nil
      | cons event events =>
          cases event with
          | output bytes =>
              rw [← List.append_nil bytes] at live
              exact ⟨_, .read waiting live found (.inr rfl)⟩
          | ended exit => exact ⟨_, .miss waiting live found⟩
          | pause milliseconds =>
              cases inTime : elapse left milliseconds with
              | some still => exact ⟨_, .pass waiting live found inTime⟩
              | none => exact ⟨_, .expire waiting live found (.inr ⟨_, _, rfl, inTime⟩)⟩

/-- A caller that has not written its line to the end goes on. -/
theorem exists_works_of_writing {rest : Bytes} {pipes : Pipes σ}
    (writing : desk.stage caller = .writing errand rest)
    (live : desk.channel.pipes = some pipes) : ∃ next, Desk.Works processes desk next := by
  cases ended : hasEnded pipes.pending with
  | true => exact ⟨_, .fail writing live ended⟩
  | false => exact ⟨_, .send writing live ended rfl⟩

/-- As long as a caller of an orderly worker was told nothing, some caller goes on. -/
theorem Reached.exists_works (reached : Reached processes opening desk)
    (orderly : opening.Orderly processes) (called : desk.stage caller ≠ .absent)
    (untold : ∀ report, desk.stage caller ≠ .served report) :
    ∃ next, Desk.Works processes desk next := by
  cases reached with
  | closed closed =>
      cases stage : desk.stage caller with
      | absent => exact absurd stage called
      | queued errand =>
          exact ⟨_, .refuse stage closed.free (by simp [Channel.isLive, closed.gone])⟩
      | writing errand rest => simpa [stage, Stage.inFlight] using closed.idle caller
      | waiting errand left => simpa [stage, Stage.inFlight] using closed.idle caller
      | served report => exact absurd stage (untold report)
  | @live pipes underway lineup flow =>
      cases underway with
      | writing holder errand begun rest =>
          exact exists_works_of_writing ((lineup.inFlight holder _ rfl).mpr rfl) flow.live
      | waiting holder errand left =>
          -- The worker owes one answer, and that answer ends with a line break.
          obtain ⟨answers, count, unread, _⟩ := flow.exists_answers orderly
          obtain ⟨answer, rfl⟩ := List.length_eq_one_iff.mp count
          have ahead : 10 ∈ pipes.unread := by simp [unread, terminated]
          exact exists_works_of_waiting ((lineup.inFlight holder _ rfl).mpr rfl) flow.live ahead
      | nobody =>
          cases stage : desk.stage caller with
          | absent => exact absurd stage called
          | queued errand =>
              exact ⟨_, .take stage (lineup.free_iff.mpr rfl) (by simp [Channel.isLive, flow.live])⟩
          | writing errand rest =>
              have place := (lineup.inFlight caller _ rfl).mp stage
              cases place
          | waiting errand left =>
              have place := (lineup.inFlight caller _ rfl).mp stage
              cases place
          | served report => exact absurd stage (untold report)

end Progress

/-! ## All runs -/

/-- **Replies pair with requests**, for every worker, any number of callers, every order of
their steps, and every way in which lines and output are cut into chunks. Nothing but
complete lines is ever told to a caller. As long as the channel is live, one request at
most is in flight, and requests and lines are in the order in which the lock was taken. If
the worker answers every line by one line, then every caller is told the answer to its own
line, and as long as one was told nothing, some caller goes on. -/
theorem replies_pair [DecidableEq ι] (processes : Processes ω σ) (opening : Opening ω σ)
    (desk : Desk ι ω σ) (run : Desk.Steps processes opening.desk desk) :
    Delivered processes opening desk ∧
    (desk.channel.isLive = true → Paired processes opening desk) ∧
    (opening.Orderly processes →
      (desk.channel.isLive = true → Answered processes opening desk) ∧
      ∀ caller, desk.stage caller ≠ .absent → (∀ report, desk.stage caller ≠ .served report) →
        ∃ next, Desk.Works processes desk next) := by
  have reached := Reached.of_steps run
  refine ⟨reached.delivered, reached.paired, fun orderly => ⟨reached.answered orderly, ?_⟩⟩
  intro caller called untold
  exact reached.exists_works orderly called untold

/-- A worker that writes back what it reads. -/
def echo : Processes Unit Unit where
  resolve _ program _ := some program
  launch _ _ _ _ := .ok ((), (), [])
  receive _ _ line := ((), (), [.output line])
  finish _ _ := ((), (), [.ended (.status 0)])

/-- A channel to a worker that writes back what it reads. -/
def echoing : Opening Unit Unit :=
  ⟨"echo", some 5000, (), (), []⟩

theorem echoing_orderly : echoing.Orderly echo where
  silent := rfl
  answers := by
    intro lines
    induction lines with
    | nil => simp [Opening.reactions, Processes.reactions]
    | cons line lines ih =>
        intro plain reaction member
        rcases List.mem_cons.mp member with rfl | later
        · exact ⟨line, plain line List.mem_cons_self, by simp [echo, spokenIn, deedsOf, bytesOf]⟩
        · exact ih (fun other found => plain other (List.mem_cons_of_mem _ found)) reaction later

/-- A caller that takes the lock of such a channel is told what it wrote. -/
theorem exists_steps_echo [DecidableEq ι] {desk : Desk ι Unit Unit} {caller : ι}
    {errand : Errand} (queued : desk.stage caller = .queued errand) (free : desk.owner = none)
    (same : desk.channel = echoing.channel) :
    ∃ next, Desk.Steps echo desk next ∧
      next.stage = Function.update desk.stage caller
        (.served (errand.report "echo" (.ok (errand.text "echo")))) ∧
      next.owner = none ∧ next.channel = echoing.channel := by
  have plain := errand.newline_not_mem_text "echo"
  have found : takeLine? (errand.text "echo" ++ [10]) = some (errand.text "echo", []) :=
    takeLine?_eq_some_iff.mpr ⟨plain, rfl⟩
  obtain ⟨first, taken, firstStage, firstChannel⟩ : ∃ next, Desk.Works echo desk next ∧
      next.stage = Function.update desk.stage caller (.writing errand (errand.line "echo")) ∧
      next.channel = echoing.channel :=
    ⟨_, .take queued free (by rw [same]; rfl), by rw [same]; rfl, same⟩
  obtain ⟨second, sent, secondStage, secondChannel⟩ : ∃ next, Desk.Works echo first next ∧
      next.stage = Function.update desk.stage caller (.waiting errand (some 5000)) ∧
      next.channel = { echoing.channel with
        pipes := some ⟨(), [.output (errand.text "echo" ++ [10])], []⟩ } := by
    refine ⟨_, .send (by rw [firstStage, Function.update_self]) (by rw [firstChannel]; rfl) rfl rfl,
      ?_, ?_⟩
    · simp [Desk.move, firstStage, firstChannel, echoing, Opening.channel]
    · simp [firstChannel, echoing, Opening.channel, Errand.line_eq]
  have sentPipes : second.channel.pipes =
      some ⟨(), [.output ((errand.text "echo" ++ [10]) ++ [])], []⟩ := by
    rw [secondChannel, List.append_nil]
  obtain ⟨third, read, thirdStage, thirdChannel⟩ : ∃ next, Desk.Works echo second next ∧
      next.stage = second.stage ∧
      next.channel = { echoing.channel with
        pipes := some ⟨(), [], errand.text "echo" ++ [10]⟩ } :=
    ⟨_, .read (by rw [secondStage, Function.update_self]) sentPipes rfl (.inr rfl), rfl,
      by simp [secondChannel, remaining]⟩
  have readPipes : third.channel.pipes = some ⟨(), [], errand.text "echo" ++ [10]⟩ := by
    rw [thirdChannel]
  obtain ⟨next, left, nextStage, nextOwner, nextChannel⟩ : ∃ next, Desk.Works echo third next ∧
      next.stage = Function.update desk.stage caller
        (.served (errand.report "echo" (.ok (errand.text "echo")))) ∧
      next.owner = none ∧ next.channel = echoing.channel := by
    refine ⟨_, .leave (by rw [thirdStage, secondStage, Function.update_self]) readPipes found,
      ?_, rfl, ?_⟩
    · simp [Desk.release, Desk.move, thirdStage, secondStage, thirdChannel, echoing,
        Opening.channel]
    · simp [Desk.release, thirdChannel, echoing, Opening.channel]
  exact ⟨next, .head (.inr taken) (.head (.inr sent) (.head (.inr read) (.single (.inr left)))),
    nextStage, nextOwner, nextChannel⟩

/-- Two callers of such a channel are both told what they wrote. -/
theorem replies_pair_echo : ∃ desk : Desk Bool Unit Unit,
    Desk.Steps echo echoing.desk desk ∧ desk.channel.isLive = true ∧
    (∀ caller, ∃ report, desk.stage caller = .served report) ∧
    Delivered echo echoing desk ∧ Paired echo echoing desk ∧ Answered echo echoing desk := by
  let errand (caller : Bool) : Errand := .execute ⟨"echo", toString caller, "", "", ""⟩
  obtain ⟨both, called, calledStage, calledFree, calledChannel⟩ :
      ∃ next : Desk Bool Unit Unit, Desk.Steps echo echoing.desk next ∧
        next.stage = (fun caller => .queued (errand caller)) ∧
        next.owner = none ∧ next.channel = echoing.channel := by
    let first : Desk Bool Unit Unit := echoing.desk.move true (.queued (errand true))
    have absent : first.stage false = .absent := rfl
    refine ⟨_, .head (.inl (.call (errand true) rfl))
      (.single (.inl (.call (errand false) absent))), ?_, rfl, rfl⟩
    funext caller
    cases caller <;> rfl
  obtain ⟨middle, firstServed, middleStage, middleFree, middleChannel⟩ :=
    exists_steps_echo (congrFun calledStage true) calledFree calledChannel
  obtain ⟨desk, secondServed, lastStage, _, lastChannel⟩ :=
    exists_steps_echo (show middle.stage false = .queued (errand false) by
      rw [middleStage, calledStage]; rfl) middleFree middleChannel
  have run : Desk.Steps echo echoing.desk desk := (called.trans firstServed).trans secondServed
  have live : desk.channel.isLive = true := by
    rw [lastChannel]
    rfl
  obtain ⟨delivered, paired, orderly⟩ := replies_pair echo echoing desk run
  refine ⟨desk, run, live, ?_, delivered, paired live, (orderly echoing_orderly).1 live⟩
  intro caller
  rw [lastStage, middleStage]
  cases caller
  · exact ⟨_, rfl⟩
  · exact ⟨_, rfl⟩

end Polyglot
