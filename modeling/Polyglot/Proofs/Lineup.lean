import Mathlib.Data.List.Nodup
import Polyglot.Proofs.Desk

/-!
# The callers at a desk

As long as the channel is live, the lock is held by the caller whose request is in
flight, and by nobody when there is none (`Lineup`). Callers are admitted once, in the
order in which they take the lock, and leave in that order: who was admitted is who took
a line, and behind them the holder of the lock.

Nothing here depends on what the worker does. Every step of a caller keeps the lineup
(`Lineup.call`, `Lineup.take`, `Lineup.advance`, `Lineup.leave`).
-/

set_option autoImplicit false

namespace Polyglot

open Polyglot.Text (Bytes)

variable {ι ω σ : Type}

/-! ## The request in flight -/

/-- What the holder of the lock is doing. -/
inductive Underway (ι : Type) where
  /-- Nobody holds the lock. -/
  | nobody
  /-- A line is written, with what is written of it and what is left. -/
  | writing (caller : ι) (errand : Errand) (begun rest : Bytes)
  /-- A line was written. -/
  | waiting (caller : ι) (errand : Errand) (left : Option Nat)

namespace Underway

/-- The holder of the lock with its stage. -/
def place? : Underway ι → Option (ι × Stage)
  | .nobody => none
  | .writing caller errand _ rest => some (caller, .writing errand rest)
  | .waiting caller errand left => some (caller, .waiting errand left)

/-- The admission that has no answer yet. -/
def entry? : Underway ι → Option (ι × Errand)
  | .nobody => none
  | .writing caller errand _ _ => some (caller, errand)
  | .waiting caller errand _ => some (caller, errand)

/-- The errand whose line the worker has received and not answered. -/
def sent? : Underway ι → Option Errand
  | .nobody => none
  | .writing _ _ _ _ => none
  | .waiting _ errand _ => some errand

/-- What is written of the line that is not written to its end. -/
def begun : Underway ι → Bytes
  | .nobody => []
  | .writing _ _ begun _ => begun
  | .waiting _ _ _ => []

variable {underway : Underway ι} {caller : ι} {errand : Errand}

theorem eq_nobody (free : underway.place? = none) : underway = .nobody := by
  cases underway with
  | nobody => rfl
  | writing caller errand begun rest => cases free
  | waiting caller errand left => cases free

theorem eq_writing {rest : Bytes} (place : underway.place? = some (caller, .writing errand rest)) :
    ∃ begun, underway = .writing caller errand begun rest := by
  cases underway with
  | nobody => cases place
  | writing caller errand begun rest =>
      cases place
      exact ⟨begun, rfl⟩
  | waiting caller errand left => cases place

theorem eq_waiting {left : Option Nat}
    (place : underway.place? = some (caller, .waiting errand left)) :
    underway = .waiting caller errand left := by
  cases underway with
  | nobody => cases place
  | writing caller errand begun rest => cases place
  | waiting caller errand left =>
      cases place
      rfl

end Underway

/-! ## The callers -/

/-- What holds of the callers at a desk whose channel is live. -/
structure Lineup (language : String) (desk : Desk ι ω σ) (underway : Underway ι) : Prop where
  /-- The lock is held by the caller whose request is in flight. -/
  owner : desk.owner = underway.place?.map Prod.fst
  /-- There is no other caller whose request is in flight. -/
  inFlight : ∀ caller stage, stage.inFlight = true →
    (desk.stage caller = stage ↔ underway.place? = some (caller, stage))
  /-- The receipts answer the admissions in their order. -/
  admitted : desk.admitted = desk.taken.map Receipt.entry ++ underway.entry?.toList
  /-- Who has not taken the lock was not admitted. -/
  outside : ∀ caller, desk.stage caller = .absent ∨ (∃ errand, desk.stage caller = .queued errand) →
    caller ∉ desk.admitted.map Prod.fst
  /-- Nobody was admitted twice. -/
  once : (desk.admitted.map Prod.fst).Nodup
  /-- Who was told something took a line, and was told what it holds. -/
  served : ∀ caller report, desk.stage caller = .served report ↔
    ∃ receipt ∈ desk.taken, receipt.caller = caller ∧ report = receipt.report language

namespace Lineup

variable {language : String} {desk : Desk ι ω σ} {underway : Underway ι} {caller : ι}
variable {errand : Errand}

theorem initial (opening : Opening ω σ) :
    Lineup language (opening.desk : Desk ι ω σ) .nobody where
  owner := rfl
  inFlight := by
    rintro caller stage flying
    refine ⟨?_, fun place => by cases place⟩
    rintro rfl
    cases flying
  admitted := rfl
  outside _ _ := List.not_mem_nil
  once := List.nodup_nil
  served := by
    intro caller report
    simp [Opening.desk]

theorem free_iff (lineup : Lineup language desk underway) :
    desk.owner = none ↔ underway = .nobody := by
  rw [lineup.owner, Option.map_eq_none_iff]
  exact ⟨Underway.eq_nobody, fun idle => by rw [idle]; rfl⟩

theorem eq_writing (lineup : Lineup language desk underway) {rest : Bytes}
    (writing : desk.stage caller = .writing errand rest) :
    ∃ begun, underway = .writing caller errand begun rest :=
  Underway.eq_writing ((lineup.inFlight caller _ rfl).mp writing)

theorem eq_waiting (lineup : Lineup language desk underway) {left : Option Nat}
    (waiting : desk.stage caller = .waiting errand left) :
    underway = .waiting caller errand left :=
  Underway.eq_waiting ((lineup.inFlight caller _ rfl).mp waiting)

/-- Who was not told anything took no line. -/
theorem caller_ne (lineup : Lineup language desk underway)
    (untold : ∀ report, desk.stage caller ≠ .served report) {receipt : Receipt ι}
    (member : receipt ∈ desk.taken) : receipt.caller ≠ caller :=
  fun same => untold _ ((lineup.served caller _).mpr ⟨receipt, member, same, rfl⟩)

variable [DecidableEq ι]

/-- A caller that goes on and is told nothing changes nothing for who was told something. -/
theorem served_move (lineup : Lineup language desk underway) {after : Stage}
    (untold : ∀ report, desk.stage caller ≠ .served report)
    (still : ∀ report, after ≠ .served report) (other : ι) (report : Report) :
    (desk.move caller after).stage other = .served report ↔
      ∃ receipt ∈ desk.taken, receipt.caller = other ∧ report = receipt.report language := by
  by_cases same : other = caller
  · subst same
    simp only [Desk.move, Function.update_self]
    refine ⟨fun told => absurd told (still report), ?_⟩
    rintro ⟨receipt, member, owned, rfl⟩
    exact absurd owned (lineup.caller_ne untold member)
  · simpa [Desk.move, same] using lineup.served other report

/-- A caller that comes changes nothing for the others. -/
theorem call (lineup : Lineup language desk underway) (absent : desk.stage caller = .absent) :
    Lineup language (desk.move caller (.queued errand)) underway := by
  refine ⟨lineup.owner, ?inFlight, lineup.admitted, ?outside, lineup.once, ?served⟩
  case inFlight =>
    intro other stage flying
    by_cases same : other = caller
    · subst same
      rw [← lineup.inFlight other stage flying, absent]
      simp only [Desk.move, Function.update_self]
      constructor
      · rintro rfl
        cases flying
      · rintro rfl
        cases flying
    · simpa [Desk.move, same] using lineup.inFlight other stage flying
  case outside =>
    intro other
    by_cases same : other = caller
    · subst same
      exact fun _ => lineup.outside other (.inl absent)
    · simpa [Desk.move, same] using lineup.outside other
  case served => exact lineup.served_move (by simp [absent]) (by simp)

/-- A caller that takes the lock is admitted behind the others. -/
theorem take (lineup : Lineup language desk .nobody) (queued : desk.stage caller = .queued errand)
    (rest : Bytes) :
    Lineup language
      { desk.move caller (.writing errand rest) with
        owner := some caller
        admitted := desk.admitted ++ [(caller, errand)] }
      (.writing caller errand [] rest) := by
  have answered := lineup.admitted
  rw [Underway.entry?, Option.toList_none, List.append_nil] at answered
  refine ⟨rfl, ?inFlight, ?admitted, ?outside, ?once, ?served⟩
  case inFlight =>
    intro other stage flying
    by_cases same : other = caller
    · subst same
      simp [Desk.move, Underway.place?]
    · have idle := lineup.inFlight other stage flying
      simp only [Underway.place?, reduceCtorEq, iff_false] at idle
      simp [Desk.move, Underway.place?, same, Ne.symm same, idle]
  case admitted => simp [Desk.move, answered, Underway.entry?]
  case outside =>
    intro other
    by_cases same : other = caller
    · subst same
      simp [Desk.move]
    · simpa [Desk.move, same] using lineup.outside other
  case once =>
    have fresh := lineup.outside caller (.inr ⟨errand, queued⟩)
    rw [List.map_append, List.nodup_append_comm]
    exact List.nodup_cons.mpr ⟨fresh, lineup.once⟩
  case served => exact lineup.served_move (by simp [queued]) (by simp)

/-- The holder of the lock goes on. -/
theorem advance (lineup : Lineup language desk underway) {before after : Stage}
    (was : desk.stage caller = before) (flew : before.inFlight = true)
    (flies : after.inFlight = true) {next : Underway ι} (place : next.place? = some (caller, after))
    (entry : next.entry? = underway.entry?) :
    Lineup language (desk.move caller after) next := by
  have held := (lineup.inFlight caller before flew).mp was
  refine ⟨?owner, ?inFlight, ?admitted, ?outside, lineup.once, ?served⟩
  case owner => simpa [Desk.move, place, held] using lineup.owner
  case inFlight =>
    intro other stage flying
    rw [place]
    by_cases same : other = caller
    · subst same
      simp [Desk.move]
    · have idle := lineup.inFlight other stage flying
      simp only [held, Option.some.injEq, Prod.mk.injEq, Ne.symm same, false_and, iff_false] at idle
      simp [Desk.move, same, Ne.symm same, idle]
  case admitted =>
    rw [entry]
    exact lineup.admitted
  case outside =>
    intro other
    by_cases same : other = caller
    · subst same
      simp only [Desk.move, Function.update_self]
      rintro (rfl | ⟨errand, rfl⟩) <;> cases flies
    · simpa [Desk.move, same] using lineup.outside other
  case served =>
    refine lineup.served_move ?_ ?_
    · rintro report told
      rw [← was, told] at flew
      cases flew
    · rintro report rfl
      cases flies

/-- A caller that takes a line returns the lock. -/
theorem leave {left : Option Nat} (lineup : Lineup language desk (.waiting caller errand left))
    (channel : Channel σ) (line : Bytes) :
    Lineup language
      { desk.release caller (errand.report language (.ok line)) channel with
        taken := desk.taken ++ [⟨caller, errand, line⟩] }
      .nobody := by
  have admitted := lineup.admitted
  have was : desk.stage caller = .waiting errand left :=
    (lineup.inFlight caller _ rfl).mpr rfl
  refine ⟨rfl, ?inFlight, ?admitted, ?outside, lineup.once, ?served⟩
  case inFlight =>
    intro other stage flying
    by_cases same : other = caller
    · subst same
      simp only [Desk.release, Desk.move, Function.update_self, Underway.place?, reduceCtorEq,
        iff_false]
      rintro rfl
      cases flying
    · have idle := lineup.inFlight other stage flying
      simp only [Underway.place?, Option.some.injEq, Prod.mk.injEq, Ne.symm same, false_and,
        iff_false] at idle
      simp [Desk.release, Desk.move, Underway.place?, same, idle]
  case admitted => simpa [Desk.release, Desk.move, Underway.entry?, Receipt.entry] using admitted
  case outside =>
    intro other
    by_cases same : other = caller
    · subst same
      simp [Desk.release, Desk.move]
    · simpa [Desk.release, Desk.move, same] using lineup.outside other
  case served =>
    intro other report
    by_cases same : other = caller
    · subst same
      simp only [Desk.release, Desk.move, Function.update_self, Stage.served.injEq,
        List.mem_append, List.mem_singleton]
      constructor
      · rintro rfl
        exact ⟨⟨other, errand, line⟩, .inr rfl, rfl, rfl⟩
      · rintro ⟨receipt, member | rfl, owned, rfl⟩
        · exact absurd owned (lineup.caller_ne (by simp [was]) member)
        · rfl
    · have others := lineup.served other report
      simp [Desk.release, Desk.move, same, others, or_and_right, exists_or, Ne.symm same]

end Lineup

end Polyglot
