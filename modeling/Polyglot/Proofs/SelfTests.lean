import Polyglot.Proofs.Forwarding

/-!
# What passes a self-test

A backend that is ready is sent a job whose output is known. The output passes when it is the
expected text after the blanks at its end are taken away. The expected text is compared as it stands,
so the comparison ignores the blanks at the ends of both texts (`Proxy.passes_iff`), except that an
expected text with a blank at its end is matched by no output, not even by itself.

A self-test has the verdict on the output if there is one, and otherwise fails as the job does
(`Proxy.selfTest_eq`).
-/

set_option autoImplicit false

namespace Polyglot

open Polyglot.Http (Exchange Network)

variable {ω σ : Type}

/-! ## Blanks at the end of a text -/

namespace Text

/-- A text has a blank at its end. -/
def EndsInBlank (text : String) : Prop :=
  ∃ last, text.toList.getLast? = some last ∧ isBlank last = true

theorem trimEnd_trimEnd (text : String) : trimEnd (trimEnd text) = trimEnd text := by
  simp only [trimEnd, String.toList_ofList, dropBack_dropBack]

/-- Trimming leaves exactly the texts that have no blank at their end. -/
theorem trimEnd_eq_self_iff {text : String} : trimEnd text = text ↔ ¬ EndsInBlank text := by
  have spelled : trimEnd text = text ↔ dropBack isBlank text.toList = text.toList := by
    rw [trimEnd, ← String.toList_inj, String.toList_ofList]
  rw [spelled, dropBack_eq_self_iff]
  simp [EndsInBlank]

instance (text : String) : Decidable (EndsInBlank text) :=
  decidable_of_iff (trimEnd text ≠ text) (by rw [ne_eq, trimEnd_eq_self_iff, not_not])

end Text

/-! ## The verdict on an output -/

/-- A reply has an output when it carries a result and no exception. -/
theorem Reply.output_eq_ok_iff {reply : Reply} {text : String} :
    reply.output = .ok text ↔ reply.exception = none ∧ reply.result = some text := by
  unfold output
  split <;> simp_all

namespace Proxy

/-- An output passes a check exactly when it agrees with the expected text up to the blanks at their
ends, and the expected text has none there. -/
theorem passes_iff {check : ReadyCheck} {output : String} :
    passes check output = true ↔
      Text.trimEnd output = Text.trimEnd check.expected ∧ ¬ Text.EndsInBlank check.expected := by
  rw [passes, beq_iff_eq, ← Text.trimEnd_eq_self_iff]
  constructor
  · intro same
    rw [← same, Text.trimEnd_trimEnd]
    exact ⟨rfl, rfl⟩
  · rintro ⟨agree, kept⟩
    exact agree.trans kept

theorem judge_eq_ok_iff {language : String} {check : ReadyCheck} {output : String} :
    judge language check output = .ok () ↔ passes check output = true := by
  unfold judge
  split <;> simp_all

/-- A self-test judges the output of the job of its check. -/
theorem selfTest_eq (network : Network ω) (proxy : Proxy σ) (check : ReadyCheck) (world : ω) :
    proxy.selfTest network check world =
      let ran := proxy.execute network world (checkJob proxy.language check)
      (ran.1.bind (judge proxy.language check), ran.2) :=
  rfl

/-- A backend meets a check: it answers the job of the check, and without the blanks at its end the
output is the expected text. -/
def Meets (network : Network ω) (proxy : Proxy σ) (check : ReadyCheck) (world : ω) : Prop :=
  ∃ output, (proxy.execute network world (checkJob proxy.language check)).1 = .ok output ∧
    Text.trimEnd output = check.expected

/-- A backend passes a self-test exactly when it meets the check. -/
theorem selfTest_eq_ok_iff {network : Network ω} {proxy : Proxy σ} {check : ReadyCheck} {world : ω} :
    (proxy.selfTest network check world).1 = .ok () ↔ proxy.Meets network check world := by
  rw [selfTest_eq, Meets]
  cases ran : (proxy.execute network world (checkJob proxy.language check)).1 with
  | error reason => simp [ran, Except.bind]
  | ok output => simp [ran, Except.bind, judge_eq_ok_iff, passes]

/-- An output is answered exactly when a complete answer in time is a reply that carries it, and no
exception. -/
theorem execute_eq_ok_iff {network : Network ω} {proxy : Proxy σ} {world : ω} {job : Job}
    {output : String} :
    (proxy.execute network world job).1 = .ok output ↔
      ∃ status body reply,
        (network.post world proxy.port (proxy.bodyOf job)).1.Brings proxy.timeoutMs status body ∧
        Reply.read body = .ok reply ∧ reply.exception = none ∧ reply.result = some output := by
  have ran : (proxy.execute network world job).1 =
      (proxy.conclude (network.post world proxy.port (proxy.bodyOf job)).1).bind Reply.output := rfl
  have judged := judged_conclude proxy (network.post world proxy.port (proxy.bodyOf job)).1
  rw [ran]
  constructor
  · intro answered
    cases outcome : proxy.conclude (network.post world proxy.port (proxy.bodyOf job)).1 with
    | error reason => simp [outcome, Except.bind] at answered
    | ok reply =>
        obtain ⟨status, body, brings, read⟩ := (judged.answered reply).mp outcome
        rw [outcome] at answered
        exact ⟨status, body, reply, brings, read, Reply.output_eq_ok_iff.mp answered⟩
  · rintro ⟨status, body, reply, brings, read, carries⟩
    rw [(judged.answered reply).mpr ⟨status, body, brings, read⟩]
    exact Reply.output_eq_ok_iff.mpr carries

/-- **A self-test compares up to the blanks at the end of the answer.** A backend that answers an
output for the job of a check passes exactly when the output and the expected text are equal without
the blanks at their ends, and the expected text has no blank there. Otherwise it is unavailable, and
both texts are reported as they are. So a backend that answers exactly the expected text passes unless
that text has a blank at its end, and then no output passes at all. -/
theorem selfTest_compares (network : Network ω) (proxy : Proxy σ) (check : ReadyCheck) (world : ω)
    {output : String}
    (answered : (proxy.execute network world (checkJob proxy.language check)).1 = .ok output) :
    let verdict := (proxy.selfTest network check world).1
    (verdict = .ok () ↔
      Text.trimEnd output = Text.trimEnd check.expected ∧ ¬ Text.EndsInBlank check.expected) ∧
    (verdict ≠ .ok () → verdict = .error (.backendUnavailable
      (proxy.language ++ " backend failed its self-test: expected " ++
        Text.quoted check.expected ++ ", got " ++ Text.quoted output))) ∧
    (output = check.expected → (verdict = .ok () ↔ ¬ Text.EndsInBlank check.expected)) := by
  intro verdict
  have judged : verdict = judge proxy.language check output := by
    simp only [verdict, selfTest_eq, answered, Except.bind]
  have passed : verdict = .ok () ↔
      Text.trimEnd output = Text.trimEnd check.expected ∧ ¬ Text.EndsInBlank check.expected := by
    rw [judged, judge_eq_ok_iff, passes_iff]
  refine ⟨passed, fun failed => ?_, ?_⟩
  · rw [judged] at failed ⊢
    rw [judge, if_neg (mt judge_eq_ok_iff.mpr failed)]
  · rintro rfl
    rw [passed, and_iff_right rfl]

/-- A check that expects a word. -/
def wordCheck : ReadyCheck := ⟨"class T \x7b\x7d", "TestClass", "testMethod", "Works!"⟩

/-- A check that expects the line of that word. -/
def lineCheck : ReadyCheck := { wordCheck with expected := "Works!\n" }

/-- An answer whose output is that line. -/
def lineAnswer : Exchange :=
  ⟨.complete 200 (Text.utf8 (Json.object [("result", Json.string "Works!\n")])), some 3⟩

/-- A backend that somebody else has started. -/
def attached : Proxy Unit := attach "java" 8001 (some 1500)

theorem attached_answers (check : ReadyCheck) :
    (attached.execute scripted [lineAnswer] (checkJob attached.language check)).1 = .ok "Works!\n" := by
  have ends : lineAnswer.Ends (some 1500) := ⟨3, rfl, by rintro _ ⟨⟩; decide⟩
  exact execute_eq_ok_iff.mpr ⟨200, _, _, ⟨ends, rfl⟩, Reply.read_object _, rfl, rfl⟩

/-- The line passes the check that expects the word. -/
theorem selfTest_compares_word :
    (attached.execute scripted [lineAnswer] (checkJob attached.language wordCheck)).1 =
        .ok "Works!\n" ∧
      (attached.selfTest scripted wordCheck [lineAnswer]).1 = .ok () := by
  have answered := attached_answers wordCheck
  obtain ⟨passed, _⟩ := selfTest_compares scripted attached wordCheck [lineAnswer] answered
  have same : Text.trimEnd "Works!\n" = Text.trimEnd wordCheck.expected := by decide +kernel
  have unblank : ¬ Text.EndsInBlank wordCheck.expected := by decide +kernel
  exact ⟨answered, passed.mpr ⟨same, unblank⟩⟩

/-- The line does not pass the check that expects it. -/
theorem selfTest_rejects_line :
    (attached.execute scripted [lineAnswer] (checkJob attached.language lineCheck)).1 =
        .ok lineCheck.expected ∧
      (attached.selfTest scripted lineCheck [lineAnswer]).1 ≠ .ok () := by
  refine ⟨attached_answers lineCheck, fun passed => ?_⟩
  obtain ⟨output, answered, same⟩ := selfTest_eq_ok_iff.mp passed
  have blank : Text.EndsInBlank lineCheck.expected := by decide +kernel
  exact (passes_iff.mp (beq_iff_eq.mpr same)).2 blank

end Proxy

end Polyglot
