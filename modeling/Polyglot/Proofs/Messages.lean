import Polyglot.Envelope
import Polyglot.Proofs.Lines
import Polyglot.Proofs.Records

/-!
# Messages that are read back

A request is read back from the body or the line in which it is sent, and its line has no line
break but the last byte (`Request.read_render`, `Request.line_of_job`). An envelope is read back
from the text in which it is answered (`Envelope.read_render`). A reply that
carries nothing but a result is read in every spelling (`Reply.read_of_result`).
-/

set_option autoImplicit false

namespace Polyglot

open Polyglot.Json (Datum Fills IsGap Schema SpellsObject Written)
open Polyglot.Text (Bytes)

/-! ## Requests -/

/-- A request is read back, with gaps around it. -/
theorem Request.read_of_render (request : Request) {front behind : Bytes}
    (isGapFront : IsGap front) (isGapBehind : IsGap behind) :
    read (front ++ Text.utf8 request.render ++ behind) = .ok request := by
  have row : schema.read (front ++ Text.utf8 request.render ++ behind) = .ok
      [some (.text request.command), some (.text request.language), some (.text request.code),
        some (.text request.library), some (.text request.entryClass),
        some (.text request.entryMethod)] := by
    refine Schema.read_object (by decide) ?_ rfl ?_ isGapFront isGapBehind
    · simp [schema, Json.Shape.admits]
    · exact .cons (.text _ _) <| .cons (.text _ _) <| .cons (.text _ _) <| .cons (.text _ _) <|
        .cons (.text _ _) <| .cons (.text _ _) .nil
  rw [read, row]
  rfl

/-- A request is read back from its text. -/
theorem Request.read_render (request : Request) :
    read (Text.utf8 request.render) = .ok request := by
  have whole := request.read_of_render Json.isGap_nil Json.isGap_nil
  rwa [List.nil_append, List.append_nil] at whole

/-- A request is read back from its line, whose line break is a gap. -/
theorem Request.read_line (request : Request) : read request.line = .ok request := by
  have isGap : IsGap [10] := by simp [IsGap, Json.Cursor.isSpace]
  have whole := request.read_of_render Json.isGap_nil isGap
  rwa [List.nil_append] at whole

/-- The only line break of a line is the one at its end. -/
theorem Request.count_newline_line (request : Request) : request.line.count 10 = 1 := by
  rw [line, List.count_append, List.count_eq_zero_of_not_mem request.newline_not_mem_render]
  rfl

/-- Requests with the same line are the same. -/
theorem Request.line_injective : Function.Injective line := by
  intro request other same
  have read := request.read_line
  rw [same, other.read_line] at read
  exact (Except.ok.inj read).symm

/-- A request that is sent reaches a running worker as its line. -/
theorem Channel.world_submit {ω σ : Type} {processes : Processes ω σ} {channel : Channel σ}
    {pipes : Pipes σ} (live : channel.pipes = some pipes) (runs : hasEnded pipes.pending = false)
    (world : ω) (request : Request) :
    (channel.submit processes world request).2.2 =
      (processes.receive world pipes.worker request.line).1 := by
  simp only [submit, exchange, live, runs, Bool.false_eq_true, if_false]
  split <;> rfl

/-- **What a worker receives for a job.** It is one line, which ends with the only line break in
it. The line holds the job, under the registered language and whatever its texts are, and no
other job under no other language has the same line. -/
theorem Request.line_of_job (language : String) (job : Job) :
    let request := ofJob language job
    (∀ {ω σ : Type} (processes : Processes ω σ) (channel : Channel σ) (pipes : Pipes σ),
      channel.pipes = some pipes → hasEnded pipes.pending = false → ∀ world,
        (channel.submit processes world request).2.2 =
          (processes.receive world pipes.worker request.line).1) ∧
    10 ∉ Text.utf8 request.render ∧
    request.line = Text.utf8 request.render ++ [10] ∧
    request.line.count 10 = 1 ∧
    read request.line =
      .ok ⟨"compile", language, job.code, job.library, job.entryClass, job.entryMethod⟩ ∧
    ∀ (other : String) (another : Job), (ofJob other another).line = request.line →
      (other, another.code, another.library, another.entryClass, another.entryMethod) =
        (language, job.code, job.library, job.entryClass, job.entryMethod) := by
  refine ⟨fun processes channel pipes live runs world => Channel.world_submit live runs world _,
    newline_not_mem_render _, rfl, count_newline_line _, read_line _, ?_⟩
  intro other another same
  have equal := line_injective same
  simp only [ofJob, Request.mk.injEq, true_and] at equal
  obtain ⟨rfl, code, library, entryClass, entryMethod⟩ := equal
  rw [code, library, entryClass, entryMethod]

/-- Workers that keep every line that they receive, and do nothing else. -/
def keepers : Processes (List Bytes) Unit where
  resolve _ _ _ := none
  launch _ _ _ _ := .error .notFound
  receive lines _ line := (lines ++ [line], (), [])
  finish lines _ := (lines, (), [])

/-- A job whose texts hold line breaks, a quote and a backslash is one line. -/
theorem Request.line_of_job_keepers :
    let channel : Channel Unit := ⟨"zig", none, some ⟨(), [], []⟩⟩
    let line := (ofJob "zig" ⟨"Zig", "a\n\"b\\\r\n", "", "", ""⟩).line
    hasEnded [] = false ∧
    (channel.submit keepers [] (ofJob "zig" ⟨"Zig", "a\n\"b\\\r\n", "", "", ""⟩)).2.2 = [line] ∧
    line.count 10 = 1 := by
  have whole := line_of_job "zig" ⟨"Zig", "a\n\"b\\\r\n", "", "", ""⟩
  obtain ⟨sent, _, _, once, _⟩ := whole
  exact ⟨rfl, sent keepers ⟨"zig", none, some ⟨(), [], []⟩⟩ ⟨(), [], []⟩ rfl rfl [], once⟩

/-! ## Envelopes and replies -/

/-- An envelope is read back when its duration fits 64 bits. -/
theorem Envelope.read_render (envelope : Envelope)
    (fits : ∀ elapsed, envelope.elapsedMs = some elapsed → elapsed ≤ Json.significandLimit) :
    read (Text.utf8 envelope.render) = .ok envelope := by
  obtain ⟨result, exception, errorCode, elapsedMs, serviceVersion⟩ := envelope
  have text (name : String) (value : Option String) :
      List.Forall₂ Written (value.toList.map fun text => (name, Json.string text))
        ((value.map Datum.text).toList.map fun datum => (name, datum)) := by
    cases value with
    | none => exact .nil
    | some value => exact .cons (.text name value) .nil
  have natural : List.Forall₂ Written
      (elapsedMs.toList.map fun elapsed => ("elapsedMs", toString elapsed))
      ((elapsedMs.map Datum.natural).toList.map fun datum => ("elapsedMs", datum)) := by
    cases elapsedMs with
    | none => exact .nil
    | some elapsed => exact .cons (.natural "elapsedMs" (fits elapsed rfl)) .nil
  have row : schema.read ([] ++
      Text.utf8 (render ⟨result, exception, errorCode, elapsedMs, serviceVersion⟩) ++ []) = .ok
      [result.map .text, exception.map .text, errorCode.map .text, elapsedMs.map .natural,
        some (.text serviceVersion)] := by
    refine Schema.read_object (by decide) ?_ rfl ?_ Json.isGap_nil Json.isGap_nil
    · simp [schema, Json.Shape.admits]
    · have members := List.rel_append (text "result" result) <|
        List.rel_append (text "exceptionText" exception) <|
        List.rel_append (text "errorCode" errorCode) <|
        List.rel_append natural <| .cons (.text "serviceVersion" serviceVersion) .nil
      simp only [Envelope.members, schema, Json.entriesOf, List.append_nil, List.append_assoc]
      exact members
  rw [List.nil_append, List.append_nil] at row
  rw [read, row]
  cases result <;> cases exception <;> cases errorCode <;> cases elapsedMs <;> rfl

/-- A reply with nothing but a result is read, however it is spelt. -/
theorem Reply.read_of_result {bytes front behind : Bytes} {result : String}
    (spelt : SpellsObject bytes [("result", .text result)]) (isGapFront : IsGap front)
    (isGapBehind : IsGap behind) :
    read (front ++ bytes ++ behind) = .ok ⟨some result, none, none, none⟩ := by
  have fills : Fills schema.fields (schema.fields.map fun _ => none) [("result", .text result)]
      [some (.text result), none, none, none] := .field rfl rfl rfl (.done _)
  rw [read, Schema.read_of_spells spelt fills rfl isGapFront isGapBehind]
  rfl

/-- A reply with nothing but a result is read back from the object that is written for it. -/
theorem Reply.read_object (result : String) :
    read (Text.utf8 (Json.object [("result", Json.string result)])) =
      .ok ⟨some result, none, none, none⟩ := by
  have written : List.Forall₂ Written [("result", Json.string result)]
      [("result", .text result)] := .cons (.text "result" result) .nil
  have read := read_of_result (Json.spellsObject_object written) Json.isGap_nil Json.isGap_nil
  rwa [List.nil_append, List.append_nil] at read

end Polyglot
