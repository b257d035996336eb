import Polyglot.Proofs.Forms
import Polyglot.Proofs.Lines
import Polyglot.Proofs.Rendering
import Polyglot.Proxy
import Polyglot.Worker

/-!
# Replies of workers and of servers

A worker answers with a line and a server with the body of a response. The same bytes have the same
outcome either way, but for the wording of a breach of the protocol (`replies_concur`), because
both ways lead through one reader of replies and one reading of what it finds.

The values that are replies are said without the reader (`Json.Tree.Replies`): an object in which
each of the four members that count comes at most once and is a text or a null, or an array of at
most four of these in the order of the fields. Null is the same as nothing. Any other value breaks
the protocol, as do bytes of which the reader makes nothing.
-/

set_option autoImplicit false

namespace Polyglot

open Polyglot.Http (Network)
open Polyglot.Json (Datum Holds IsGap Renders Row Shape Tree isGap_nil valuesOf)
open Polyglot.Text (Bytes)

variable {ω υ σ τ : Type}

/-! ## Values that are replies -/

/-- The members say a text under a name, or nothing: there is no member with the name, or there is
one and it is the text or, for nothing, a null. -/
def Says (members : List (String × Tree)) (name : String) (text : Option String) : Prop :=
  valuesOf name members = [] ∧ text = none ∨ valuesOf name members = [Tree.ofText? text]

/-- A value that is a reply. -/
inductive Json.Tree.Replies : Tree → Reply → Prop where
  | object {members : List (String × Tree)} {reply : Reply}
      (result : Says members "result" reply.result)
      (exception : Says members "exceptionText" reply.exception)
      (errorCode : Says members "errorCode" reply.errorCode)
      (backendVersion : Says members "backendVersion" reply.backendVersion) :
      Replies (.object members) reply
  | list {texts : List (Option String)} (short : texts.length ≤ 4) :
      Replies (.list (texts.map Tree.ofText?))
        ⟨texts[0]?.join, texts[1]?.join, texts[2]?.join, texts[3]?.join⟩

@[simp] theorem Json.Datum.text?_none : text? none = none := rfl

@[simp] theorem Json.Datum.text?_ofText? (text : Option String) :
    text? (some (ofText? text)) = text := by
  cases text with
  | none => rfl
  | some text => rfl

/-- What the members say is what a field that may be null takes of them. -/
theorem says_iff {members : List (String × Tree)} {name : String} {text : Option String} :
    Says members name text ↔ ∃ cell,
      Shape.optionalText.takeOne (valuesOf name members) = some cell ∧ Datum.text? cell = text := by
  simp only [Shape.takes_optionalText.takeOne_eq_some_iff]
  constructor
  · rintro (⟨absent, rfl⟩ | given)
    · exact ⟨none, ⟨none, absent, rfl⟩, rfl⟩
    · exact ⟨_, ⟨some text, given, rfl⟩, Datum.text?_ofText? text⟩
  · rintro ⟨_, ⟨value, values, rfl⟩, rfl⟩
    cases value with
    | none => exact .inl ⟨values, rfl⟩
    | some value => exact .inr (values.trans (by simp))

namespace Reply

theorem apart_schema : (schema.fields.map (·.name)).Nodup := by decide

theorem read_eq_ok_iff {text : Bytes} {reply : Reply} :
    read text = .ok reply ↔ ∃ row, schema.read text = .ok row ∧ ofRow row = reply :=
  Json.map_eq_ok_iff

/-- An object is read as a reply when it is one. -/
theorem read_object_iff_replies {members : List (String × Tree)} {bytes front behind : Bytes}
    (renders : Renders bytes (.value (.object members))) (isGapFront : IsGap front)
    (isGapBehind : IsGap behind) {reply : Reply} :
    read (front ++ bytes ++ behind) = .ok reply ↔ (Tree.object members).Replies reply := by
  simp only [read_eq_ok_iff,
    Json.Schema.read_object_iff apart_schema renders isGapFront isGapBehind]
  constructor
  · rintro ⟨row, ⟨_ | ⟨result, _ | ⟨exception, _ | ⟨errorCode, _ | ⟨version, _ | _⟩⟩⟩⟩, _⟩, rfl⟩
    exact .object (says_iff.mpr ⟨_, result, rfl⟩) (says_iff.mpr ⟨_, exception, rfl⟩)
      (says_iff.mpr ⟨_, errorCode, rfl⟩) (says_iff.mpr ⟨_, version, rfl⟩)
  · intro replies
    cases replies with
    | object result exception errorCode backendVersion =>
        obtain ⟨_, takesResult, sameResult⟩ := says_iff.mp result
        obtain ⟨_, takesException, sameException⟩ := says_iff.mp exception
        obtain ⟨_, takesCode, sameCode⟩ := says_iff.mp errorCode
        obtain ⟨_, takesVersion, sameVersion⟩ := says_iff.mp backendVersion
        refine ⟨_, ⟨.cons takesResult <| .cons takesException <| .cons takesCode <|
          .cons takesVersion .nil, rfl⟩, ?_⟩
        rw [ofRow, sameResult, sameException, sameCode, sameVersion]

/-- The reply of up to four texts. -/
theorem ofRow_texts {texts : List (Option String)} (short : texts.length ≤ 4) :
    ofRow (texts.map (some ∘ Datum.ofText?) ++ List.replicate (4 - texts.length) none) =
      ⟨texts[0]?.join, texts[1]?.join, texts[2]?.join, texts[3]?.join⟩ := by
  match texts, short with
  | [], _ => rfl
  | [_], _ => simp [ofRow, List.replicate]
  | [_, _], _ => simp [ofRow, List.replicate]
  | [_, _, _], _ => simp [ofRow]
  | [_, _, _, _], _ => simp [ofRow]

/-- An array is read as a reply when it is one. -/
theorem read_list_iff_replies {trees : List Tree} {bytes front behind : Bytes}
    (renders : Renders bytes (.value (.list trees))) (isGapFront : IsGap front)
    (isGapBehind : IsGap behind) {reply : Reply} :
    read (front ++ bytes ++ behind) = .ok reply ↔ (Tree.list trees).Replies reply := by
  have alike : ∀ field ∈ schema.fields, field.shape = .optionalText := by decide
  have optional : ∀ field ∈ schema.fields, field.inArray = false := by decide
  simp only [read_eq_ok_iff, Json.Schema.read_list_iff isGapBehind renders isGapFront,
    Shape.takes_optionalText.lineUp_eq_some_iff alike]
  constructor
  · rintro ⟨_, ⟨texts, rfl, short, _, rfl⟩, rfl⟩
    have whole := Tree.Replies.list short
    rwa [← ofRow_texts short] at whole
  · intro replies
    cases replies with
    | @list texts short =>
        have behind : ∀ field ∈ schema.fields.drop texts.length, field.inArray = false :=
          fun field member => optional field (List.mem_of_mem_drop member)
        exact ⟨_, ⟨texts, rfl, short, behind, rfl⟩, ofRow_texts short⟩

/-- **A value is read as a reply exactly when it is one**, however it is written. -/
theorem read_iff_replies {tree : Tree} {text : Bytes} (holds : Holds text tree) {reply : Reply} :
    read text = .ok reply ↔ tree.Replies reply := by
  obtain ⟨front, bytes, behind, isGapFront, renders, isGapBehind, rfl⟩ := holds
  cases tree with
  | list trees => exact read_list_iff_replies renders isGapFront isGapBehind
  | object members => exact read_object_iff_replies renders isGapFront isGapBehind
  | _ =>
      refine iff_of_false (fun readable => ?_) nofun
      obtain ⟨row, done, _⟩ := read_eq_ok_iff.mp readable
      exact Json.Schema.read_other renders nofun nofun isGapFront row done

end Reply

/-! ## Outcomes -/

/-- A job comes to nothing because the backend does not keep to the protocol. -/
def BreaksProtocol (outcome : Except Failure String) : Prop :=
  ∃ text, outcome = .error (.protocolError text)

/-- Two outcomes that are the same but for the wording of a breach of the protocol. -/
inductive Concur : Except Failure String → Except Failure String → Prop where
  | output (text : String) : Concur (.ok text) (.ok text)
  | failure (text : String) :
      Concur (.error (.buildOrRuntime text)) (.error (.buildOrRuntime text))
  | breach (text other : String) :
      Concur (.error (.protocolError text)) (.error (.protocolError other))

theorem Reply.concur_output (reply : Reply) : Concur reply.output reply.output := by
  unfold output
  split
  · exact .failure _
  · exact .output _
  · exact .breach _ _

/-- The worker of a channel answers a job with a line. -/
def Channel.Answers (processes : Processes ω σ) (channel : Channel σ) (world : ω) (job : Job)
    (answer : Bytes) : Prop :=
  (channel.exchange processes world (Request.ofJob channel.language job).line).1 = .ok answer

/-- The server behind a port answers a job in time with success and a body. -/
def Proxy.Answers (network : Network ω) (proxy : Proxy σ) (world : ω) (job : Job)
    (answer : Bytes) : Prop :=
  let exchange := (network.post world proxy.port (proxy.bodyOf job)).1
  exchange.endsWithin proxy.timeoutMs = true ∧
    ∃ status, exchange.transfer = .complete status answer ∧ status.isSuccess = true

namespace Channel

variable {processes : Processes ω σ} {channel : Channel σ} {world : ω} {job : Job} {answer : Bytes}

/-- A worker that reacts to a job with a line and a line break answers with the line. -/
theorem answers_of_output {worker : σ} (live : channel.pipes = some ⟨worker, [], []⟩)
    (reacts : (processes.receive world worker (Request.ofJob channel.language job).line).2.2 =
      [.output (answer ++ [10])]) (unbroken : 10 ∉ answer) :
    channel.Answers processes world job answer := by
  have line : takeLine? (answer ++ [10]) = some (answer, []) :=
    takeLine?_eq_some_iff.mpr ⟨unbroken, rfl⟩
  have waited : await channel.timeoutMs [] [.output (answer ++ [10])] = .line answer [] [] := by
    rw [await, takeLine?_nil]
    simp only [List.nil_append]
    rw [await, line]
  simp [Answers, exchange, live, hasEnded, reacts, waited]

/-- What is answered with a reply is the output of the reply. -/
theorem Answers.execute (answers : channel.Answers processes world job answer) {reply : Reply}
    (read : Reply.read answer = .ok reply) :
    (channel.execute processes world job).1 = reply.output := by
  simp only [Channel.execute, submit]
  rw [Answers] at answers
  simp only [answers, Except.bind, replyOf, read]

/-- What is answered with anything else breaks the protocol. -/
theorem Answers.breaksProtocol (answers : channel.Answers processes world job answer)
    {fault : Json.Fault} (read : Reply.read answer = .error fault) :
    BreaksProtocol (channel.execute processes world job).1 := by
  simp only [Channel.execute, submit]
  rw [Answers] at answers
  simp only [answers, Except.bind, replyOf, read]
  exact ⟨_, rfl⟩

end Channel

namespace Proxy

variable {network : Network ω} {proxy : Proxy σ} {world : ω} {job : Job} {answer : Bytes}

/-- What is answered with a reply is the output of the reply. -/
theorem Answers.execute (answers : proxy.Answers network world job answer) {reply : Reply}
    (read : Reply.read answer = .ok reply) :
    (proxy.execute network world job).1 = reply.output := by
  obtain ⟨inTime, status, complete, _⟩ := answers
  simp only [Proxy.execute, forward, conclude, inTime, if_true, complete, readAnswer, read]
  rfl

/-- What is answered with anything else breaks the protocol. -/
theorem Answers.breaksProtocol (answers : proxy.Answers network world job answer)
    {fault : Json.Fault} (read : Reply.read answer = .error fault) :
    BreaksProtocol (proxy.execute network world job).1 := by
  obtain ⟨inTime, status, complete, success⟩ := answers
  simp only [Proxy.execute, forward, conclude, inTime, if_true, complete, readAnswer, read, success]
  exact ⟨_, rfl⟩

end Proxy

/-- **The same answer has the same outcome**, whether a worker or a server gives it: the same
output, the same failure of the program, or a breach of the protocol. An answer that holds a reply
is a failure of the program when the reply has the text of an exception, be it empty and whatever
the result is; it is the result when there is one and no exception, and a breach when there is
neither. The code of an error and the version of the backend are nowhere looked at. An answer that
holds any other value, and one that is not read, is a breach. -/
theorem replies_concur {processes : Processes ω σ} {channel : Channel σ} {world : ω} {job : Job}
    {network : Network υ} {proxy : Proxy τ} {there : υ} {other : Job} {answer : Bytes}
    (line : channel.Answers processes world job answer)
    (body : proxy.Answers network there other answer) :
    let spoken := (channel.execute processes world job).1
    let posted := (proxy.execute network there other).1
    Concur spoken posted ∧
    (∀ tree reply, Holds answer tree → tree.Replies reply →
      (∀ text, reply.exception = some text →
        spoken = .error (.buildOrRuntime text) ∧ posted = .error (.buildOrRuntime text)) ∧
      (∀ text, reply.exception = none → reply.result = some text →
        spoken = .ok text ∧ posted = .ok text) ∧
      (reply.exception = none → reply.result = none →
        BreaksProtocol spoken ∧ BreaksProtocol posted)) ∧
    (∀ tree, Holds answer tree → (∀ reply, ¬ tree.Replies reply) →
      BreaksProtocol spoken ∧ BreaksProtocol posted) ∧
    ∀ fault, Reply.read answer = .error fault → BreaksProtocol spoken ∧ BreaksProtocol posted := by
  have unread (fault : Json.Fault) (read : Reply.read answer = .error fault) :=
    And.intro (line.breaksProtocol read) (body.breaksProtocol read)
  refine ⟨?_, ?_, ?_, unread⟩
  · cases read : Reply.read answer with
    | ok reply =>
        rw [line.execute read, body.execute read]
        exact reply.concur_output
    | error fault =>
        obtain ⟨⟨text, spoken⟩, otherText, posted⟩ := unread fault read
        rw [spoken, posted]
        exact .breach text otherText
  · intro tree reply holds replies
    have read := (Reply.read_iff_replies holds).mpr replies
    rw [line.execute read, body.execute read, Reply.output]
    refine ⟨fun text exception => ?_, fun text exception result => ?_, fun exception result => ?_⟩
    · rw [exception]
      exact ⟨rfl, rfl⟩
    · rw [exception, result]
      exact ⟨rfl, rfl⟩
    · rw [exception, result]
      exact ⟨⟨_, rfl⟩, ⟨_, rfl⟩⟩
  · intro tree holds noReply
    cases read : Reply.read answer with
    | ok reply => exact absurd ((Reply.read_iff_replies holds).mp read) (noReply reply)
    | error fault => exact unread fault read

/-- Members of a reply with a result and an empty text of an exception. -/
def silentMembers : List (String × String) :=
  [("result", Json.string "out"), ("exceptionText", Json.string "")]

/-- A reply with a result and an empty text of an exception. -/
def silentAnswer : Bytes := Text.utf8 (Json.object silentMembers)

/-- Workers that answer every line with that reply. -/
def silent : Processes Unit Unit where
  resolve _ _ _ := none
  launch _ _ _ _ := .error .notFound
  receive _ _ _ := ((), (), [.output (silentAnswer ++ [10])])
  finish _ _ := ((), (), [])

/-- A server that answers every request with that reply. -/
def silentNetwork : Network Unit where
  accepts _ _ _ := (true, ())
  post _ _ _ := (⟨.complete 200 silentAnswer, some 0⟩, ())

/-- The empty text of an exception counts more than the result. -/
theorem replies_concur_silent :
    let job : Job := ⟨"js", "x", "", "", ""⟩
    let channel : Channel Unit := ⟨"js", none, some ⟨(), [], []⟩⟩
    let proxy : Proxy Unit := ⟨"js", 8000, none, none⟩
    channel.Answers silent () job silentAnswer ∧ proxy.Answers silentNetwork () job silentAnswer ∧
    (channel.execute silent () job).1 = .error (.buildOrRuntime "") ∧
    (proxy.execute silentNetwork () job).1 = .error (.buildOrRuntime "") := by
  intro job channel proxy
  have unbroken : 10 ∉ silentAnswer := by
    unfold silentAnswer
    exact newline_not_mem_utf8 (by decide +kernel)
  have line : channel.Answers silent () job silentAnswer :=
    Channel.answers_of_output rfl rfl unbroken
  have body : proxy.Answers silentNetwork () job silentAnswer := ⟨rfl, 200, rfl, by decide⟩
  have holds : Holds silentAnswer
      (.object [("result", .text "out"), ("exceptionText", .text "")]) :=
    .of_renders <| Json.renders_object <|
      .cons (.member _ (Json.renders_string "out")) <|
      .cons (.member _ (Json.renders_string "")) .nil
  have replies : (Tree.object [("result", .text "out"), ("exceptionText", .text "")]).Replies
      ⟨some "out", some "", none, none⟩ :=
    .object (.inr rfl) (.inr rfl) (.inl ⟨rfl, rfl⟩) (.inl ⟨rfl, rfl⟩)
  obtain ⟨_, outcomes, _⟩ := replies_concur line body
  obtain ⟨failure, _⟩ := outcomes _ _ holds replies
  exact ⟨line, body, failure "" rfl⟩

end Polyglot
