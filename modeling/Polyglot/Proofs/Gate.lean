import Mathlib
import Polyglot.Gateway

/-!
# The gate of the route for jobs

A posted job passes two checks before any executor sees it. Its origin is looked at
first, and its body only when the origin is accepted. A request that fails a check is
answered without any effect, and one that fails the first is answered without a look at
its body. A request that passes both is answered by one call of the dispatcher.

That an executor is called shows in the world: a note is anything that the calls of
executors add their jobs to and that nothing else changes (`Noted`). What follows holds
for every note, and so for every way of watching the executors.
-/

set_option autoImplicit false

namespace Polyglot

open Polyglot.Text (Bytes)

variable {ω σ : Type}

/-! ## Origins of requests -/

theorem Http.headerText?_eq_none_iff {value : Bytes} :
    Http.headerText? value = none ↔ ∃ byte ∈ value, Http.isVisible byte = false := by
  simp [Http.headerText?]

namespace OriginPolicy

/-- The first origin header of a request is accepted. -/
def Welcomes (policy : OriginPolicy) (request : Http.Request) (origin : String) : Prop :=
  ∃ value, request.header? "origin" = some value ∧ Http.headerText? value = some origin ∧
    policy.accepts origin = true

/-- The first origin header of a request is missing, or holds a byte that is not visible, or
is not accepted. -/
inductive Rejects (policy : OriginPolicy) (request : Http.Request) : Prop where
  | missing (unsent : request.header? "origin" = none)
  | hidden {value : Bytes} (sent : request.header? "origin" = some value)
      (invisible : ∃ byte ∈ value, Http.isVisible byte = false)
  | refused {value : Bytes} {origin : String} (sent : request.header? "origin" = some value)
      (readable : Http.headerText? value = some origin) (refused : policy.accepts origin = false)

variable {policy : OriginPolicy} {request : Http.Request} {origin : String}

/-- A request is rejected when no origin makes it welcome. -/
theorem rejects_or_welcomes (policy : OriginPolicy) (request : Http.Request) :
    policy.Rejects request ∨ ∃ origin, policy.Welcomes request origin := by
  cases sent : request.header? "origin" with
  | none => exact .inl (.missing sent)
  | some value =>
      cases readable : Http.headerText? value with
      | none => exact .inl (.hidden sent (Http.headerText?_eq_none_iff.mp readable))
      | some origin =>
          cases accepted : policy.accepts origin with
          | false => exact .inl (.refused sent readable accepted)
          | true => exact .inr ⟨origin, value, sent, readable, accepted⟩

/-- A rejected request is not welcome under any origin. -/
theorem Rejects.not_welcomes (rejected : policy.Rejects request) :
    ¬ policy.Welcomes request origin := by
  rintro ⟨value, sent, readable, accepted⟩
  cases rejected with
  | missing unsent => simp [unsent] at sent
  | hidden found invisible =>
      obtain rfl : _ = value := Option.some.inj (found.symm.trans sent)
      simp [Http.headerText?_eq_none_iff.mpr invisible] at readable
  | refused found read refused =>
      obtain rfl : _ = value := Option.some.inj (found.symm.trans sent)
      obtain rfl : _ = origin := Option.some.inj (read.symm.trans readable)
      simp [refused] at accepted

/-- The check of a rejected request fails with the code for origins. -/
theorem Rejects.check (rejected : policy.Rejects request) :
    ∃ text, policy.check (Gateway.originOf request) = .error (.originNotAllowed text) := by
  cases rejected with
  | missing unsent => exact ⟨"<missing>", by simp [Gateway.originOf, unsent, OriginPolicy.check]⟩
  | hidden sent invisible =>
      refine ⟨"<missing>", ?_⟩
      simp [Gateway.originOf, sent, Http.headerText?_eq_none_iff.mpr invisible, OriginPolicy.check]
  | @refused _ origin sent readable refused =>
      exact ⟨origin, by simp [Gateway.originOf, sent, readable, OriginPolicy.check, refused]⟩

/-- The check of a welcome request succeeds for its origin. -/
theorem Welcomes.check (welcome : policy.Welcomes request origin) :
    Gateway.originOf request = some origin ∧ policy.check (some origin) = .ok () := by
  obtain ⟨value, sent, readable, accepted⟩ := welcome
  simp [Gateway.originOf, sent, readable, OriginPolicy.check, accepted]

end OriginPolicy

/-! ## Calls of executors -/

/-- A note grows by its job when an executor is called, and nothing else changes it. -/
structure Noted (environment : Environment ω σ) (dispatcher : Dispatcher ω σ)
    (note : ω → List Job) : Prop where
  clock : ∀ world, note (environment.clock world).2 = note world
  execute : ∀ key executor, Table.find? key dispatcher.executors = some executor →
    ∀ runner world job,
      note (executor.execute environment runner world job).2.2.2 = note world ++ [job]

/-- A job is noted once when its language is served, and not at all otherwise. -/
theorem Noted.handle {environment : Environment ω σ} {dispatcher : Dispatcher ω σ}
    {note : ω → List Job} (noted : Noted environment dispatcher note) (world : ω) (job : Job) :
    note (dispatcher.handle environment world job).2.2 = note world ++
      if (Table.find? (normalForm job.language) dispatcher.executors).isSome then [job] else [] := by
  simp only [Dispatcher.handle, Dispatcher.run]
  cases served : Table.find? (normalForm job.language) dispatcher.executors with
  | none => simp [noted.clock]
  | some executor => simp [noted.clock, noted.execute _ _ served]

/-! ## What becomes of a posted job -/

namespace Gateway

variable {environment : Environment ω σ} {gateway : Gateway ω σ} {world : ω}
variable {request : Http.Request}

/-- A posted job of an admissible length is checked for its origin before its body is read. -/
theorem respond_of_posted (environment : Environment ω σ) (gateway : Gateway ω σ) (world : ω)
    (posted : request.method = "POST") (path : Http.pathOf request.target = Route.compile.path)
    (fits : request.body.length ≤ bodyLimit) :
    gateway.respond environment world request =
      let answer := match gateway.origins.check (originOf request) with
        | .error reason => (gateway.forbidden reason, gateway, world)
        | .ok _ => compileFor environment gateway world ((originOf request).getD noOrigin) request.body
      (finish request.method answer.1, answer.2) := by
  have route : Route.ofPath? Route.compile.path = some .compile := rfl
  have allowed : Route.compile.methods.contains "POST" = true := rfl
  simp only [respond, answer, path, route, posted, allowed, if_true, serve, compile,
    if_neg (Nat.not_lt.mpr fits)]
  rfl

/-- The request is answered by a failure, and nothing happens. -/
structure TurnedAway (environment : Environment ω σ) (gateway : Gateway ω σ) (world : ω)
    (request : Http.Request) (status : Http.Status) (code : String) : Prop where
  status : (gateway.respond environment world request).1.status = status
  body : ∃ envelope : Envelope, (gateway.respond environment world request).1.body = envelope.render ∧
    envelope.isSuccess = false ∧ envelope.errorCode = some code
  /-- The gateway with its executors and the world are as they were. -/
  untouched : (gateway.respond environment world request).2 = (gateway, world)
  /-- No executor is called. -/
  uncalled : ∀ note, Noted environment gateway.dispatcher note →
    note (gateway.respond environment world request).2.2 = note world

/-- The request is answered by one call of the dispatcher with a job. -/
structure Dispatched (environment : Environment ω σ) (gateway : Gateway ω σ) (world : ω)
    (request : Http.Request) (job : Job) : Prop where
  status : (gateway.respond environment world request).1.status =
    if (gateway.dispatcher.handle environment world job).1.isSuccess then 200 else 400
  body : (gateway.respond environment world request).1.body =
    (gateway.dispatcher.handle environment world job).1.render
  /-- What changes is what the call changes. -/
  changed : (gateway.respond environment world request).2 =
    ({ gateway with dispatcher := (gateway.dispatcher.handle environment world job).2.1 },
      (gateway.dispatcher.handle environment world job).2.2)
  /-- The executor of the language is called once, with this job, if the language is served. -/
  called : ∀ note, Noted environment gateway.dispatcher note →
    note (gateway.respond environment world request).2.2 = note world ++
      if (Table.find? (normalForm job.language) gateway.dispatcher.executors).isSome then [job]
      else []

/-- A request whose answer is the report of a failure is turned away with its code. -/
theorem TurnedAway.of_failure {status : Http.Status} {origin : String} {reason : Failure}
    (answered : gateway.respond environment world request =
      (finish "POST" (gateway.failureResponse status origin reason), gateway, world)) :
    TurnedAway environment gateway world request status reason.code where
  status := by
    rw [answered]
    rfl
  body := by
    rw [answered]
    exact ⟨.failure reason gateway.serviceVersion, rfl, rfl, rfl⟩
  untouched := by rw [answered]
  uncalled := by
    intro note _
    rw [answered]

/-- The first origin header is missing, not visible or not accepted; nothing happens, and the
body makes no difference. -/
def Rejected (environment : Environment ω σ) (gateway : Gateway ω σ) (world : ω)
    (request : Http.Request) : Prop :=
  gateway.origins.Rejects request ∧
    TurnedAway environment gateway world request 403 "origin_not_allowed" ∧
    ∀ body : Bytes, body.length ≤ bodyLimit →
      gateway.respond environment world { request with body := body } =
        gateway.respond environment world request

/-- The origin is accepted and the body describes no job; nothing happens. -/
def Malformed (environment : Environment ω σ) (gateway : Gateway ω σ) (world : ω)
    (request : Http.Request) : Prop :=
  (∃ origin, gateway.origins.Welcomes request origin) ∧
    (∃ fault, Job.read request.body = .error fault) ∧
    TurnedAway environment gateway world request 400 "malformed_request"

/-- The origin is accepted and the body describes a job; the dispatcher is called with it. -/
def Admitted (environment : Environment ω σ) (gateway : Gateway ω σ) (world : ω)
    (request : Http.Request) : Prop :=
  (∃ origin, gateway.origins.Welcomes request origin) ∧
    ∃ job, Job.read request.body = .ok job ∧ Dispatched environment gateway world request job

section Posted

variable (posted : request.method = "POST")
variable (path : Http.pathOf request.target = Route.compile.path)
variable (fits : request.body.length ≤ bodyLimit)

include posted path fits

theorem rejected_of_rejects (rejected : gateway.origins.Rejects request) :
    Rejected environment gateway world request := by
  obtain ⟨text, refused⟩ := rejected.check
  -- The body does not occur in what is answered.
  have answered : ∀ body : Bytes, body.length ≤ bodyLimit →
      gateway.respond environment world { request with body := body } =
        (finish "POST" (gateway.forbidden (.originNotAllowed text)), gateway, world) := by
    intro body short
    have refusedWith :
        gateway.origins.check (originOf { request with body := body }) =
          .error (.originNotAllowed text) := refused
    have postedToo : ({ request with body := body } : Http.Request).method = "POST" := posted
    rw [respond_of_posted environment gateway world postedToo path short, refusedWith, postedToo]
  refine ⟨rejected, .of_failure (answered request.body fits), ?_⟩
  intro body short
  rw [answered body short, ← answered request.body fits]

theorem malformed_of_welcomes {origin : String} {fault : Json.Fault}
    (welcome : gateway.origins.Welcomes request origin)
    (unreadable : Job.read request.body = .error fault) :
    Malformed environment gateway world request := by
  obtain ⟨declared, accepted⟩ := welcome.check
  refine ⟨⟨origin, welcome⟩, ⟨fault, unreadable⟩, ?_⟩
  refine .of_failure (?_ : _ = (finish "POST" (gateway.failureResponse 400 origin
    (.malformedRequest fault.message)), gateway, world))
  rw [respond_of_posted environment gateway world posted path fits, declared, accepted, posted]
  simp only [Option.getD_some, compileFor, unreadable]

theorem admitted_of_welcomes {origin : String} {job : Job}
    (welcome : gateway.origins.Welcomes request origin)
    (readable : Job.read request.body = .ok job) :
    Admitted environment gateway world request := by
  obtain ⟨declared, accepted⟩ := welcome.check
  have answered : gateway.respond environment world request =
      (finish "POST" (envelopeResponse origin
          (gateway.dispatcher.handle environment world job).1),
        { gateway with dispatcher := (gateway.dispatcher.handle environment world job).2.1 },
        (gateway.dispatcher.handle environment world job).2.2) := by
    rw [respond_of_posted environment gateway world posted path fits, declared, accepted, posted]
    simp only [Option.getD_some, compileFor, readable]
  refine ⟨⟨origin, welcome⟩, job, readable, ?_, ?_, ?_, ?_⟩
  · rw [answered]
    rfl
  · rw [answered]
    rfl
  · rw [answered]
  · intro note noted
    rw [answered]
    exact noted.handle world job

end Posted

/-- **A posted job is rejected, malformed or admitted**, and exactly one of the three, in
every state of the gateway, with every list of headers and every body of an admissible
length. -/
theorem posted_job_gate (environment : Environment ω σ) (gateway : Gateway ω σ) (world : ω)
    (request : Http.Request) (posted : request.method = "POST")
    (path : Http.pathOf request.target = "/compile") (fits : request.body.length ≤ bodyLimit) :
    (Rejected environment gateway world request ∨ Malformed environment gateway world request ∨
      Admitted environment gateway world request) ∧
    ¬ (Rejected environment gateway world request ∧ Malformed environment gateway world request) ∧
    ¬ (Rejected environment gateway world request ∧ Admitted environment gateway world request) ∧
    ¬ (Malformed environment gateway world request ∧
      Admitted environment gateway world request) := by
  refine ⟨?_, ?_, ?_, ?_⟩
  · rcases OriginPolicy.rejects_or_welcomes gateway.origins request with rejected | ⟨origin, welcome⟩
    · exact .inl (rejected_of_rejects posted path fits rejected)
    · cases reading : Job.read request.body with
      | error fault => exact .inr (.inl (malformed_of_welcomes posted path fits welcome reading))
      | ok job => exact .inr (.inr (admitted_of_welcomes posted path fits welcome reading))
  · rintro ⟨⟨rejected, _⟩, ⟨origin, welcome⟩, _⟩
    exact rejected.not_welcomes welcome
  · rintro ⟨⟨rejected, _⟩, ⟨origin, welcome⟩, _⟩
    exact rejected.not_welcomes welcome
  · rintro ⟨⟨_, ⟨fault, unreadable⟩, _⟩, _, job, readable, _⟩
    rw [unreadable] at readable
    cases readable

/-- A world that remembers the jobs of executors, and in which nothing else happens. -/
def memory : Environment (List Job) Unit where
  processes :=
    { resolve := fun _ _ _ => none
      launch := fun _ _ _ _ => .error .notFound
      receive := fun jobs _ _ => (jobs, (), [])
      finish := fun jobs _ => (jobs, (), []) }
  network := .unreachable .notFound
  run jobs _ _ _ := (.error .notFound, jobs)
  build runner jobs _ _ := (.error (.commandNotFound ""), runner, jobs)
  clock jobs := (0, jobs)

/-- A gateway with one executor, which remembers every job and answers it with its code. -/
def parrot : Gateway (List Job) Unit where
  dispatcher :=
    ⟨[("parrot", .custom fun jobs job => (.answered (.ok job.code), jobs ++ [job]))],
      ⟨"/tmp", none, 0⟩, "1"⟩
  versions := .fresh .empty "/tmp"
  origins := .ofList []

/-- A job from a site on the loopback interface. -/
def localRequest : Http.Request :=
  ⟨"POST", "/compile", [("Origin", Text.utf8 "http://localhost:3000")],
    Text.utf8 "\x7b\"lang\":\"Parrot\",\"code\":\"hi\"\x7d"⟩

theorem memory_noted : Noted memory parrot.dispatcher id where
  clock _ := rfl
  execute := by
    intro key executor found runner jobs job
    simp only [parrot, Table.find?] at found
    split at found
    · cases found
      rfl
    · cases found

/-- Such a job is admitted: it is answered as a success, and remembered once. -/
theorem posted_job_gate_parrot :
    localRequest.method = "POST" ∧ Http.pathOf localRequest.target = "/compile" ∧
    localRequest.body.length ≤ bodyLimit ∧
    (parrot.respond memory [] localRequest).1.status = 200 ∧
    (parrot.respond memory [] localRequest).2.2 = [⟨"Parrot", "hi", "", "", ""⟩] := by
  have path : Http.pathOf localRequest.target = "/compile" := by decide
  have fits : localRequest.body.length ≤ bodyLimit := by decide
  have readable : Job.read localRequest.body = .ok ⟨"Parrot", "hi", "", "", ""⟩ := by cbv
  have welcome : parrot.origins.Welcomes localRequest "http://localhost:3000" :=
    ⟨Text.utf8 "http://localhost:3000", by cbv, by cbv, by cbv⟩
  have served : (Table.find? (normalForm "Parrot") parrot.dispatcher.executors).isSome = true := by
    cbv
  obtain ⟨⟨rejected, _⟩ | ⟨_, ⟨fault, unreadable⟩, _⟩ | ⟨_, job, read, dispatched⟩, _⟩ :=
    posted_job_gate memory parrot [] localRequest rfl path fits
  · exact absurd welcome rejected.not_welcomes
  · rw [readable] at unreadable
    cases unreadable
  · rw [readable, Except.ok.injEq] at read
    subst read
    have noted := dispatched.called id memory_noted
    rw [served] at noted
    refine ⟨rfl, path, fits, ?_, noted⟩
    have success : (parrot.dispatcher.handle memory [] ⟨"Parrot", "hi", "", "", ""⟩).1.isSuccess =
        true := by cbv
    rw [dispatched.status, if_pos success]

end Gateway

end Polyglot
