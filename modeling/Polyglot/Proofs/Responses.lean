import Polyglot.Proofs.Gate
import Polyglot.Proofs.Messages
import Polyglot.Proofs.Serving

/-!
# What responses tell

A response with a status from 400 on reports a failure. It holds an envelope with the message
and the code of the failure and with the version of the service, its length is the length of
that envelope also where HEAD leaves the envelope out, and no cache keeps it (`Reports`).
Whatever arrives is answered in this way when it is not answered well
(`Gateway.reports_failures`), with one exception: a posted job with a body that is too long is
refused before any handler sees it, with a plain text.

A browser lets a site read a response when the response names the site. The response to a job,
and to the question whether a job may be posted, names the site when its origin is accepted and
names `null` when it is not (`Gateway.names_accepted_origin`). A browser also declares the origin
`null`, for a site that has no origin of its own, and such a site is named although it is not
accepted.
-/

set_option autoImplicit false

namespace Polyglot

open Polyglot.Http (Response)
open Polyglot.Text (Bytes)

variable {ω σ : Type}

/-! ## Headers of responses -/

/-- The values of all headers with a name. -/
def Http.Response.values (response : Response) (name : String) : List String :=
  (response.headers.filter fun header => header.1 == name).map (·.2)

namespace Gateway

@[simp] theorem values_withHeader (response : Response) (name value other : String) :
    (withHeader response name value).values other =
      response.values other ++ if name = other then [value] else [] := by
  simp only [Response.values, withHeader, List.filter_append, List.map_append]
  by_cases same : name = other
  · simp [same]
  · simp [same]

@[simp] theorem values_finish (method : String) (response : Response) (name : String) :
    (finish method response).values name =
      response.values name ++ if "cache-control" = name then ["no-cache, no-store"] else [] := by
  rw [← values_withHeader]
  simp only [finish]
  split
  · rfl
  · rfl

@[simp] theorem body_finish (method : String) (response : Response) :
    (finish method response).body = if method = "HEAD" then "" else response.body := by
  simp only [finish]
  split
  · rfl
  · rfl

@[simp] theorem status_finish (method : String) (response : Response) :
    (finish method response).status = response.status := by
  simp only [finish]
  split
  · rfl
  · rfl

end Gateway

/-! ## Values of origin headers -/

/-- The value of an origin header is a text that is accepted. -/
def OriginPolicy.AcceptsValue (policy : OriginPolicy) (value : Bytes) : Prop :=
  ∃ origin, Http.headerText? value = some origin ∧ policy.accepts origin = true

/-- A visible byte is the only byte of its character. -/
theorem Http.utf8EncodeChar_of_isVisible {byte : UInt8} (visible : isVisible byte = true) :
    String.utf8EncodeChar (Char.ofNat byte.toNat) = [byte] := by
  have short : byte.toNat < 128 := by
    simp only [isVisible, Bool.or_eq_true, Bool.and_eq_true, decide_eq_true_eq, beq_iff_eq,
      UInt8.lt_iff_toNat_lt] at visible
    rcases visible with ⟨_, below⟩ | rfl
    · exact Nat.lt_trans below (by decide)
    · decide
  have ascii : ∀ n < 128, String.utf8EncodeChar (Char.ofNat n) = [UInt8.ofNat n] := by decide
  rw [ascii _ short, UInt8.ofNat_toNat]

/-- A value that counts as a text is sent back byte by byte. -/
theorem Http.utf8_of_headerText? {value : Bytes} {origin : String}
    (readable : headerText? value = some origin) : Text.utf8 origin = value := by
  simp only [headerText?, Option.ite_none_right_eq_some, Option.some.injEq, List.all_eq_true]
    at readable
  obtain ⟨visible, rfl⟩ := readable
  rw [Text.utf8_ofList, List.flatMap_map]
  induction value with
  | nil => rfl
  | cons byte value ih =>
      obtain ⟨first, others⟩ := List.forall_mem_cons.mp visible
      rw [List.flatMap_cons, utf8EncodeChar_of_isVisible first, ih others]
      rfl

/-! ## Reports of failures -/

/-- An envelope that holds the message and the code of a failure, and nothing of a success. -/
structure Envelope.Fails (envelope : Envelope) (version : String) : Prop where
  result : envelope.result = none
  exception : envelope.exception.isSome = true
  errorCode : envelope.errorCode.isSome = true
  elapsedMs : envelope.elapsedMs = none
  serviceVersion : envelope.serviceVersion = version

theorem Envelope.fails_failure (reason : Failure) (version : String) :
    (failure reason version).Fails version := ⟨rfl, rfl, rfl, rfl, rfl⟩

/-- An answer that is not a success is a failure. -/
theorem Dispatcher.fails_handle {environment : Environment ω σ} {dispatcher : Dispatcher ω σ}
    {world : ω} {job : Job}
    (failed : (dispatcher.handle environment world job).1.isSuccess = false) :
    (dispatcher.handle environment world job).1.Fails dispatcher.serviceVersion := by
  rw [fst_handle] at failed ⊢
  cases outcome : (dispatcher.run environment (environment.clock world).2 job).1 with
  | ok result =>
      rw [outcome] at failed
      cases failed
  | error reason => exact Envelope.fails_failure reason dispatcher.serviceVersion

/-- A response to a method that reports a failure of the service in a version. -/
structure Reports (version method : String) (response : Response) : Prop where
  typed : response.values "content-type" = ["application/json"]
  uncached : response.values "cache-control" = ["no-cache, no-store"]
  /-- The text of the envelope is measured, and is the body of the response except for HEAD. -/
  told : ∃ text envelope, response.values "content-length" = [Http.lengthText text] ∧
    response.body = (if method = "HEAD" then "" else text) ∧
    Envelope.read (Text.utf8 text) = .ok envelope ∧ envelope.Fails version

namespace Gateway

/-- A failing envelope is a report, with any headers that it is sent with. -/
theorem reports_of_fails {envelope : Envelope} {version : String} (fails : envelope.Fails version)
    {response : Response} (typed : response.values "content-type" = ["application/json"])
    (measured : response.values "content-length" = [Http.lengthText envelope.render])
    (kept : response.values "cache-control" = []) (body : response.body = envelope.render)
    (method : String) : Reports version method (finish method response) where
  typed := by simp [typed]
  uncached := by simp [kept]
  told := by
    refine ⟨envelope.render, envelope, by simp [measured], by rw [body_finish, body], ?_, fails⟩
    refine envelope.read_render fun elapsed some => ?_
    rw [fails.elapsedMs] at some
    cases some

variable {environment : Environment ω σ} {gateway : Gateway ω σ} {world : ω}
variable {request : Http.Request}

theorem reports_failureResponse (status : Http.Status) (origin : String) (reason : Failure)
    (method : String) : Reports gateway.serviceVersion method
      (finish method (gateway.failureResponse status origin reason)) :=
  reports_of_fails (Envelope.fails_failure reason _) rfl rfl rfl rfl method

/-- A report is one with the list of the methods of a route too. -/
theorem reports_withHeader_allow (status : Http.Status) (origin methods : String)
    (reason : Failure) (method : String) : Reports gateway.serviceVersion method
      (finish method
        (withHeader (gateway.failureResponse status origin reason) "allow" methods)) :=
  reports_of_fails (Envelope.fails_failure reason _) rfl rfl rfl rfl method

/-! ## The handlers of the route for jobs -/

/-- The response that permits an origin to post a job. -/
def permission (origin : String) : Response :=
  ⟨204,
    [("access-control-allow-origin", origin), ("access-control-allow-methods", "POST, OPTIONS"),
     ("access-control-allow-headers", "Content-Type"), ("content-length", "0")], ""⟩

/-- What the handlers of the route for jobs answer. -/
inductive Handled (gateway : Gateway ω σ) (request : Http.Request) : Response → Prop where
  | rejected (rejects : gateway.origins.Rejects request) (reason : Failure) :
      Handled gateway request (gateway.forbidden reason)
  | malformed {origin : String} (welcome : gateway.origins.Welcomes request origin)
      (reason : Failure) : Handled gateway request (gateway.failureResponse 400 origin reason)
  | dispatched {origin : String} (welcome : gateway.origins.Welcomes request origin)
      {envelope : Envelope}
      (fails : envelope.isSuccess = false → envelope.Fails gateway.serviceVersion) :
      Handled gateway request (envelopeResponse origin envelope)
  | permitted {origin : String} (welcome : gateway.origins.Welcomes request origin) :
      Handled gateway request (permission origin)

/-- A request that a handler of the route for jobs sees. -/
def Seen (request : Http.Request) : Prop :=
  request.method = "OPTIONS" ∨ request.method = "POST" ∧ request.body.length ≤ bodyLimit

theorem handled_compileFor {origin : String} (welcome : gateway.origins.Welcomes request origin) :
    Handled gateway request (compileFor environment gateway world origin request.body).1 := by
  simp only [compileFor]
  cases Job.read request.body with
  | error fault => exact .malformed welcome _
  | ok job => exact .dispatched welcome Dispatcher.fails_handle

theorem handled_serve (seen : Seen request) :
    Handled gateway request (serve environment gateway world .compile request).1 := by
  rcases OriginPolicy.rejects_or_welcomes gateway.origins request with rejects | ⟨origin, welcome⟩
  · obtain ⟨text, refused⟩ := rejects.check
    have forbids : (serve environment gateway world .compile request).1 =
        gateway.forbidden (.originNotAllowed text) := by
      rcases seen with asked | ⟨posted, fits⟩
      · simp [serve, asked, preflight, refused]
      · simp [serve, posted, compile, Nat.not_lt.mpr fits, refused]
    rw [forbids]
    exact .rejected rejects _
  · obtain ⟨declared, accepted⟩ := welcome.check
    rcases seen with asked | ⟨posted, fits⟩
    · have permits : (serve environment gateway world .compile request).1 = permission origin := by
        simp [serve, asked, preflight, declared, accepted, permission]
      rw [permits]
      exact .permitted welcome
    · have compiles : serve environment gateway world .compile request =
          compileFor environment gateway world origin request.body := by
        simp [serve, posted, compile, Nat.not_lt.mpr fits, declared, accepted]
      rw [compiles]
      exact handled_compileFor welcome

/-! ## Every failure is a report -/

theorem Handled.reports {response : Response} (handled : Handled gateway request response)
    (failed : 400 ≤ response.status) (method : String) :
    Reports gateway.serviceVersion method (finish method response) := by
  cases handled with
  | rejected _ reason => exact reports_failureResponse 403 noOrigin reason method
  | malformed _ reason => exact reports_failureResponse 400 _ reason method
  | @dispatched origin _ envelope fails =>
      cases success : envelope.isSuccess with
      | true => simp [envelopeResponse, jsonResponse, success] at failed
      | false => exact reports_of_fails (fails success) rfl rfl rfl rfl method
  | permitted _ => simp [permission] at failed

/-- A posted job that is refused before any handler sees it. -/
def Oversized (request : Http.Request) : Prop :=
  request.method = "POST" ∧ Http.pathOf request.target = Route.compile.path ∧
    bodyLimit < request.body.length

/-- A request that reaches the route for jobs is seen when it is not too long. -/
theorem seen_of_admissible (path : Http.pathOf request.target = Route.compile.path)
    (method : request.method ∈ Route.compile.methods) (admissible : ¬ Oversized request) :
    Seen request := by
  simp only [Route.methods, List.mem_cons, List.not_mem_nil, or_false] at method
  rcases method with posted | asked
  · exact .inr ⟨posted, Nat.not_lt.mp fun long => admissible ⟨posted, path, long⟩⟩
  · exact .inl asked

theorem path_of_ofPath? {path : String} {route : Route} (found : Route.ofPath? path = some route) :
    path = route.path := by
  have same := List.find?_some found
  exact (beq_iff_eq.mp same).symm

/-- What a route answers is a report or no failure, when the job is not too long. -/
theorem reports_serve {route : Route} (path : Http.pathOf request.target = route.path)
    (method : request.method ∈ route.methods) (admissible : ¬ Oversized request)
    (failed : 400 ≤ (serve environment gateway world route request).1.status) :
    Reports gateway.serviceVersion request.method
      (finish request.method (serve environment gateway world route request).1) := by
  cases route with
  | health => simp [serve, textResponse] at failed
  | versions => simp [serve, reportVersions, jsonResponse] at failed
  | compile => exact (handled_serve (seen_of_admissible path method admissible)).reports failed _

/-- A posted job that is too long is answered by a plain text. -/
theorem respond_of_oversized (environment : Environment ω σ) (gateway : Gateway ω σ) (world : ω)
    (oversized : Oversized request) :
    gateway.respond environment world request =
      (⟨413, [("content-type", "text/plain; charset=utf-8"), ("content-length", "56"),
        ("cache-control", "no-cache, no-store")],
        "Failed to buffer the request body: length limit exceeded"⟩, gateway, world) := by
  obtain ⟨posted, path, long⟩ := oversized
  have route : Route.ofPath? Route.compile.path = some .compile := rfl
  have allowed : Route.compile.methods.contains "POST" = true := rfl
  have other : "POST" ≠ "OPTIONS" := by decide
  have length : Http.lengthText "Failed to buffer the request body: length limit exceeded" = "56" :=
    by decide
  simp only [respond, answer, path, route, posted, allowed, if_true, serve, compile, if_pos long,
    if_neg other]
  simp [finish, withHeader, tooLong, textResponse, length]

/-- **Every failure is reported as an envelope**, in every state of the gateway and to every
request, but for a posted job that is too long. The response to that is a plain text, and the job
changes nothing. -/
theorem reports_failures (environment : Environment ω σ) (gateway : Gateway ω σ) (world : ω)
    (request : Http.Request) :
    (¬ Oversized request → 400 ≤ (gateway.respond environment world request).1.status →
      Reports gateway.serviceVersion request.method
        (gateway.respond environment world request).1) ∧
    (Oversized request → gateway.respond environment world request =
      (⟨413, [("content-type", "text/plain; charset=utf-8"), ("content-length", "56"),
        ("cache-control", "no-cache, no-store")],
        "Failed to buffer the request body: length limit exceeded"⟩, gateway, world)) := by
  refine ⟨fun admissible failed => ?_, respond_of_oversized environment gateway world⟩
  simp only [respond, answer] at failed ⊢
  cases found : Route.ofPath? (Http.pathOf request.target) with
  | none => exact reports_failureResponse 404 noOrigin _ _
  | some route =>
      by_cases method : route.methods.contains request.method = true
      · simp only [found, method, if_true, status_finish] at failed ⊢
        have listed := List.contains_iff_mem.mp method
        exact reports_serve (path_of_ofPath? found) listed admissible failed
      · simp only [method]
        exact reports_withHeader_allow 404 noOrigin _ _ _

/-- A request for the head of a page that does not exist is answered by a report. -/
theorem reports_failures_unrouted :
    let head : Http.Request := ⟨"HEAD", "/nowhere", [], []⟩
    ¬ Oversized head ∧ 400 ≤ (parrot.respond memory [] head).1.status ∧
    Reports "1" "HEAD" (parrot.respond memory [] head).1 := by
  have admissible : ¬ Oversized ⟨"HEAD", "/nowhere", [], []⟩ := by simp [Oversized]
  have failed : 400 ≤ (parrot.respond memory [] ⟨"HEAD", "/nowhere", [], []⟩).1.status := by
    have unrouted : Route.ofPath? (Http.pathOf "/nowhere") = none := by decide
    simp [respond, answer, unrouted, notFound, failureResponse, jsonResponse]
  refine ⟨admissible, failed, ?_⟩
  have reports := reports_failures memory parrot [] ⟨"HEAD", "/nowhere", [], []⟩
  exact reports.1 admissible failed

/-- A job that is one byte too long. -/
def longRequest : Http.Request :=
  ⟨"POST", "/compile", [("origin", Text.utf8 "http://localhost:3000")],
    List.replicate (bodyLimit + 1) 32⟩

/-- Such a job is answered by a failure that is no report. -/
theorem not_reports_longRequest :
    400 ≤ (parrot.respond memory [] longRequest).1.status ∧
    (parrot.respond memory [] longRequest).1.values "content-type" = ["text/plain; charset=utf-8"] ∧
    ¬ Reports "1" "POST" (parrot.respond memory [] longRequest).1 := by
  have path : Http.pathOf longRequest.target = Route.compile.path := by
    have short : Http.pathOf "/compile" = "/compile" := by decide
    exact short
  have long : bodyLimit < longRequest.body.length := by
    rw [longRequest, List.length_replicate]
    exact Nat.lt_succ_self bodyLimit
  have typed : (parrot.respond memory [] longRequest).1.values "content-type" =
      ["text/plain; charset=utf-8"] := by
    rw [respond_of_oversized memory parrot [] ⟨rfl, path, long⟩]
    rfl
  refine ⟨?_, typed, fun reports => ?_⟩
  · rw [respond_of_oversized memory parrot [] ⟨rfl, path, long⟩]
    decide
  · have json := reports.typed
    rw [typed] at json
    exact absurd json (by decide)

/-! ## Which origin is named -/

/-- A handler names the origin that it accepts, and `null` when it accepts none. -/
theorem Handled.values_allowOrigin {response : Response} (handled : Handled gateway request response) :
    (∃ origin, gateway.origins.Welcomes request origin ∧
      response.values "access-control-allow-origin" = [origin]) ∨
    gateway.origins.Rejects request ∧
      response.values "access-control-allow-origin" = [noOrigin] := by
  cases handled with
  | rejected rejects _ => exact .inr ⟨rejects, rfl⟩
  | malformed welcome _ => exact .inl ⟨_, welcome, rfl⟩
  | dispatched welcome _ => exact .inl ⟨_, welcome, rfl⟩
  | permitted welcome => exact .inl ⟨_, welcome, rfl⟩

/-- A request that is seen is answered by its handler. -/
theorem respond_of_seen (environment : Environment ω σ) (gateway : Gateway ω σ) (world : ω)
    (path : Http.pathOf request.target = Route.compile.path) (seen : Seen request) :
    (gateway.respond environment world request).1 =
      finish request.method (serve environment gateway world .compile request).1 := by
  have route : Route.ofPath? Route.compile.path = some .compile := rfl
  have allowed : Route.compile.methods.contains request.method = true := by
    rcases seen with asked | ⟨posted, _⟩
    · rw [asked]
      rfl
    · rw [posted]
      rfl
  simp only [respond, answer, path, route, allowed, if_true]

/-- **The origin of a request is named exactly when it is accepted**, or when it is `null`: for
every value of the first origin header, on every response to a job of an admissible length and
to the question whether a job may be posted. -/
theorem names_accepted_origin (environment : Environment ω σ) (gateway : Gateway ω σ) (world : ω)
    (request : Http.Request) (value : Bytes)
    (asked : request.method = "OPTIONS" ∨
      request.method = "POST" ∧ request.body.length ≤ bodyLimit)
    (path : Http.pathOf request.target = "/compile")
    (sent : request.header? "origin" = some value) :
    ∃ named, (gateway.respond environment world request).1.values "access-control-allow-origin" =
        [named] ∧
      (Text.utf8 named = value ↔ gateway.origins.AcceptsValue value ∨ value = Text.utf8 "null") := by
  have handled : Handled gateway request (serve environment gateway world .compile request).1 :=
    handled_serve asked
  rw [respond_of_seen environment gateway world path asked]
  simp only [values_finish]
  rcases handled.values_allowOrigin with ⟨origin, ⟨other, found, readable, accepted⟩, values⟩ |
    ⟨rejects, values⟩
  · obtain rfl : value = other := Option.some.inj (sent.symm.trans found)
    refine ⟨origin, by simp [values], ?_⟩
    simp only [Http.utf8_of_headerText? readable, true_iff]
    exact .inl ⟨origin, readable, accepted⟩
  · refine ⟨noOrigin, by simp [values], ?_⟩
    have unaccepted : ¬ gateway.origins.AcceptsValue value := by
      rintro ⟨origin, readable, accepted⟩
      exact rejects.not_welcomes ⟨value, sent, readable, accepted⟩
    simp only [unaccepted, false_or]
    exact eq_comm

/-- The site of the job that is answered as a success is named. -/
theorem names_accepted_origin_local :
    localRequest.method = "POST" ∧ localRequest.body.length ≤ bodyLimit ∧
    Http.pathOf localRequest.target = "/compile" ∧
    localRequest.header? "origin" = some (Text.utf8 "http://localhost:3000") ∧
    ∃ named, Text.utf8 named = Text.utf8 "http://localhost:3000" ∧
      (parrot.respond memory [] localRequest).1.values "access-control-allow-origin" = [named] := by
  have fits : localRequest.body.length ≤ bodyLimit := by decide
  have path : Http.pathOf localRequest.target = "/compile" := by decide
  have sent : localRequest.header? "origin" = some (Text.utf8 "http://localhost:3000") := by cbv
  obtain ⟨named, values, same⟩ := names_accepted_origin memory parrot [] localRequest _
    (.inr ⟨rfl, fits⟩) path sent
  refine ⟨rfl, fits, path, sent, named, same.mpr (.inl ⟨"http://localhost:3000", ?_, ?_⟩), values⟩
  · cbv
  · cbv

/-- The question of a site without an origin of its own whether it may post a job. -/
def nullRequest : Http.Request :=
  ⟨"OPTIONS", "/compile", [("origin", Text.utf8 "null")], []⟩

theorem check_nullRequest :
    parrot.origins.check (originOf nullRequest) = .error (.originNotAllowed "null") := by
  have declared : originOf nullRequest = some "null" := by cbv
  have refused : parrot.origins.accepts "null" = false := by cbv
  simp [declared, OriginPolicy.check, refused]

/-- Such a site is not accepted, and is named in the response that says so. -/
theorem nullRequest_named :
    nullRequest.header? "origin" = some (Text.utf8 "null") ∧
    (parrot.respond memory [] nullRequest).1.status = 403 ∧
    (parrot.respond memory [] nullRequest).1.values "access-control-allow-origin" = ["null"] ∧
    ¬ parrot.origins.AcceptsValue (Text.utf8 "null") := by
  have asked : nullRequest.method = "OPTIONS" := rfl
  have path : Http.pathOf nullRequest.target = "/compile" := by decide
  have refused : parrot.origins.accepts "null" = false := by cbv
  have readable : Http.headerText? (Text.utf8 "null") = some "null" := by cbv
  have answered : (parrot.respond memory [] nullRequest).1 =
      finish "OPTIONS" (parrot.forbidden (.originNotAllowed "null")) := by
    rw [respond_of_seen memory parrot [] path (.inl asked)]
    simp only [serve, asked, if_true, preflight, check_nullRequest]
  refine ⟨by cbv, ?_, ?_, ?_⟩
  · rw [answered, status_finish]
    rfl
  · rw [answered]
    rfl
  · rintro ⟨origin, read, accepted⟩
    obtain rfl : _ = origin := Option.some.inj (readable.symm.trans read)
    rw [refused] at accepted
    cases accepted

end Gateway

end Polyglot
