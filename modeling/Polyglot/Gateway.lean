import Polyglot.Dispatcher
import Polyglot.Http.Message
import Polyglot.Origin
import Polyglot.Versions

/-!
# The gateway

Three routes lead to the service: jobs are posted to one, a second one reports the
versions of the toolchains, and the third one shows that the service is alive. A job
runs only if the origin of its request is accepted and its body describes a job; the
origin is looked at first, so a foreign site learns nothing from a body.

A request that reaches no route is answered without any effect. No response may be
kept by a cache. A response to HEAD is the response to GET without its body.

The gateway starts as a whole or not at all: the settings are judged before the first
backend is started, and no backend that fails to start stops the gateway. A backend whose
check is never answered while waiting is not bounded counts as one that fails to start.
-/

set_option autoImplicit false

namespace Polyglot

open Polyglot.Http (Response)
open Polyglot.Text (Bytes)

/-- The service behind its routes. -/
structure Gateway (ω σ : Type) where
  /-- What runs jobs. -/
  dispatcher : Dispatcher ω σ
  /-- What reports versions. -/
  versions : VersionCache
  /-- The origins that jobs may come from. -/
  origins : OriginPolicy

/-- A reason for not serving. -/
inductive ServiceError where
  /-- The settings are not accepted. -/
  | startup (reason : Failure)
  /-- The address cannot be listened on. -/
  | listening (reason : Host.OsError)
  deriving DecidableEq, Repr

/-- The message of a reason for not serving. -/
def ServiceError.message : ServiceError → String
  | .startup reason => "Startup error: " ++ reason.message
  | .listening reason => "Server error: " ++ reason.message

/-! ## Routes -/

/-- What a path leads to. -/
inductive Route where
  /-- The sign of life. -/
  | health
  /-- The place for jobs. -/
  | compile
  /-- The versions of the toolchains. -/
  | versions
  deriving DecidableEq, Repr

namespace Route

/-- The path of a route. -/
def path : Route → String
  | .health => "/health"
  | .compile => "/compile"
  | .versions => "/compiler_versions"

/-- The methods of a route. -/
def methods : Route → List String
  | .health => ["GET", "HEAD"]
  | .compile => ["POST", "OPTIONS"]
  | .versions => ["GET", "HEAD"]

/-- All routes. -/
def all : List Route := [.health, .compile, .versions]

/-- The route of a path, which must be the same character by character. -/
def ofPath? (path : String) : Option Route :=
  all.find? fun route => route.path == path

end Route

namespace Gateway

variable {ω σ : Type}

/-! ## Responses -/

/-- The JSON response with a body and the origin that may read it. -/
def jsonResponse (status : Http.Status) (allowOrigin : String) (body : String) : Response :=
  ⟨status,
    [("content-type", "application/json"), ("content-length", Http.lengthText body),
     ("access-control-allow-origin", allowOrigin)], body⟩

/-- The response that holds a plain text. -/
def textResponse (status : Http.Status) (body : String) : Response :=
  ⟨status,
    [("content-type", "text/plain; charset=utf-8"), ("content-length", Http.lengthText body)], body⟩

/-- The origin that may read nothing. -/
def noOrigin : String := "null"

/-- The version that every response reports. -/
def serviceVersion (gateway : Gateway ω σ) : String :=
  gateway.dispatcher.serviceVersion

/-- The response that reports a failure. -/
def failureResponse (gateway : Gateway ω σ) (status : Http.Status) (allowOrigin : String)
    (reason : Failure) : Response :=
  jsonResponse status allowOrigin (Envelope.failure reason gateway.serviceVersion).render

/-- The response to a request from an origin that is not accepted. -/
def forbidden (gateway : Gateway ω σ) (reason : Failure) : Response :=
  gateway.failureResponse 403 noOrigin reason

/-- The response to a request that reaches no route. -/
def notFound (gateway : Gateway ω σ) (method path : String) : Response :=
  gateway.failureResponse 404 noOrigin (.notFound (method ++ " " ++ path))

/-- A response with one more header. -/
def withHeader (response : Response) (name value : String) : Response :=
  { response with headers := response.headers ++ [(name, value)] }

/-- The origin of a request, if its header is a text. -/
def originOf (request : Http.Request) : Option String :=
  (request.header? "origin").bind Http.headerText?

/-! ## Handlers -/

/-- The greatest number of bytes in the body of a job. -/
def bodyLimit : Nat := 2 * 1024 * 1024

/-- The response to a body that is too long. -/
def tooLong : Response :=
  textResponse 413 "Failed to buffer the request body: length limit exceeded"

/-- The response that carries an envelope. -/
def envelopeResponse (allowOrigin : String) (envelope : Envelope) : Response :=
  jsonResponse (if envelope.isSuccess then 200 else 400) allowOrigin envelope.render

/-- Runs the job of a body for an accepted origin. -/
def compileFor (environment : Environment ω σ) (gateway : Gateway ω σ) (world : ω)
    (origin : String) (body : Bytes) : Response × Gateway ω σ × ω :=
  match Job.read body with
  | .error fault =>
    (gateway.failureResponse 400 origin (.malformedRequest fault.message), gateway, world)
  | .ok job =>
    let (envelope, dispatcher, world) := gateway.dispatcher.handle environment world job
    (envelopeResponse origin envelope, { gateway with dispatcher := dispatcher }, world)

/-- Answers a posted job. -/
def compile (environment : Environment ω σ) (gateway : Gateway ω σ) (world : ω)
    (request : Http.Request) : Response × Gateway ω σ × ω :=
  if bodyLimit < request.body.length then (tooLong, gateway, world)
  else
    let origin := originOf request
    match gateway.origins.check origin with
    | .error reason => (gateway.forbidden reason, gateway, world)
    | .ok _ => compileFor environment gateway world (origin.getD noOrigin) request.body

/-- Answers the question whether a job may be posted. -/
def preflight (gateway : Gateway ω σ) (request : Http.Request) : Response :=
  let origin := originOf request
  match gateway.origins.check origin with
  | .error reason => gateway.forbidden reason
  | .ok _ =>
    ⟨204,
      [("access-control-allow-origin", origin.getD noOrigin),
       ("access-control-allow-methods", "POST, OPTIONS"),
       ("access-control-allow-headers", "Content-Type"), ("content-length", "0")], ""⟩

/-- The member that holds the version of the service. -/
def versionMember : String := "serviceVersion"

/-- The versions with the version of the service, which hides a language of the same name. -/
def versionsText (gateway : Gateway ω σ) (versions : List (String × String)) : String :=
  let members := Table.insert versionMember gateway.serviceVersion versions
  Json.object (members.map fun member => (member.1, Json.string member.2))

/-- Reports the versions of the toolchains. -/
def reportVersions (environment : Environment ω σ) (gateway : Gateway ω σ) (world : ω) :
    Response × Gateway ω σ × ω :=
  let (versions, cache, world) := gateway.versions.get environment world
  (jsonResponse 200 "*" (gateway.versionsText versions), { gateway with versions := cache }, world)

/-- Answers a request that has reached a route. -/
def serve (environment : Environment ω σ) (gateway : Gateway ω σ) (world : ω) (route : Route)
    (request : Http.Request) : Response × Gateway ω σ × ω :=
  match route with
  | .health => (textResponse 200 "OK", gateway, world)
  | .versions => reportVersions environment gateway world
  | .compile =>
    if request.method = "OPTIONS" then (gateway.preflight request, gateway, world)
    else compile environment gateway world request

/-- Answers a request by its route. -/
def answer (environment : Environment ω σ) (gateway : Gateway ω σ) (world : ω)
    (request : Http.Request) : Response × Gateway ω σ × ω :=
  let path := Http.pathOf request.target
  match Route.ofPath? path with
  | none => (gateway.notFound request.method path, gateway, world)
  | some route =>
    if route.methods.contains request.method then serve environment gateway world route request
    else
      (withHeader (gateway.notFound request.method path) "allow" (",".intercalate route.methods),
        gateway, world)

/-- The response as it is sent: no cache keeps it, and HEAD gets no body. -/
def finish (method : String) (response : Response) : Response :=
  let response := withHeader response "cache-control" "no-cache, no-store"
  if method = "HEAD" then { response with body := "" } else response

/-- Answers a request. -/
def respond (environment : Environment ω σ) (gateway : Gateway ω σ) (world : ω)
    (request : Http.Request) : Response × Gateway ω σ × ω :=
  let (response, gateway, world) := gateway.answer environment world request
  (finish request.method response, gateway, world)

/-! ## Starting and stopping -/

/-- Starts the gateway with all backends that the settings name. The world that is left is answered
also when the settings are refused. -/
def launch (environment : Environment ω σ) (settings : Settings) (world : ω) :
    Except ServiceError (Gateway ω σ) × ω :=
  match settings.registry with
  | .error reason => (.error (.startup reason), world)
  | .ok registry =>
    let (dispatcher, world) := Dispatcher.start environment settings registry world
    (.ok ⟨dispatcher, VersionCache.fresh registry settings.backendsDir,
      OriginPolicy.ofList settings.allowedOrigins⟩, world)

/-- Starts the gateway and answers it with the world in which it serves. -/
def start (environment : Environment ω σ) (settings : Settings) (world : ω) :
    Except ServiceError (Gateway ω σ × ω) :=
  let (answer, world) := launch environment settings world
  answer.map fun gateway => (gateway, world)

/-- Releases the processes of all backends. -/
def shutdown (environment : Environment ω σ) (gateway : Gateway ω σ) (world : ω) :
    Gateway ω σ × ω :=
  let (dispatcher, world) := gateway.dispatcher.shutdown environment world
  ({ gateway with dispatcher := dispatcher }, world)

end Gateway

end Polyglot
