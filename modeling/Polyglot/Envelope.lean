import Polyglot.Reply

/-!
# Response envelopes

Every job is answered by an envelope of one shape, whichever backend ran it. A success
carries the result and the elapsed time, a failure the message and the code of the
failure, and both the version of the service. Absent members are not written.
-/

set_option autoImplicit false

namespace Polyglot

open Polyglot.Json (Schema Datum Row Fault)

/-- The answer to a job. -/
structure Envelope where
  /-- The captured output. -/
  result : Option String
  /-- The message of a failure. -/
  exception : Option String
  /-- The code of a failure. -/
  errorCode : Option String
  /-- The duration of the job in milliseconds. -/
  elapsedMs : Option Nat
  /-- The version of the service. -/
  serviceVersion : String
  deriving DecidableEq, Repr

namespace Envelope

/-- The envelope of a result. -/
def success (result : String) (elapsedMs : Nat) (serviceVersion : String) : Envelope :=
  ⟨some result, none, none, some elapsedMs, serviceVersion⟩

/-- The envelope of a failure. -/
def failure (reason : Failure) (serviceVersion : String) : Envelope :=
  ⟨none, some reason.message, some reason.code, none, serviceVersion⟩

/-- The envelope of an outcome. -/
def ofOutcome (elapsedMs : Nat) (serviceVersion : String) : Except Failure String → Envelope
  | .ok result => success result elapsedMs serviceVersion
  | .error reason => failure reason serviceVersion

/-- Whether the envelope reports a success. -/
def isSuccess (envelope : Envelope) : Bool :=
  envelope.exception.isNone

/-- The members of an envelope. An array must have all of them, an object only the version. -/
def schema : Schema where
  label := "struct ResponseEnvelope"
  fields :=
    [⟨"result", .optionalText, false, true⟩, ⟨"exceptionText", .optionalText, false, true⟩,
     ⟨"errorCode", .optionalText, false, true⟩, ⟨"elapsedMs", .optionalNatural, false, true⟩,
     ⟨"serviceVersion", .text, true, true⟩]

/-- The envelope that a row of its fields describes. -/
def ofRow : Row → Envelope
  | [result, exception, errorCode, elapsedMs, serviceVersion] =>
    ⟨Datum.text? result, Datum.text? exception, Datum.text? errorCode,
      Datum.natural? elapsedMs, Datum.textOrEmpty serviceVersion⟩
  | _ => ⟨none, none, none, none, ""⟩

/-- The envelope that a JSON text describes. -/
def read (text : Text.Bytes) : Except Fault Envelope :=
  (schema.read text).map ofRow

/-- The members that are written, in order. -/
def members (envelope : Envelope) : List (String × String) :=
  let optional (name : String) (value : Option String) : List (String × String) :=
    value.toList.map fun text => (name, Json.string text)
  optional "result" envelope.result ++ optional "exceptionText" envelope.exception ++
    optional "errorCode" envelope.errorCode ++
    (envelope.elapsedMs.toList.map fun elapsed => ("elapsedMs", toString elapsed)) ++
    [("serviceVersion", Json.string envelope.serviceVersion)]

/-- The JSON text of an envelope. -/
def render (envelope : Envelope) : String :=
  Json.object envelope.members

end Envelope

end Polyglot
