import Polyglot.Failure
import Polyglot.Job

/-!
# Replies of long-lived backends

A reply carries a result, or the text of an exception that the program raised. An
exception counts even when a result comes with it, and a reply with neither breaks the
protocol. An error code and a version may come along and change nothing.
-/

set_option autoImplicit false

namespace Polyglot

open Polyglot.Json (Schema Datum Row Fault)

/-- What a long-lived backend answers. -/
structure Reply where
  /-- The captured output. -/
  result : Option String
  /-- The text of an exception. -/
  exception : Option String
  /-- The code of an error. -/
  errorCode : Option String
  /-- The version of the backend. -/
  backendVersion : Option String
  deriving DecidableEq, Repr

/-- The text of a field, if it is neither null nor left out. -/
def Json.Datum.text? : Option Datum → Option String
  | some (.text value) => some value
  | _ => none

/-- The natural of a field, if it is neither null nor left out. -/
def Json.Datum.natural? : Option Datum → Option Nat
  | some (.natural value) => some value
  | _ => none

namespace Reply

/-- The members of a reply, each of which may be left out. -/
def schema : Schema where
  label := "struct WorkerReply"
  fields :=
    [⟨"result", .optionalText, false, false⟩, ⟨"exceptionText", .optionalText, false, false⟩,
     ⟨"errorCode", .optionalText, false, false⟩, ⟨"backendVersion", .optionalText, false, false⟩]

/-- The reply that a row of its fields describes. -/
def ofRow : Row → Reply
  | [result, exception, errorCode, backendVersion] =>
    ⟨Datum.text? result, Datum.text? exception, Datum.text? errorCode, Datum.text? backendVersion⟩
  | _ => ⟨none, none, none, none⟩

/-- The reply that a JSON text describes. -/
def read (text : Text.Bytes) : Except Fault Reply :=
  (schema.read text).map ofRow

/-- The captured output, or the failure that the backend reports. -/
def output (reply : Reply) : Except Failure String :=
  match reply.exception, reply.result with
  | some text, _ => .error (.buildOrRuntime text)
  | none, some result => .ok result
  | none, none => .error (.protocolError "reply carries neither result nor exceptionText")

end Reply

end Polyglot
