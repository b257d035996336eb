import Polyglot.Json.Record
import Polyglot.Json.Writer

/-!
# Jobs and the requests made from them

A job is one snippet to run: its language as the caller spells it, the code, a library
source that goes with it, and an entry class and method for backends that call a
method instead of running a program. A request is what a long-lived backend receives
for a job; it names the language as it was registered.

Both are written as JSON objects with every member in a fixed order, and both are read
by the rules for records.
-/

set_option autoImplicit false

namespace Polyglot

open Polyglot.Json (Field Schema Datum Row Fault)

/-- One snippet to run. -/
structure Job where
  /-- The language as the caller spells it. -/
  language : String
  /-- The submitted source. -/
  code : String
  /-- A library source that goes with the code. -/
  library : String
  /-- The class that holds the entry method. -/
  entryClass : String
  /-- The entry method. -/
  entryMethod : String
  deriving DecidableEq, Repr, Inhabited

/-- What a long-lived backend receives for a job. -/
structure Request where
  /-- What the backend is to do. -/
  command : String
  /-- The language as it was registered. -/
  language : String
  /-- The submitted source. -/
  code : String
  /-- A library source that goes with the code. -/
  library : String
  /-- The class that holds the entry method. -/
  entryClass : String
  /-- The entry method. -/
  entryMethod : String
  deriving DecidableEq, Repr

/-- The text of a field, or the empty text if it was left out. -/
def Json.Datum.textOrEmpty : Option Datum → String
  | some (.text value) => value
  | _ => ""

namespace Job

/-- The job without any text. -/
def blank : Job := ⟨"", "", "", "", ""⟩

/-- The members of a job; the language and the code must be given. -/
def schema : Schema where
  label := "struct Job"
  fields :=
    [⟨"lang", .text, true, true⟩, ⟨"code", .text, true, true⟩,
     ⟨"stdlibCode", .text, false, false⟩, ⟨"className", .text, false, false⟩,
     ⟨"methodName", .text, false, false⟩]

/-- The job that a row of its fields describes. -/
def ofRow : Row → Job
  | [language, code, library, entryClass, entryMethod] =>
    ⟨Datum.textOrEmpty language, Datum.textOrEmpty code, Datum.textOrEmpty library,
      Datum.textOrEmpty entryClass, Datum.textOrEmpty entryMethod⟩
  | _ => blank

/-- The job that a JSON text describes. -/
def read (text : Text.Bytes) : Except Fault Job :=
  (schema.read text).map ofRow

/-- The JSON text of a job. -/
def render (job : Job) : String :=
  Json.object
    [("lang", Json.string job.language), ("code", Json.string job.code),
     ("stdlibCode", Json.string job.library), ("className", Json.string job.entryClass),
     ("methodName", Json.string job.entryMethod)]

end Job

namespace Request

/-- The request for a job under the given registered language. -/
def ofJob (language : String) (job : Job) : Request :=
  ⟨"compile", language, job.code, job.library, job.entryClass, job.entryMethod⟩

/-- The members of a request, all of which must be given. -/
def schema : Schema where
  label := "struct WorkerRequest"
  fields :=
    [⟨"cmd", .text, true, true⟩, ⟨"lang", .text, true, true⟩, ⟨"code", .text, true, true⟩,
     ⟨"stdlibCode", .text, true, true⟩, ⟨"className", .text, true, true⟩,
     ⟨"methodName", .text, true, true⟩]

/-- The request that a row of its fields describes. -/
def ofRow : Row → Request
  | [command, language, code, library, entryClass, entryMethod] =>
    ⟨Datum.textOrEmpty command, Datum.textOrEmpty language, Datum.textOrEmpty code,
      Datum.textOrEmpty library, Datum.textOrEmpty entryClass, Datum.textOrEmpty entryMethod⟩
  | _ => ⟨"", "", "", "", "", ""⟩

/-- The request that a JSON text describes. -/
def read (text : Text.Bytes) : Except Fault Request :=
  (schema.read text).map ofRow

/-- The JSON text of a request, which is also the line that a worker receives. -/
def render (request : Request) : String :=
  Json.object
    [("cmd", Json.string request.command), ("lang", Json.string request.language),
     ("code", Json.string request.code), ("stdlibCode", Json.string request.library),
     ("className", Json.string request.entryClass),
     ("methodName", Json.string request.entryMethod)]

end Request

end Polyglot
