/-!
# Failures

A job that does not yield output, a request that is refused and a backend that cannot
be started all fail for one of the reasons listed here. Each reason has a stable code,
which clients dispatch on, and a message for people.
-/

set_option autoImplicit false

namespace Polyglot

/-- A reason for not answering with output. -/
inductive Failure where
  /-- No language is registered under the name that the caller used. -/
  | unknownLanguage (name : String)
  /-- The origin of a request is not accepted. -/
  | originNotAllowed (origin : String)
  /-- The worker process of a language has gone. -/
  | workerDead (language : String)
  /-- A backend answered something that is not a reply. -/
  | protocolError (text : String)
  /-- The submitted program could not be built, or failed. -/
  | buildOrRuntime (text : String)
  /-- No answer came within the bound. -/
  | timeout (seconds : Nat)
  /-- A request does not describe a job. -/
  | malformedRequest (text : String)
  /-- A request names no route. -/
  | notFound (route : String)
  /-- The directory of a job could not be prepared. -/
  | workspace (text : String)
  /-- A backend could not be reached. -/
  | backendUnavailable (text : String)
  /-- A program or tool is not installed. -/
  | commandNotFound (program : String)
  /-- The settings are contradictory or unreadable. -/
  | configuration (text : String)
  /-- The operating system refused an operation. -/
  | io (text : String)
  deriving DecidableEq, Repr

namespace Failure

/-- The stable identifier of a failure. -/
def code : Failure → String
  | .unknownLanguage _ => "unknown_language"
  | .originNotAllowed _ => "origin_not_allowed"
  | .workerDead _ => "worker_dead"
  | .protocolError _ => "protocol_error"
  | .buildOrRuntime _ => "build_or_runtime_failure"
  | .timeout _ => "timeout"
  | .malformedRequest _ => "malformed_request"
  | .notFound _ => "not_found"
  | .workspace _ => "workspace_error"
  | .backendUnavailable _ => "backend_unavailable"
  | .commandNotFound _ => "command_not_found"
  | .configuration _ => "config_error"
  | .io _ => "io_error"

/-- The message of a failure. -/
def message : Failure → String
  | .unknownLanguage name => "Unknown language: " ++ name
  | .originNotAllowed origin => "Origin not allowed: " ++ origin
  | .workerDead language => "Worker for " ++ language ++ " is dead"
  | .protocolError text => "Protocol error: " ++ text
  | .buildOrRuntime text => text
  | .timeout seconds => "Timeout after " ++ toString seconds ++ " seconds"
  | .malformedRequest text => "Malformed request: " ++ text
  | .notFound route => "Not found: " ++ route
  | .workspace text => "Workspace error: " ++ text
  | .backendUnavailable text => "Backend unavailable: " ++ text
  | .commandNotFound program => "Command not found: " ++ program
  | .configuration text => "Invalid configuration: " ++ text
  | .io text => "IO error: " ++ text

end Failure

end Polyglot
