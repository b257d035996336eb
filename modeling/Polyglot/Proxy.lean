import Polyglot.Backend.Spec
import Polyglot.Http.Exchange
import Polyglot.Process
import Polyglot.Reply
import Polyglot.Text.Affix
import Polyglot.Text.Blank
import Polyglot.Text.Quoted

/-!
# Backends behind a loopback port

A proxied backend is a process that serves requests over a port. Its answer counts when
a complete body arrives that is a reply, whatever the status. Everything else is a
failure: a timeout, an answer that breaks the protocol, or a backend that cannot be
reached. No failure changes the backend, so each exchange is judged on its own.

A backend is started in three steps: its process is launched, its port is tried a
bounded number of times, and once the port accepts a connection a job with a known
answer is sent. A port that never opens is no reason to give the backend up; a wrong
answer is.
-/

set_option autoImplicit false

namespace Polyglot

open Polyglot.Http (Exchange Network)
open Polyglot.Text (Bytes)

/-- A backend behind a port. -/
structure Proxy (σ : Type) where
  /-- The language as it was registered. -/
  language : String
  /-- The port on the loopback interface. -/
  port : UInt16
  /-- The bound on an exchange in milliseconds. -/
  timeoutMs : Option Nat
  /-- The process of the backend, as long as it is owned. -/
  child : Option σ

namespace Proxy

variable {ω σ : Type}

/-- A backend that is already listening and whose process belongs to somebody else. -/
def attach (language : String) (port : UInt16) (timeoutMs : Option Nat) : Proxy σ :=
  ⟨language, port, timeoutMs, none⟩

/-- The decimal digits of a port. -/
def portText (port : UInt16) : String :=
  toString port.toNat

/-- The port of an address that names none. -/
def usualPort : UInt16 := 80

/-- The address to which jobs are sent; the usual port is left out. -/
def address (port : UInt16) : String :=
  let authority := if port = usualPort then "127.0.0.1" else "127.0.0.1:" ++ portText port
  "http://" ++ authority ++ "/compile"

/-! ## Jobs -/

/-- The body that is sent for a job. -/
def bodyOf (proxy : Proxy σ) (job : Job) : Bytes :=
  Text.utf8 (Request.ofJob proxy.language job).render

/-- What a complete answer means. -/
def readAnswer (language : String) (status : Http.Status) (body : Bytes) : Except Failure Reply :=
  match Reply.read body with
  | .ok reply => .ok reply
  | .error fault =>
    if status.isSuccess then
      .error (.protocolError ("Malformed reply from " ++ language ++ " backend: " ++ fault.message))
    else
      .error (.backendUnavailable
        (language ++ " backend answered " ++ status.text ++ ": " ++ Text.lossy body))

/-- What an exchange means. -/
def conclude (proxy : Proxy σ) (exchange : Exchange) : Except Failure Reply :=
  if exchange.endsWithin proxy.timeoutMs then
    match exchange.transfer with
    | .complete status body => readAnswer proxy.language status body
    | .broken what =>
      .error (.backendUnavailable (proxy.language ++ ": " ++ what.message (address proxy.port)))
  else .error (.timeout (proxy.timeoutMs.getD 0 / 1000))

/-- Sends a job and answers the reply to it. -/
def forward (network : Network ω) (proxy : Proxy σ) (world : ω) (job : Job) :
    Except Failure Reply × ω :=
  let (exchange, world) := network.post world proxy.port (proxy.bodyOf job)
  (proxy.conclude exchange, world)

/-- Runs a job and answers its output. -/
def execute (network : Network ω) (proxy : Proxy σ) (world : ω) (job : Job) :
    Except Failure String × ω :=
  let (reply, world) := proxy.forward network world job
  (reply.bind Reply.output, world)

/-! ## Readiness -/

/-- The milliseconds of waiting before an attempt, counted from one. -/
def patience (attempt : Nat) : Nat :=
  100 * attempt

/-- Tries the port for the given number of attempts, of which the first has the given number. -/
def waitReadyFrom (network : Network ω) (port : UInt16) : Nat → Nat → ω → Bool × ω
  | _, 0, world => (false, world)
  | attempt, left + 1, world =>
    match network.accepts world port (patience attempt) with
    | (true, world) => (true, world)
    | (false, world) => waitReadyFrom network port (attempt + 1) left world

/-- Whether the port accepts a connection within a number of attempts. -/
def waitReady (network : Network ω) (proxy : Proxy σ) (attempts : Nat) (world : ω) : Bool × ω :=
  waitReadyFrom network proxy.port 1 attempts world

/-- The job of a check. -/
def checkJob (language : String) (check : ReadyCheck) : Job :=
  ⟨language, check.code, "", check.className, check.methodName⟩

/-- Whether an output is the known answer of a check. -/
def passes (check : ReadyCheck) (output : String) : Bool :=
  Text.trimEnd output == check.expected

/-- Accepts the output for a check, or says how it differs. -/
def judge (language : String) (check : ReadyCheck) (output : String) : Except Failure Unit :=
  if passes check output then .ok ()
  else .error (.backendUnavailable
    (language ++ " backend failed its self-test: expected " ++ Text.quoted check.expected ++
      ", got " ++ Text.quoted output))

/-- Sends the job of a check and judges its output. -/
def selfTest (network : Network ω) (proxy : Proxy σ) (check : ReadyCheck) (world : ω) :
    Except Failure Unit × ω :=
  let (output, world) := proxy.execute network world (checkJob proxy.language check)
  (output.bind (judge proxy.language check), world)

/-! ## The process -/

/-- The place of the port in an argument. -/
def placeholder : String := "\x7bport\x7d"

/-- An argument with the port in its place. -/
def fillPort (port : UInt16) (argument : String) : String :=
  Text.substitute placeholder (portText port) argument

/-- Tries a launched backend, and sends it the job of a check once it is ready. -/
def probe (network : Network ω) (proxy : Proxy σ) (attempts : Nat) (check : Option ReadyCheck)
    (world : ω) : Except Failure (Proxy σ) × ω :=
  match proxy.waitReady network attempts world, check with
  | (true, world), some check =>
    let (verdict, world) := proxy.selfTest network check world
    (verdict.map fun _ => proxy, world)
  | (_, world), _ => (.ok proxy, world)

/-- Starts a backend in a directory. -/
def start (processes : Processes ω σ) (network : Network ω) (world : ω) (language : String)
    (command : CommandLine) (directory : String) (port : UInt16) (timeoutMs : Option Nat)
    (attempts : Nat) (check : Option ReadyCheck) : Except Failure (Proxy σ) × ω :=
  match command with
  | [] => (.error (.configuration (language ++ ": empty start command")), world)
  | program :: arguments =>
    match processes.resolve world program directory with
    | none => (.error (.commandNotFound program), world)
    | some path =>
      match processes.launch world path (arguments.map (fillPort port)) directory with
      | .error reason =>
        (.error (.backendUnavailable
          (language ++ ": failed to spawn '" ++ path ++ "': " ++ reason.message)), world)
      | .ok (world, child, _) =>
        probe network ⟨language, port, timeoutMs, some child⟩ attempts check world

/-- Ends the input of the process, which the backend then no longer owns. -/
def shutdown (processes : Processes ω σ) (proxy : Proxy σ) (world : ω) : Proxy σ × ω :=
  match proxy.child with
  | none => (proxy, world)
  | some child => ({ proxy with child := none }, (processes.finish world child).1)

end Proxy

end Polyglot
