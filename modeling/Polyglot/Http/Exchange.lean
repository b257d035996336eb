import Polyglot.Host.OsError
import Polyglot.Http.Status
import Polyglot.Text.Utf8

/-!
# Exchanges over the loopback interface

A request that is sent to a port either brings a complete answer or breaks on the way:
nobody can be reached, the connection ends before an answer begins, or it ends inside
the body of the answer. An exchange takes some time, and may take forever.

How the servers behind the ports behave is left open: a network is any family of state
machines, in a world that they may change.
-/

set_option autoImplicit false

namespace Polyglot.Http

open Polyglot.Host (OsError)
open Polyglot.Text (Bytes)

/-- What breaks an exchange. -/
inductive Break where
  /-- No connection could be made. -/
  | unconnected (reason : OsError)
  /-- The connection ended before an answer began. -/
  | unanswered
  /-- The connection ended inside the body of the answer. -/
  | truncated
  deriving DecidableEq, Repr

/-- The description of a break in an exchange with an address. -/
def Break.message (address : String) : Break → String
  | .unconnected reason =>
    "error sending request for url (" ++ address ++
      "): error trying to connect: tcp connect error: " ++ reason.message
  | .unanswered =>
    "error sending request for url (" ++ address ++
      "): connection closed before message completed"
  | .truncated =>
    "request or response body error: error reading a body from connection: " ++
      "end of file before message length reached"

/-- What an exchange brings. -/
inductive Transfer where
  /-- A complete answer. -/
  | complete (status : Status) (body : Bytes)
  /-- No complete answer. -/
  | broken (what : Break)
  deriving DecidableEq, Repr

/-- The course of an exchange. -/
structure Exchange where
  /-- What it brings in the end. -/
  transfer : Transfer
  /-- The milliseconds it takes; none if it never ends. -/
  duration : Option Nat
  deriving DecidableEq, Repr

/-- Whether an exchange ends within a bound on its time. -/
def Exchange.endsWithin (exchange : Exchange) (limit : Option Nat) : Bool :=
  match exchange.duration, limit with
  | none, _ => false
  | some _, none => true
  | some duration, some limit => duration < limit

/-- The servers behind the ports of the loopback interface. -/
structure Network (ω : Type) where
  /-- Whether a port accepts a connection after so many milliseconds of waiting. -/
  accepts : ω → UInt16 → Nat → Bool × ω
  /-- Sends a body to a port. -/
  post : ω → UInt16 → Bytes → Exchange × ω

namespace Network

/-- The network on which no port can be reached, for the given reason. -/
def unreachable {ω : Type} (reason : OsError) : Network ω where
  accepts world _ _ := (false, world)
  post world _ _ := (⟨.broken (.unconnected reason), some 0⟩, world)

end Network

end Polyglot.Http
