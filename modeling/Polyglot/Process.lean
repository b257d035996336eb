import Polyglot.Host.Platform

/-!
# Processes

A long-lived backend is a process. The service starts it, writes to its standard input
and notices what it does. How a process behaves is left open: it is any state machine
that reacts to bytes on its input, or to the end of its input, by a finite run of
events, in a world that it may change.

The processes of a machine are one family of such state machines; their world is the
file tree.
-/

set_option autoImplicit false

namespace Polyglot

open Polyglot.Host (Event OsError Platform Tree Waiting)
open Polyglot.Text (Bytes)

/-- How processes are started in a world and how they react. -/
structure Processes (ω σ : Type) where
  /-- The path at which a program is started in a directory, if it is installed. -/
  resolve : ω → String → String → Option String
  /-- Starts the program at a path with arguments in a directory. -/
  launch : ω → String → List String → String → Except OsError (ω × σ × List Event)
  /-- What happens when bytes are written to the standard input of a process. -/
  receive : ω → σ → Bytes → ω × σ × List Event
  /-- What happens when the standard input of a process ends. -/
  finish : ω → σ → ω × σ × List Event

namespace Host

/-- The processes of a machine. -/
def processes (platform : Platform) : Processes Tree Waiting where
  resolve := platform.resolve
  launch tree program arguments directory := do
    let action ← platform.launch tree program arguments directory
    .ok (action.proceed tree [] false [])
  receive tree waiting bytes := waiting.action.proceed tree (waiting.input ++ bytes) false []
  finish tree waiting := waiting.action.proceed tree waiting.input true []

end Host

end Polyglot
