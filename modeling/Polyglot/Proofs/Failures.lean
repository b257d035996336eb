import Polyglot.Dispatcher
import Polyglot.Proofs.Filing

/-!
# The codes with which an answer fails

Every stage of a job fails for few reasons: a channel because its worker has gone or is late, a
reply because it breaks the protocol or reports an exception, a directory because it cannot be
made. An answer `FailsWith` some codes when it is a value or a failure with one of these codes.
An operation that is put together from stages fails with the codes of its stages
(`FailsWith.bind`, `FailsWith.mono`), so each strategy has the codes of its stages and no others
(`Channel.failsWith_execute`, `Proxy.failsWith_execute`, `Runner.failsWith_run`).

A command that is empty is refused as a defect of the settings. No other stage fails in this way,
so a command that is not empty keeps that code out of every start and of every run.
-/

set_option autoImplicit false

namespace Polyglot

open Polyglot.Host (OsError Platform Tree)
open Polyglot.Http (Network)

/-- The codes of the failures that end a job of a strategy. -/
def Backend.failureCodes : Backend → List String
  | .worker .. => ["worker_dead", "timeout", "protocol_error", "build_or_runtime_failure"]
  | .proxied .. =>
    ["backend_unavailable", "timeout", "protocol_error", "build_or_runtime_failure"]
  | .ephemeral _ =>
    ["workspace_error", "io_error", "command_not_found", "timeout", "build_or_runtime_failure"]

/-- An answer is a value, or a failure with one of some codes. -/
def FailsWith {α : Type} (codes : List String) (answer : Except Failure α) : Prop :=
  ∀ reason, answer = .error reason → reason.code ∈ codes

namespace FailsWith

variable {α β : Type} {codes more : List String} {answer : Except Failure α}

theorem ok (codes : List String) (value : α) : FailsWith codes (.ok value : Except Failure α) := by
  rintro reason ⟨⟩

theorem error {reason : Failure} (listed : reason.code ∈ codes) :
    FailsWith codes (.error reason : Except Failure α) := by
  rintro _ ⟨⟩
  exact listed

/-- More codes may be listed than there are. -/
theorem mono (fails : FailsWith codes answer) (listed : codes ⊆ more) : FailsWith more answer :=
  fun reason failed => listed (fails reason failed)

/-- What follows an answer fails as the answer does, or in its own way. -/
theorem bind {next : α → Except Failure β} (first : FailsWith codes answer)
    (rest : ∀ value, FailsWith codes (next value)) : FailsWith codes (answer.bind next) := by
  cases answer with
  | ok value => exact rest value
  | error reason => exact error (first reason rfl)

theorem map {next : α → β} (fails : FailsWith codes answer) : FailsWith codes (answer.map next) := by
  cases answer with
  | ok value => exact ok codes (next value)
  | error reason => exact error (fails reason rfl)

end FailsWith

/-! ## Replies and streams -/

/-- A reply fails when it says nothing, or when it reports an exception. -/
theorem Reply.failsWith_output (reply : Reply) :
    FailsWith ["protocol_error", "build_or_runtime_failure"] reply.output := by
  unfold output
  split
  · exact .error (by simp [Failure.code])
  · exact .ok _ _
  · exact .error (by simp [Failure.code])

section Streams

variable {ω σ : Type}

/-- An exchange of lines fails when the worker has gone or is late. -/
theorem Channel.failsWith_exchange (processes : Processes ω σ) (channel : Channel σ) (world : ω)
    (line : Text.Bytes) :
    FailsWith ["worker_dead", "timeout"] (channel.exchange processes world line).1 := by
  simp only [exchange]
  split
  · exact .error (by simp [Failure.code])
  · split
    · exact .error (by simp [Failure.code])
    · split
      · exact .ok _ _
      · exact .error (by simp [Failure.code])
      · exact .error (by simp [Failure.code])

theorem Channel.failsWith_replyOf (language : String) (line : Text.Bytes) :
    FailsWith ["protocol_error"] (replyOf language line) := by
  unfold replyOf
  split
  · exact .ok _ _
  · exact .error (by simp [Failure.code])

/-- A job of a worker fails as the exchange does, or as the reply does. -/
theorem Channel.failsWith_execute (processes : Processes ω σ) (channel : Channel σ) (world : ω)
    (job : Job) :
    FailsWith ["worker_dead", "timeout", "protocol_error", "build_or_runtime_failure"]
      (channel.execute processes world job).1 := by
  refine .bind (.bind ?_ fun line => ?_) fun reply => ?_
  · exact (channel.failsWith_exchange processes world _).mono (by simp)
  · exact (failsWith_replyOf _ line).mono (by simp)
  · exact reply.failsWith_output.mono (by simp)

/-- A worker with a command is not started when its program is missing or refuses to start. -/
theorem Channel.failsWith_spawn (processes : Processes ω σ) (world : ω) (language : String)
    {command : CommandLine} (commanded : command ≠ []) (directory : String)
    (timeoutMs : Option Nat) :
    FailsWith ["command_not_found", "worker_dead"]
      (spawn processes world language command directory timeoutMs).1 := by
  unfold spawn
  split
  · exact absurd rfl commanded
  · split
    · exact .error (by simp [Failure.code])
    · split
      · exact .error (by simp [Failure.code, spawnFailure])
      · exact .ok _ _

theorem Proxy.failsWith_readAnswer (language : String) (status : Http.Status) (body : Text.Bytes) :
    FailsWith ["backend_unavailable", "protocol_error"] (readAnswer language status body) := by
  unfold readAnswer
  split
  · exact .ok _ _
  · split
    · exact .error (by simp [Failure.code])
    · exact .error (by simp [Failure.code])

/-- An exchange over a port fails when it breaks, when it is late, or as its answer does. -/
theorem Proxy.failsWith_conclude (proxy : Proxy σ) (exchange : Http.Exchange) :
    FailsWith ["backend_unavailable", "timeout", "protocol_error"] (proxy.conclude exchange) := by
  unfold conclude
  split
  · split
    · exact (failsWith_readAnswer _ _ _).mono (by simp)
    · exact .error (by simp [Failure.code])
  · exact .error (by simp [Failure.code])

/-- A job of a proxied backend fails as the exchange does, or as the reply does. -/
theorem Proxy.failsWith_execute (network : Network ω) (proxy : Proxy σ) (world : ω) (job : Job) :
    FailsWith ["backend_unavailable", "timeout", "protocol_error", "build_or_runtime_failure"]
      (proxy.execute network world job).1 := by
  refine .bind ?_ fun reply => ?_
  · exact (proxy.failsWith_conclude _).mono (by simp)
  · exact reply.failsWith_output.mono (by simp)

/-- A backend that is tried fails as its check does. -/
theorem Proxy.failsWith_probe (network : Network ω) (proxy : Proxy σ) (attempts : Nat)
    (check : Option ReadyCheck) (world : ω) :
    FailsWith ["backend_unavailable", "timeout", "protocol_error", "build_or_runtime_failure"]
      (proxy.probe network attempts check world).1 := by
  unfold probe
  split
  · refine .map (.bind (failsWith_execute network proxy _ _) fun output => ?_)
    unfold judge
    split
    · exact .ok _ _
    · exact .error (by simp [Failure.code])
  · exact .ok _ _

/-- A proxied backend with a command is not started when its program is missing or refuses to
start, or when its check fails. -/
theorem Proxy.failsWith_start (processes : Processes ω σ) (network : Network ω) (world : ω)
    (language : String) {command : CommandLine} (commanded : command ≠ []) (directory : String)
    (port : UInt16) (timeoutMs : Option Nat) (attempts : Nat) (check : Option ReadyCheck) :
    FailsWith ["command_not_found", "backend_unavailable", "timeout", "protocol_error",
        "build_or_runtime_failure"]
      (start processes network world language command directory port timeoutMs attempts check).1 := by
  unfold start
  split
  · exact absurd rfl commanded
  · split
    · exact .error (by simp [Failure.code])
    · split
      · exact .error (by simp [Failure.code])
      · exact (failsWith_probe network _ attempts check _).mono (by simp)

end Streams

/-! ## Builds -/

/-- An operation on the file tree fails with some codes, whatever the tree. -/
def Filing.FailsWith {α : Type} (codes : List String) (operation : Filing α) : Prop :=
  ∀ tree, Polyglot.FailsWith codes (operation.run.run tree).1

namespace Filing.FailsWith

variable {α β : Type} {codes more : List String} {first : Filing α} {next : α → Filing β}

theorem mono (fails : Filing.FailsWith codes first) (listed : codes ⊆ more) :
    Filing.FailsWith more first :=
  fun tree => (fails tree).mono listed

theorem pure (codes : List String) (value : α) :
    Filing.FailsWith codes (Pure.pure value : Filing α) :=
  fun _ => .ok codes value

theorem bind (one : Filing.FailsWith codes first)
    (rest : ∀ value, Filing.FailsWith codes (next value)) :
    Filing.FailsWith codes (first >>= next) := by
  intro tree
  rcases ran : first.run.run tree with ⟨reason | value, middle⟩
  · rw [Filing.run_bind_error ran]
    have listed := one tree
    rw [ran] at listed
    exact .error (listed reason rfl)
  · rw [Filing.run_bind_ok ran]
    exact rest value middle

theorem apply {failure : OsError → Failure} (operation : Tree → Except OsError Tree)
    (listed : ∀ reason, (failure reason).code ∈ codes) :
    Filing.FailsWith codes (Workspace.apply failure operation) := by
  intro tree
  rw [Workspace.run_apply]
  cases operation tree with
  | ok changed => exact .ok _ _
  | error reason => exact .error (listed reason)

theorem ensure {failure : OsError → Failure} (directory path : String)
    (listed : ∀ reason, (failure reason).code ∈ codes) :
    Filing.FailsWith codes (Workspace.ensure failure directory path) := by
  intro tree
  rw [Workspace.run_ensure]
  rcases tree.ensureDirectory directory path with ⟨reason | _, changed⟩
  · exact .error (listed reason)
  · exact .ok _ _

/-- A directory that cannot be made is a failure of the workspace. -/
theorem create (directory root path : String) :
    Filing.FailsWith ["workspace_error"] (Workspace.create directory root path) := by
  refine (ensure _ _ fun reason => ?_).bind fun _ => apply _ fun reason => ?_
  · simp [Failure.code]
  · split
    · simp [Failure.code]
    · simp [Failure.code]

/-- A directory for a file that cannot be made is a failure of its own, and all else that is wrong
with a file is one of the workspace. -/
theorem writeFile (directory path file contents : String) :
    Filing.FailsWith ["workspace_error", "io_error"]
      (Workspace.writeFile directory path file contents) := by
  intro tree
  rw [Workspace.run_writeFile]
  split
  · split
    · exact .error (by simp [Failure.code])
    · split
      · exact .ok _ _
      · exact .error (by simp [Failure.code])
  · exact .error (by simp [Failure.code])

theorem remove (codes : List String) (directory path : String) :
    Filing.FailsWith codes (Workspace.remove directory path) := by
  intro tree
  rw [Workspace.run_remove]
  exact .ok _ _

end Filing.FailsWith

theorem failsWith_outputOf (limit : Option Nat) (outcome : Host.Outcome) :
    FailsWith ["timeout", "build_or_runtime_failure"] (outputOf limit outcome) := by
  unfold outputOf
  split
  · exact .error (by simp [Failure.code])
  · split
    · exact .ok _ _
    · split
      · exact .error (by simp [Failure.code])
      · exact .error (by simp [Failure.code])

namespace Runner

/-- A command fails when its program is missing or refuses to start, or as it ends. -/
theorem failsWith_execute (platform : Platform) (limit : Option Nat) (path program : String)
    (arguments : List String) :
    Filing.FailsWith
      ["workspace_error", "command_not_found", "timeout", "build_or_runtime_failure"]
      (execute platform limit path program arguments) := by
  intro tree
  rw [execute, Filing.run_get_bind]
  split
  · exact .error (by simp [Failure.code])
  · rw [Filing.run_get_bind]
    split
    · exact .error (by simp [Failure.code])
    · rw [Filing.run_get_bind, Filing.run_set_bind]
      split
      · exact .ok _ _
      · rename_i failed
        exact .error ((failsWith_outputOf limit _).mono (by simp) _ failed)

/-- A job fails as its directory, its files or its command do. -/
theorem failsWith_runIn (platform : Platform) (runner : Runner) (path : String) (job : Job)
    (build : Build) (program : String) (arguments : List String) :
    Filing.FailsWith (Backend.ephemeral build).failureCodes
      (runIn platform runner path job build program arguments) := by
  refine .bind ?_ fun _ => .bind ?_ fun _ => .bind ?_ fun _ => .bind ?_ fun output => ?_
  · exact (Filing.FailsWith.create _ _ _).mono (by simp [Backend.failureCodes])
  · exact (Filing.FailsWith.writeFile _ _ _ _).mono (by simp [Backend.failureCodes])
  · exact (Filing.FailsWith.writeFile _ _ _ _).mono (by simp [Backend.failureCodes])
  · exact (failsWith_execute _ _ _ _ _).mono (by simp [Backend.failureCodes])
  · exact .bind (.remove _ _ _) fun _ => .pure _ output

/-- A build with a command fails as its job does. -/
theorem failsWith_run (platform : Platform) (runner : Runner) (clock : Nat) (tree : Tree)
    (job : Job) {build : Build} (commanded : build.command ≠ []) :
    FailsWith (Backend.ephemeral build).failureCodes
      (runner.run platform clock tree job build).1 := by
  unfold run
  split
  · contradiction
  · exact failsWith_runIn platform runner _ job build _ _ tree

end Runner

end Polyglot
