import Polyglot.Proofs.Messages
import Polyglot.Proofs.Serving
import Polyglot.Proofs.Sources

/-!
# The three strategies deliver the same text

The code of a job reaches a backend in an escaped line, in the body of a request, or in a
file, and what the backend prints comes back in an escaped line, in a body, or as captured
bytes. Each of these ways is the identity on texts, so a backend that prints the code makes
the dispatcher answer the code (`Dispatcher.delivers`), and whoever reads the answer gets the
code again.

A backend may spell its answer as it likes (`Tells`). What a build prints is the file that is
named for the code. That is not the code when both files of the build are one
(`Dispatcher.delivers_twice_named`), which `Executor.printed` takes into account.
-/

set_option autoImplicit false

namespace Polyglot

open Polyglot.Host (Action Exit Platform Tree)
open Polyglot.Http (Network)
open Polyglot.Json (IsGap SpellsObject isGap_nil)
open Polyglot.Text (Bytes)

variable {ω σ : Type}

/-! ## Backends that print -/

/-- An answer that says nothing but a result, in any spelling and with any gaps. -/
def Tells (answer : Bytes) (result : String) : Prop :=
  ∃ front object behind, IsGap front ∧ IsGap behind ∧
    SpellsObject object [("result", .text result)] ∧ answer = front ++ object ++ behind

/-- A worker decodes a request line and answers in time with a line that says the code. -/
def Channel.Prints (processes : Processes ω σ) (channel : Channel σ) (world : ω) : Prop :=
  ∃ pipes, channel.pipes = some pipes ∧ endsNow pipes.ahead = false ∧
    ∀ line request, 10 ∉ line → Request.read line = .ok request → ∃ answer left,
      seek channel.timeoutMs [] (pipes.ahead ++
        deedsOf (processes.receive world pipes.worker (line ++ [10])).2.2) = .line answer left ∧
      Tells answer request.code

/-- A server decodes the body of a request and answers in time, with status 200 and a body
that says the code. -/
def Proxy.Prints (network : Network ω) (proxy : Proxy σ) (world : ω) : Prop :=
  ∀ body request, Request.read body = .ok request → ∃ answer,
    (network.post world proxy.port body).1.transfer = .complete 200 answer ∧
    (network.post world proxy.port body).1.endsWithin proxy.timeoutMs = true ∧
    Tells answer request.code

/-- A build is prepared, and its command writes out the file that is named for the code, ends
with status zero and does not complain. -/
def Runner.Prints (platform : Platform) (runner : Runner) (clock : Nat) (tree : Tree) (job : Job)
    (build : Build) : Prop :=
  let path := runner.pathFor clock job
  ∃ filled program arguments resolved action,
    (prepare platform runner path job build).run.run tree = (.ok (), filled) ∧
    build.command = program :: arguments ∧
    platform.resolve filled program path = some resolved ∧
    platform.launch filled resolved arguments path = .ok action ∧
    ∀ contents, filled.read platform.directory (Path.join path build.entryFile) = .ok contents →
      (action.run runner.timeoutMs filled).1 = ⟨some (.status 0), contents, []⟩

namespace Executor

/-- The backend of an executor prints what it is given as the code of a job. -/
def Prints (environment : Environment ω σ) (runner : Runner) (world : ω) (job : Job) :
    Executor ω σ → Prop
  | .worker channel => channel.Prints environment.processes world
  | .proxied proxy => proxy.Prints environment.network world
  | .ephemeral build => ∃ platform clock tree,
      (environment.build runner world job build).1 =
        (runner.run platform clock tree job build).1 ∧
      runner.Prints platform clock tree job build
  | .unavailable _ => False
  | .custom _ => False

/-- What such a backend is given as the code: the code, unless both files of a build are one. -/
def printed (job : Job) : Executor ω σ → String
  | .ephemeral build =>
    if Path.components build.entryFile = Path.components build.libraryFile then job.library
    else job.code
  | _ => job.code

end Executor

/-! ## What is answered -/

/-- A line or a body that says a result is read as that result. -/
theorem Tells.read {answer : Bytes} {result : String} (tells : Tells answer result) :
    Reply.read answer = .ok ⟨some result, none, none, none⟩ := by
  obtain ⟨front, object, behind, isGapFront, isGapBehind, spelt, rfl⟩ := tells
  exact Reply.read_of_result spelt isGapFront isGapBehind

/-- A worker that prints is answered for with the code. -/
theorem Channel.Prints.execute {processes : Processes ω σ} {channel : Channel σ} {world : ω}
    (prints : channel.Prints processes world) (job : Job) :
    (channel.execute processes world job).1 = .ok job.code := by
  obtain ⟨pipes, live, running, answers⟩ := prints
  obtain ⟨answer, left, found, tells⟩ := answers _ _ (Request.newline_not_mem_render _)
    (Request.read_render (Request.ofJob channel.language job))
  obtain ⟨_, exchanged, _⟩ := exchange_of_seek live running found
  have line := congrArg Prod.fst exchanged
  simp only [Channel.execute, Channel.submit, Request.line, line, Except.bind, replyOf, tells.read]
  rfl

/-- A server that prints is answered for with the code. -/
theorem Proxy.Prints.execute {network : Network ω} {proxy : Proxy σ} {world : ω}
    (prints : proxy.Prints network world) (job : Job) :
    (proxy.execute network world job).1 = .ok job.code := by
  obtain ⟨answer, complete, inTime, tells⟩ :=
    prints _ _ (Request.read_render (Request.ofJob proxy.language job))
  simp only [Proxy.execute, Proxy.forward, Proxy.bodyOf, Proxy.conclude, inTime, if_true, complete,
    Proxy.readAnswer, tells.read]
  rfl

/-- A build that prints is answered for with what the file for the code holds. -/
theorem Runner.Prints.run {platform : Platform} {runner : Runner} {clock : Nat} {tree : Tree}
    {job : Job} {build : Build} (prints : runner.Prints platform clock tree job build) :
    (runner.run platform clock tree job build).1 =
      .ok (if Path.components build.entryFile = Path.components build.libraryFile
        then job.library else job.code) := by
  obtain ⟨filled, program, arguments, resolved, action, prepared, command, found, launched,
    writes⟩ := prints
  have outcome := writes _ (read_entry prepared)
  obtain ⟨_, made, creation, filing⟩ := Filing.run_bind_eq_ok_iff.mp prepared
  obtain ⟨_, entered, entry, library⟩ := Filing.run_bind_eq_ok_iff.mp filing
  refine run_eq_ok_iff.mpr ⟨program, arguments, _, command, made, entered, filled, resolved, action,
    .status 0, creation, entry, library, found, launched, ?_, rfl, ?_, ?_, rfl⟩
  · rw [outcome]
  · rw [outcome]
  · rw [outcome, Text.lossy_utf8]

namespace Executor

/-- An executor whose backend prints answers what the backend was given as the code. -/
theorem Prints.execute {environment : Environment ω σ} {runner : Runner} {world : ω} {job : Job}
    {executor : Executor ω σ} (prints : executor.Prints environment runner world job) :
    (executor.execute environment runner world job).1.outcome = .ok (executor.printed job) := by
  cases executor with
  | worker channel => exact Channel.Prints.execute prints job
  | proxied proxy => exact Proxy.Prints.execute prints job
  | unavailable reason => exact prints.elim
  | ephemeral build =>
      obtain ⟨platform, clock, tree, same, printing⟩ := prints
      exact same.trans printing.run
  | custom run => exact prints.elim

end Executor

namespace Dispatcher

theorem elapsedMs_le (before after : Nat) : elapsedMs before after ≤ Json.significandLimit :=
  Nat.le_pred_of_lt (Nat.mod_lt _ (by decide))

/-- **Every strategy delivers the code and returns what is printed.** A job whose language has
an executor, under whatever spelling, is answered with a success when the backend of the
executor prints what it is given as the code. The result is what was printed, and the text of
the answer is read back as the answer. -/
theorem delivers {environment : Environment ω σ} {dispatcher : Dispatcher ω σ} {world : ω}
    {job : Job} {executor : Executor ω σ}
    (served : Table.find? (normalForm job.language) dispatcher.executors = some executor)
    (prints : executor.Prints environment dispatcher.runner (environment.clock world).2 job) :
    ∃ elapsed,
      (dispatcher.handle environment world job).1 =
        .success (executor.printed job) elapsed dispatcher.serviceVersion ∧
      Envelope.read (Text.utf8 (dispatcher.handle environment world job).1.render) =
        .ok (.success (executor.printed job) elapsed dispatcher.serviceVersion) := by
  have outcome : (dispatcher.run environment (environment.clock world).2 job).1 =
      .ok (executor.printed job) := by
    rw [run_of_find? served]
    exact prints.execute
  have answered := fst_handle environment dispatcher world job
  dsimp only at answered
  rw [outcome] at answered
  refine ⟨_, answered, ?_⟩
  rw [answered]
  refine Envelope.read_render _ fun elapsed same => ?_
  obtain rfl := Option.some.inj same
  exact elapsedMs_le _ _

end Dispatcher

/-! ## A machine on which every backend prints -/

/-- To write out a file of a directory. -/
def writeOut (file place : String) : Action Exit :=
  .look fun tree =>
    match tree.read "/" (Path.join place file) with
    | .ok contents => .write .out contents (.done (.status 0))
    | .error _ => .done (.status 1)

/-- A machine on which every program writes out a file of the directory in which it runs. -/
def printing (file : String) : Platform where
  directory := "/"
  find := fun _ _ => .error .notFound
  start := fun _ _ _ _ place => .ok (writeOut file place)

/-- On the machine that writes out the file for the code, a build prints. -/
theorem Runner.prints_printing {runner : Runner} {clock : Nat} {tree filled : Tree} {job : Job}
    {build : Build} {program resolved : String}
    (prepared : (prepare (printing build.entryFile) runner (runner.pathFor clock job) job build).run.run
      tree = (.ok (), filled))
    (command : build.command = [program])
    (found : (printing build.entryFile).resolve filled program (runner.pathFor clock job) =
      some resolved)
    (noZero : [resolved, runner.pathFor clock job].any Platform.hasZero = false)
    (entered : (printing build.entryFile).enter filled (runner.pathFor clock job) =
      .ok (runner.pathFor clock job)) :
    runner.Prints (printing build.entryFile) clock tree job build := by
  have launched : (printing build.entryFile).launch filled resolved [] (runner.pathFor clock job) =
      .ok (writeOut build.entryFile (runner.pathFor clock job)) := by
    rw [Platform.launch, noZero, if_neg Bool.false_ne_true, entered]
    rfl
  refine ⟨filled, program, [], resolved, _, prepared, command, found, launched, ?_⟩
  intro contents holds
  have read : filled.read "/" (Path.join (runner.pathFor clock job) build.entryFile) =
      .ok contents := holds
  simp [Action.run, writeOut, Action.runFrom, read, Host.Progress.outcome]

/-- The answer of a backend that prints the code of a request. -/
def parrot (body : Bytes) : Bytes :=
  match Request.read body with
  | .ok request => Text.utf8 (Json.object [("result", Json.string request.code)])
  | .error _ => []

theorem tells_parrot {body : Bytes} {request : Request} (read : Request.read body = .ok request) :
    Tells (parrot body) request.code := by
  have written : List.Forall₂ Json.Written [("result", Json.string request.code)]
      [("result", .text request.code)] := .cons (.text _ _) .nil
  refine ⟨[], _, [], isGap_nil, isGap_nil, Json.spellsObject_object written, ?_⟩
  rw [List.append_nil, List.nil_append, parrot, read]

theorem newline_not_mem_parrot (body : Bytes) : 10 ∉ parrot body := by
  unfold parrot
  split
  · refine newline_not_mem_utf8 (Json.newline_not_mem_object ?_)
    intro entry member
    rw [List.mem_singleton.mp member, Json.string, String.toList_ofList]
    exact Json.newline_not_mem_stringChars _
  · exact List.not_mem_nil

/-- On that machine, every worker and every server prints the code of its requests. -/
def parroting (file : String) : Environment (World Unit) Unit where
  processes :=
    { resolve := fun _ _ _ => none
      launch := fun _ _ _ _ => .error .notFound
      receive := fun world _ line => (world, (), [.output (parrot line.dropLast ++ [10])])
      finish := fun world _ => (world, (), []) }
  network :=
    { accepts := fun world _ _ => (true, world)
      post := fun world _ body => (⟨.complete 200 (parrot body), some 0⟩, world) }
  run world _ _ _ := (.error .notFound, world)
  build := World.build (printing file)
  clock := World.clock

/-- A worker of which nothing is unread prints there. -/
theorem Channel.prints_parroting {channel : Channel Unit} {pipes : Pipes Unit}
    (live : channel.pipes = some pipes) (idle : pipes.ahead = []) (file : String)
    (world : World Unit) : channel.Prints (parroting file).processes world := by
  refine ⟨pipes, live, by rw [idle]; rfl, fun line request _ read => ⟨parrot line, [], ?_, tells_parrot read⟩⟩
  have written : deedsOf ((parroting file).processes.receive world pipes.worker (line ++ [10])).2.2 =
      (parrot line ++ 10 :: []).map .byte ++ [] := by
    simp [parroting, deedsOf]
  rw [idle, List.nil_append, written, seek_of_line _ (newline_not_mem_parrot line)]
  rfl

namespace Dispatcher

/-- One language for every strategy. -/
def strategies : Dispatcher (World Unit) Unit :=
  ⟨[("body", .proxied ⟨"Body", 8000, some 1000, none⟩), ("file", .ephemeral Runner.twoFiles),
    ("line", .worker ⟨"Line", some 1000, some ⟨(), [], []⟩⟩)], ⟨"/work", some 1000, 0⟩, "1"⟩

/-- A code with a quote, a backslash, a line break, a control character and a letter beyond
the Latin ones. -/
def oddCode : String := "\"\\\n\x00λ"

/-- Each strategy delivers that code. -/
theorem delivers_strategies : ∃ line body file,
    (strategies.handle (parroting "main.txt") ⟨Runner.sharedRoot, (), 7⟩
      ⟨" LINE", oddCode, "", "", ""⟩).1 = .success oddCode line "1" ∧
    (strategies.handle (parroting "main.txt") ⟨Runner.sharedRoot, (), 7⟩
      ⟨"Body ", oddCode, "", "", ""⟩).1 = .success oddCode body "1" ∧
    (strategies.handle (parroting "main.txt") ⟨Runner.sharedRoot, (), 7⟩
      ⟨"file", oddCode, "", "", ""⟩).1 = .success oddCode file "1" := by
  have worker : Table.find? (normalForm " LINE") strategies.executors =
      some (.worker ⟨"Line", some 1000, some ⟨(), [], []⟩⟩) := by
    rw [show normalForm " LINE" = "line" by decide +kernel]
    rfl
  have proxied : Table.find? (normalForm "Body ") strategies.executors =
      some (.proxied ⟨"Body", 8000, some 1000, none⟩) := by
    rw [show normalForm "Body " = "body" by decide +kernel]
    rfl
  have built : Table.find? (normalForm "file") strategies.executors =
      some (.ephemeral Runner.twoFiles) := by
    rw [show normalForm "file" = "file" by decide +kernel]
    rfl
  obtain ⟨filled, prepared, found, entered⟩ : ∃ filled,
      (Runner.prepare (printing "main.txt") strategies.runner
        (strategies.runner.pathFor 8 ⟨"file", oddCode, "", "", ""⟩) ⟨"file", oddCode, "", "", ""⟩
        Runner.twoFiles).run.run Runner.sharedRoot = (.ok (), filled) ∧
      (printing "main.txt").resolve filled "./show"
        (strategies.runner.pathFor 8 ⟨"file", oddCode, "", "", ""⟩) =
          some "/work/8_file/show" ∧
      (printing "main.txt").enter filled
        (strategies.runner.pathFor 8 ⟨"file", oddCode, "", "", ""⟩) =
          .ok (strategies.runner.pathFor 8 ⟨"file", oddCode, "", "", ""⟩) :=
    ⟨_, Prod.ext (by decide +kernel) rfl, by decide +kernel, by decide +kernel⟩
  have noZero : ["/work/8_file/show", strategies.runner.pathFor 8 ⟨"file", oddCode, "", "", ""⟩].any
      Platform.hasZero = false := by
    decide +kernel
  have prints : strategies.runner.Prints (printing "main.txt") 8 Runner.sharedRoot
      ⟨"file", oddCode, "", "", ""⟩ Runner.twoFiles :=
    @Runner.prints_printing strategies.runner 8 Runner.sharedRoot filled ⟨"file", oddCode, "", "", ""⟩
      Runner.twoFiles "./show" "/work/8_file/show" prepared rfl found noZero entered
  obtain ⟨line, first, _⟩ := @delivers _ _ (parroting "main.txt") strategies
    ⟨Runner.sharedRoot, (), 7⟩ ⟨" LINE", oddCode, "", "", ""⟩ _ worker
    (Channel.prints_parroting rfl rfl "main.txt" _)
  obtain ⟨body, second, _⟩ := @delivers _ _ (parroting "main.txt") strategies
    ⟨Runner.sharedRoot, (), 7⟩ ⟨"Body ", oddCode, "", "", ""⟩ _ proxied
    fun body request read => ⟨parrot body, rfl, rfl, tells_parrot read⟩
  obtain ⟨file, third, _⟩ := @delivers _ _ (parroting "main.txt") strategies
    ⟨Runner.sharedRoot, (), 7⟩ ⟨"file", oddCode, "", "", ""⟩ _ built
    ⟨printing "main.txt", 8, Runner.sharedRoot, rfl, prints⟩
  exact ⟨line, body, file, first, second, third⟩

/-- A language that is built from two names of one file. -/
def oneFile : Dispatcher (World Unit) Unit :=
  ⟨[("shell", .ephemeral Runner.twiceNamed)], ⟨"/work", some 1000, 0⟩, "1"⟩

/-- The registry takes such a build. It prints the file that is named for the code, and yet
the job is answered with its library. -/
theorem delivers_twice_named :
    Registry.ofList [("Shell", .ephemeral Runner.twiceNamed)] =
      .ok ⟨[("shell", ⟨"Shell", .ephemeral Runner.twiceNamed⟩)]⟩ ∧
    Executor.Prints (parroting "src/main.txt") oneFile.runner ⟨Runner.sharedRoot, (), 8⟩
      Runner.plainJob (.ephemeral Runner.twiceNamed) ∧
    (oneFile.handle (parroting "src/main.txt") ⟨Runner.sharedRoot, (), 7⟩ Runner.plainJob).1 =
      .success "Y" 0 "1" ∧
    Runner.plainJob.code = "X" := by
  obtain ⟨filled, prepared, found, entered⟩ : ∃ filled,
      (Runner.prepare (printing "src/main.txt") oneFile.runner
        (oneFile.runner.pathFor 8 Runner.plainJob) Runner.plainJob Runner.twiceNamed).run.run
        Runner.sharedRoot = (.ok (), filled) ∧
      (printing "src/main.txt").resolve filled "./show"
        (oneFile.runner.pathFor 8 Runner.plainJob) = some "/work/8_shell/show" ∧
      (printing "src/main.txt").enter filled (oneFile.runner.pathFor 8 Runner.plainJob) =
          .ok (oneFile.runner.pathFor 8 Runner.plainJob) :=
    ⟨_, Prod.ext (by decide +kernel) rfl, by decide +kernel, by decide +kernel⟩
  have noZero : ["/work/8_shell/show", oneFile.runner.pathFor 8 Runner.plainJob].any
      Platform.hasZero = false := by
    decide +kernel
  refine ⟨by decide +kernel, ⟨printing "src/main.txt", 8, Runner.sharedRoot, rfl, ?_⟩,
    by decide +kernel, rfl⟩
  exact @Runner.prints_printing oneFile.runner 8 Runner.sharedRoot filled Runner.plainJob
    Runner.twiceNamed "./show" "/work/8_shell/show" prepared rfl found noZero entered

end Dispatcher

end Polyglot
