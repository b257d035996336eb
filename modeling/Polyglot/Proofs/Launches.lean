import Polyglot.Proofs.Placeholders
import Polyglot.Proofs.Readiness

/-!
# What is launched to start a backend

The processes that are launched can be listed beside the world (`Environment.listing`), which changes
nothing else. A start that launches its backend lists one launch
(`Proxy.Plan.start_listing_of_launched`). The launch carries out the start command
(`Launch.CarriesOut`) with the port filled in for every placeholder of an argument. There are as many
arguments as before, in the same order.

The program is not filled in but looked up as it stands. So the command is filled in as a whole where
its program has no placeholder (`Proxy.Plan.start_fills_arguments`), and a placeholder of the program
remains (`Proxy.Plan.start_leaves_program`).
-/

set_option autoImplicit false

namespace Polyglot

variable {ω σ : Type}

/-! ## Launches -/

/-- A process that is launched. -/
structure Launch where
  /-- The path of its program. -/
  path : String
  /-- Its arguments. -/
  arguments : List String
  /-- The directory in which it is started. -/
  directory : String
  deriving DecidableEq

/-- A launch carries out a command in a directory: the program is started where it is found, with the
arguments as they stand. -/
def Launch.CarriesOut (launch : Launch) (processes : Processes ω σ) (world : ω)
    (directory : String) : CommandLine → Prop
  | [] => False
  | program :: arguments =>
    processes.resolve world program directory = some launch.path ∧
      launch.arguments = arguments ∧ launch.directory = directory

/-- The environment in a world beside which every launch is listed, the latest one last. -/
def Environment.listing (environment : Environment ω σ) :
    Environment (ω × List Launch) σ where
  processes :=
    { resolve := fun world => environment.processes.resolve world.1
      launch := fun world path arguments directory => do
        let (after, child, events) ←
          environment.processes.launch world.1 path arguments directory
        .ok ((after, world.2 ++ [⟨path, arguments, directory⟩]), child, events)
      receive := fun world child bytes =>
        let (after, child', events) := environment.processes.receive world.1 child bytes
        ((after, world.2), child', events)
      finish := fun world child =>
        let (after, child', events) := environment.processes.finish world.1 child
        ((after, world.2), child', events) }
  network :=
    { accepts := fun world port patience =>
        let (accepted, after) := environment.network.accepts world.1 port patience
        (accepted, (after, world.2))
      post := fun world port body =>
        let (exchange, after) := environment.network.post world.1 port body
        (exchange, (after, world.2)) }
  run world program arguments directory :=
    let (outcome, after) := environment.run world.1 program arguments directory
    (outcome, (after, world.2))
  build runner world job build :=
    let (outcome, runner, after) := environment.build runner world.1 job build
    (outcome, runner, (after, world.2))
  clock world :=
    let (time, after) := environment.clock world.1
    (time, (after, world.2))

namespace Proxy

section Listing

variable {environment : Environment ω σ} {world : ω} {listed : List Launch}

theorem waitReadyFrom_listing (port : UInt16) (attempt left : Nat) :
    waitReadyFrom environment.listing.network port attempt left (world, listed) =
      let plain := waitReadyFrom environment.network port attempt left world
      (plain.1, plain.2, listed) := by
  induction left generalizing attempt world with
  | zero => rfl
  | succ left ih =>
      have tried : environment.listing.network.accepts (world, listed) port (patience attempt) =
          ((environment.network.accepts world port (patience attempt)).1,
            (environment.network.accepts world port (patience attempt)).2, listed) := rfl
      rw [waitReadyFrom, waitReadyFrom, tried]
      rcases environment.network.accepts world port (patience attempt) with ⟨accepted, after⟩
      cases accepted with
      | true => rfl
      | false => exact ih (attempt + 1)

/-- A launched backend is tried and checked as ever, and nothing more is launched. -/
theorem probe_listing (proxy : Proxy σ) (attempts : Nat) (check : Option ReadyCheck) :
    proxy.probe environment.listing.network attempts check (world, listed) =
      let plain := proxy.probe environment.network attempts check world
      (plain.1, plain.2, listed) := by
  simp only [probe, waitReady, waitReadyFrom_listing]
  rcases waitReadyFrom environment.network proxy.port 1 attempts world with ⟨opened, after⟩
  cases opened with
  | false => rfl
  | true =>
      cases check with
      | none => rfl
      | some check => rfl

end Listing

/-! ## The port -/

theorem toList_placeholder :
    placeholder.toList = ['\x7b', 'p', 'o', 'r', 't', '\x7d'] := by
  decide +kernel

/-- The port can be told from its placeholder, which has no digits. -/
theorem clear_portText (port : UInt16) : Text.Clear placeholder (portText port) where
  begins := ⟨_, _, toList_placeholder, by decide⟩
  nonempty := Nat.repr_ne_empty
  apart := by
    intro c member
    rw [portText, Nat.toString_eq_ofList_toDigits, String.toList_ofList] at member
    have digit : c.isDigit = true := Nat.isDigit_of_mem_toDigits (by decide) (by decide) member
    rw [toList_placeholder]
    intro shared
    have letters : ['\x7b', 'p', 'o', 'r', 't', '\x7d'].all (!·.isDigit) = true := by decide
    have letter := List.all_eq_true.mp letters c shared
    rw [digit] at letter
    cases letter

/-- An argument is filled in with the decimal port. -/
theorem fills_fillPort (port : UInt16) :
    Text.Fills placeholder (toString port.toNat) (fillPort port) :=
  Text.fills_substitute (clear_portText port)

namespace Plan

variable {environment : Environment ω σ} {plan : Plan} {world : ω}

/-- A start without a launch lists none. -/
theorem start_listing_of_unlaunched {reason : Failure}
    (unlaunched : Unlaunched environment plan world reason) (listed : List Launch) :
    plan.start environment.listing (world, listed) = (.error reason, world, listed) := by
  have unlaunchedToo : Unlaunched environment.listing plan (world, listed) reason := by
    cases unlaunched with
    | empty nothing => exact .empty nothing
    | missing commanded absent => exact .missing commanded absent
    | refused commanded found refusal =>
        refine .refused commanded found ?_
        simp only [Environment.listing, refusal]
        rfl
  exact start_of_unlaunched unlaunchedToo

/-- A start with a launch lists that of its command, with the port filled in for the arguments, and
goes on as ever. -/
theorem start_listing_of_launched {begun : ω} {child : σ}
    (launched : Launched environment plan world begun child) (listed : List Launch) :
    ∃ program arguments launch, plan.command = program :: arguments ∧
      launch.CarriesOut environment.processes world plan.directory
        (program :: arguments.map (fillPort plan.port)) ∧
      plan.start environment.listing (world, listed) =
        let plain := plan.start environment world
        (plain.1, plain.2, listed ++ [launch]) := by
  have onward := start_of_launched launched
  cases launched with
  | @spawned program path arguments events commanded found launch =>
      let ordered : Launch := ⟨path, arguments.map (fillPort plan.port), plan.directory⟩
      have launchToo : environment.listing.processes.launch (world, listed) path
          (arguments.map (fillPort plan.port)) plan.directory =
            .ok ((begun, listed ++ [ordered]), child, events) := by
        simp only [Environment.listing, launch]
        rfl
      have launchedToo : Launched environment.listing plan (world, listed)
          (begun, listed ++ [ordered]) child := .spawned commanded found launchToo
      refine ⟨program, arguments, ordered, commanded, ⟨found, rfl, rfl⟩, ?_⟩
      rw [start_of_launched launchedToo, probe_listing, onward]

/-- **A start fills the port in for the arguments of its command.** Filling in replaces every
placeholder by the decimal port, keeps all other text and leaves no placeholder. A start that does not
launch its backend lists nothing. Every other start lists one launch, and it carries out the start
command with each argument filled in and the program as it stands. Where the program has no
placeholder, this is the command with all of its parts filled in. -/
theorem start_fills_arguments (environment : Environment ω σ) (plan : Plan) (world : ω) :
    let started := plan.start environment world
    let listed := plan.start environment.listing (world, [])
    (∀ fill, Text.Fills placeholder (toString plan.port.toNat) fill ↔ fill = fillPort plan.port) ∧
    (listed.1 = started.1 ∧ listed.2.1 = started.2) ∧
    (∀ reason, Unlaunched environment plan world reason →
      started = (.error reason, world) ∧ listed.2.2 = []) ∧
    ((¬ ∃ reason, Unlaunched environment plan world reason) →
      ∃ program arguments launch, plan.command = program :: arguments ∧ listed.2.2 = [launch] ∧
        launch.CarriesOut environment.processes world plan.directory
          (program :: arguments.map (fillPort plan.port)) ∧
        (¬ Text.Occurs placeholder program →
          launch.CarriesOut environment.processes world plan.directory
            (plan.command.map (fillPort plan.port)))) := by
  intro started listed
  have fills := fills_fillPort plan.port
  have silent : ∀ reason, Unlaunched environment plan world reason →
      started = (.error reason, world) ∧ listed = (.error reason, world, []) := by
    intro reason unlaunched
    exact ⟨start_of_unlaunched unlaunched, start_listing_of_unlaunched unlaunched []⟩
  refine ⟨fun fill => ⟨fun fillsToo => fillsToo.unique fills, ?_⟩, ?_, ?_, ?_⟩
  · rintro rfl
    exact fills
  · rcases unlaunched_or_launched environment plan world with
      ⟨reason, unlaunched⟩ | ⟨begun, child, launched⟩
    · obtain ⟨failed, failedToo⟩ := silent reason unlaunched
      rw [failed, failedToo]
      exact ⟨rfl, rfl⟩
    · obtain ⟨_, _, _, _, _, same⟩ := start_listing_of_launched launched []
      exact ⟨congrArg (·.1) same, congrArg (·.2.1) same⟩
  · intro reason unlaunched
    obtain ⟨failed, failedToo⟩ := silent reason unlaunched
    exact ⟨failed, congrArg (·.2.2) failedToo⟩
  · intro launches
    rcases unlaunched_or_launched environment plan world with unlaunched | ⟨begun, child, launched⟩
    · exact absurd unlaunched launches
    · obtain ⟨program, arguments, launch, commanded, carries, same⟩ :=
        start_listing_of_launched launched []
      refine ⟨program, arguments, launch, commanded, congrArg (·.2.2) same, carries, ?_⟩
      intro absent
      rw [commanded, List.map_cons, fills.kept program absent]
      exact carries

/-- A plan with a placeholder for an argument, in an argument, and within another placeholder. -/
def nestedPlan : Plan :=
  ⟨"Java", ["serve", "\x7bport\x7d", "--port=\x7bport\x7d,x", "\x7bpo\x7bport\x7drt\x7d"], "java",
    8001, none, 3, none⟩

/-- The launch of that plan. -/
def nestedLaunch : Launch :=
  ⟨"serve", ["8001", "--port=8001,x", "\x7bpo8001rt\x7d"], "java"⟩

/-- The port comes in every place, and what is left around it is no placeholder. Without a command
nothing is launched. -/
theorem start_fills_arguments_nested :
    (nestedPlan.start opening.listing ((1, []), [])).2.2 = [nestedLaunch] ∧
      ¬ Text.Occurs placeholder "serve" ∧
      nestedLaunch.CarriesOut opening.processes (1, []) "java"
        (nestedPlan.command.map (fillPort 8001)) ∧
      ({ nestedPlan with command := [] }.start opening.listing ((1, []), [])).2.2 = [] := by
  have launched : ¬ ∃ reason, Unlaunched opening nestedPlan (1, []) reason := by
    rintro ⟨reason, unlaunched⟩
    cases unlaunched with
    | empty nothing => cases nothing
    | missing _ absent => cases absent
    | refused _ _ refusal => cases refusal
  have plain : ¬ Text.Occurs placeholder "serve" := by decide +kernel
  obtain ⟨_, _, _, launches⟩ := start_fills_arguments opening nestedPlan (1, [])
  obtain ⟨program, arguments, launch, commanded, listed, ⟨found, filled, placed⟩, whole⟩ :=
    launches launched
  obtain ⟨rfl, rfl⟩ := List.cons.inj commanded
  have spelled : nestedPlan.command.tail.map (fillPort 8001) =
      ["8001", "--port=8001,x", "\x7bpo8001rt\x7d"] := by decide +kernel
  have same : launch = nestedLaunch := by
    obtain ⟨path, given, directory⟩ := launch
    obtain rfl : "serve" = path := Option.some.inj found
    obtain rfl : given = _ := filled.trans spelled
    obtain rfl : directory = "java" := placed
    rfl
  obtain ⟨_, _, nothing, _⟩ :=
    start_fills_arguments opening { nestedPlan with command := [] } (1, [])
  exact ⟨same ▸ listed, plain, same ▸ whole plain, (nothing _ (.empty rfl)).2⟩

/-- A plan with a placeholder in its program. -/
def servePlan : Plan :=
  ⟨"Java", ["serve-\x7bport\x7d", "\x7bport\x7d"], "java", 8001, none, 3, none⟩

/-- A placeholder in the program remains in what is launched, and then the launch does not carry out
the command with all of its parts filled in. -/
theorem start_leaves_program :
    ∃ launch, (servePlan.start opening.listing ((1, []), [])).2.2 = [launch] ∧
      Text.Occurs placeholder launch.path ∧
      ¬ launch.CarriesOut opening.processes (1, []) servePlan.directory
        (servePlan.command.map (fillPort servePlan.port)) := by
  refine ⟨⟨"serve-\x7bport\x7d", ["8001"], "java"⟩, by decide +kernel, ⟨"serve-", "", rfl⟩, ?_⟩
  rintro ⟨found, _⟩
  have filled : fillPort 8001 "serve-\x7bport\x7d" = "serve-8001" := by decide +kernel
  have kept : fillPort 8001 "serve-\x7bport\x7d" = "serve-\x7bport\x7d" := Option.some.inj found
  rw [filled] at kept
  exact absurd kept (by decide)

end Plan

end Proxy

end Polyglot
