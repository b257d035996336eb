import Polyglot.Proofs.Executors
import Polyglot.Proofs.Readiness
import Polyglot.Proofs.Visits

/-!
# Releasing the backends

A dispatcher keeps its executors in a table, which is walked when the processes are released. What is
released of an executor depends on that executor alone (`Executor.shutdown_eq`), so the order of the
walk does not matter for the dispatcher that is left (`Dispatcher.fst_releaseIn`), and the world is
left by the same processes in another order (`Dispatcher.snd_releaseIn`).

An executor that holds no process is released already, and never gets a process again
(`Dispatcher.Later.children`). Dead workers answer nothing more and are sent nothing more.

What is built needs no process. A job that is built goes the same way with the processes and without
them, and among other jobs it does so if the world that builds see is not the one that the processes
change (`Environment.Separates`).
-/

set_option autoImplicit false

namespace Polyglot

variable {ω σ : Type} {environment : Environment ω σ}

/-! ## Processes that are finished -/

/-- Ends the input of some processes, one after the other. -/
def Environment.finishAll (environment : Environment ω σ) (world : ω) (children : List σ) : ω :=
  children.foldl (fun world child => (environment.processes.finish world child).1) world

/-- It does not matter which one of two processes is finished first. -/
def Environment.FinishesCommute (environment : Environment ω σ) : Prop :=
  ∀ world one other,
    environment.finishAll world [one, other] = environment.finishAll world [other, one]

theorem Environment.finishAll_append (environment : Environment ω σ) (world : ω)
    (one other : List σ) : environment.finishAll world (one ++ other) =
      environment.finishAll (environment.finishAll world one) other :=
  List.foldl_append

theorem Environment.FinishesCommute.finishAll (commute : environment.FinishesCommute)
    {children others : List σ} (perm : children.Perm others) (world : ω) :
    environment.finishAll world children = environment.finishAll world others :=
  perm.foldl_eq' (fun one _ other _ world => commute world one other) world

/-! ## One executor -/

namespace Executor

variable {executor : Executor ω σ}

/-- The process that an executor holds, if it holds one. -/
def children : Executor ω σ → List σ
  | .worker channel => (channel.pipes.map (·.worker)).toList
  | .proxied proxy => proxy.child.toList
  | _ => []

/-- An executor without its process. -/
def released : Executor ω σ → Executor ω σ
  | .worker channel => .worker channel.drop
  | .proxied proxy => .proxied { proxy with child := none }
  | executor => executor

/-- Releasing an executor finishes its process and takes it away. -/
theorem shutdown_eq (environment : Environment ω σ) (executor : Executor ω σ) (world : ω) :
    executor.shutdown environment world =
      (executor.released, environment.finishAll world executor.children) := by
  cases executor with
  | worker channel =>
      obtain ⟨language, timeoutMs, pipes⟩ := channel
      cases pipes with
      | none => rfl
      | some pipes => rfl
  | proxied proxy =>
      obtain ⟨language, port, timeoutMs, child⟩ := proxy
      cases child with
      | none => rfl
      | some child => rfl
  | unavailable reason => rfl
  | ephemeral build => rfl
  | custom run => rfl

theorem children_released (executor : Executor ω σ) : executor.released.children = [] := by
  cases executor with
  | worker channel => rfl
  | proxied proxy => rfl
  | unavailable reason => rfl
  | ephemeral build => rfl
  | custom run => rfl

/-- An executor without a process is released already. -/
theorem released_of_children (childless : executor.children = []) : executor.released = executor := by
  cases executor with
  | worker channel =>
      obtain ⟨language, timeoutMs, pipes⟩ := channel
      cases pipes with
      | none => rfl
      | some pipes => cases childless
  | proxied proxy =>
      obtain ⟨language, port, timeoutMs, child⟩ := proxy
      cases child with
      | none => rfl
      | some child => cases childless
  | unavailable reason => rfl
  | ephemeral build => rfl
  | custom run => rfl

theorem released_released (executor : Executor ω σ) :
    executor.released.released = executor.released :=
  released_of_children executor.children_released

/-- A worker without a process answers that it is dead, and nothing is written. -/
theorem execute_of_children {channel : Channel σ}
    (childless : (Executor.worker channel : Executor ω σ).children = []) (runner : Runner) (world : ω)
    (job : Job) :
    (Executor.worker channel).execute environment runner world job =
      (.answered (.error (.workerDead channel.language)), .worker channel, runner, world) := by
  have gone : channel.isLive = false := by
    obtain ⟨language, timeoutMs, pipes⟩ := channel
    cases pipes with
    | none => rfl
    | some pipes => cases childless
  simp only [execute, Channel.execute, Channel.submit, Channel.exchange_of_not_isLive gone]
  rfl

/-- No job gives an executor a process. -/
theorem children_execute (childless : executor.children = []) (runner : Runner) (world : ω)
    (job : Job) : (executor.execute environment runner world job).2.1.children = [] := by
  cases executor with
  | worker channel => rw [execute_of_children childless]; exact childless
  | proxied proxy => exact childless
  | unavailable reason => rfl
  | ephemeral build => rfl
  | custom run => rfl

end Executor

namespace Dispatcher

variable {dispatcher later : Dispatcher ω σ} {order : List String} {world : ω}

/-! ## All executors -/

/-- The processes that a dispatcher holds. -/
def children (dispatcher : Dispatcher ω σ) : List σ :=
  dispatcher.executors.flatMap (·.2.children)

/-- A dispatcher without its processes. -/
def closed (dispatcher : Dispatcher ω σ) : Dispatcher ω σ :=
  { dispatcher with
    executors := dispatcher.executors.map fun entry => (entry.1, entry.2.released) }

/-- Releases the executors under some names, one after the other. -/
def releaseIn (environment : Environment ω σ) :
    Dispatcher ω σ → List String → ω → Dispatcher ω σ × ω
  | dispatcher, [], world => (dispatcher, world)
  | dispatcher, key :: order, world =>
    match Table.find? key dispatcher.executors with
    | none => releaseIn environment dispatcher order world
    | some executor =>
      let (executor, world) := executor.shutdown environment world
      releaseIn environment
        { dispatcher with executors := Table.insert key executor dispatcher.executors } order world

/-- Releasing all executors finishes their processes and takes them away. -/
theorem shutdown_eq (environment : Environment ω σ) (dispatcher : Dispatcher ω σ) (world : ω) :
    dispatcher.shutdown environment world =
      (dispatcher.closed, environment.finishAll world dispatcher.children) := by
  suffices all : ∀ (executors : List (String × Executor ω σ)) (world : ω),
      shutdownAll environment executors world =
        (executors.map fun entry => (entry.1, entry.2.released),
          environment.finishAll world (executors.flatMap (·.2.children))) by
    simp only [shutdown, all]
    rfl
  intro executors
  induction executors with
  | nil => exact fun _ => rfl
  | cons entry executors ih =>
      intro world
      simp only [shutdownAll, Executor.shutdown_eq, ih, List.flatMap_cons,
        Environment.finishAll_append, List.map_cons]

theorem releaseIn_of_find? {key : String} {executor : Executor ω σ}
    (found : Table.find? key dispatcher.executors = some executor) (order : List String) (world : ω) :
    dispatcher.releaseIn environment (key :: order) world =
      releaseIn environment
        { dispatcher with executors := Table.insert key executor.released dispatcher.executors }
        order (environment.finishAll world executor.children) := by
  simp only [releaseIn, found, Executor.shutdown_eq]

theorem releaseIn_of_find?_eq_none {key : String}
    (absent : Table.find? key dispatcher.executors = none) (order : List String) (world : ω) :
    dispatcher.releaseIn environment (key :: order) world =
      dispatcher.releaseIn environment order world := by
  simp only [releaseIn, absent]

/-! ## The order does not matter -/

/-- What is found after a walk: an executor without its process, if the walk has met its name. -/
theorem find?_releaseIn (environment : Environment ω σ) (dispatcher : Dispatcher ω σ)
    (order : List String) (world : ω) (sought : String) :
    Table.find? sought (dispatcher.releaseIn environment order world).1.executors =
      if sought ∈ order then (Table.find? sought dispatcher.executors).map Executor.released
      else Table.find? sought dispatcher.executors := by
  induction order generalizing dispatcher world with
  | nil => rfl
  | cons key order ih =>
      cases found : Table.find? key dispatcher.executors with
      | none =>
          rw [releaseIn_of_find?_eq_none found, ih]
          by_cases same : sought = key
          · subst same
            simp [found]
          · simp [same]
      | some executor =>
          rw [releaseIn_of_find? found, ih]
          by_cases same : sought = key
          · subst same
            simp [found, Table.find?_insert_self, Executor.released_released]
          · simp [same, Table.find?_insert_of_ne same]

/-- A walk changes executors only, and keeps the order of the table. -/
theorem releaseIn_keeps (environment : Environment ω σ)
    (ordered : Table.Ordered dispatcher.executors) (order : List String) (world : ω) :
    let closed := (dispatcher.releaseIn environment order world).1
    Table.Ordered closed.executors ∧ closed.runner = dispatcher.runner ∧
      closed.serviceVersion = dispatcher.serviceVersion := by
  induction order generalizing dispatcher world with
  | nil => exact ⟨ordered, rfl, rfl⟩
  | cons key order ih =>
      cases found : Table.find? key dispatcher.executors with
      | none =>
          rw [releaseIn_of_find?_eq_none found]
          exact ih ordered world
      | some executor =>
          rw [releaseIn_of_find? found]
          exact ih (ordered.insert key executor.released) _

theorem find?_closed (dispatcher : Dispatcher ω σ) (sought : String) :
    Table.find? sought dispatcher.closed.executors =
      (Table.find? sought dispatcher.executors).map Executor.released :=
  Table.find?_map _ _ _

theorem ordered_closed (ordered : Table.Ordered dispatcher.executors) :
    Table.Ordered dispatcher.closed.executors :=
  List.pairwise_map.mpr ordered

/-- However the executors are walked, the dispatcher that is left is the same. -/
theorem fst_releaseIn (environment : Environment ω σ)
    (ordered : Table.Ordered dispatcher.executors)
    (all : order.Perm dispatcher.languages) (world : ω) :
    (dispatcher.releaseIn environment order world).1 = dispatcher.closed := by
  obtain ⟨increasing, runner, version⟩ :=
    releaseIn_keeps environment ordered order world
  have executors : (dispatcher.releaseIn environment order world).1.executors =
      dispatcher.closed.executors := by
    refine increasing.ext (ordered_closed ordered) fun sought => ?_
    rw [find?_releaseIn, find?_closed]
    split
    · rfl
    · rename_i unmet
      have absent : Table.find? sought dispatcher.executors = none := by
        rw [Table.find?_eq_none_iff_not_mem]
        exact fun member => unmet (all.mem_iff.mpr member)
      rw [absent]
      rfl
  calc (dispatcher.releaseIn environment order world).1
      = ⟨(dispatcher.releaseIn environment order world).1.executors,
          (dispatcher.releaseIn environment order world).1.runner,
          (dispatcher.releaseIn environment order world).1.serviceVersion⟩ := rfl
    _ = dispatcher.closed := by
        rw [executors, runner, version]
        rfl

/-- The process under a name, if there is one. -/
def childrenUnder (dispatcher : Dispatcher ω σ) (key : String) : List σ :=
  ((Table.find? key dispatcher.executors).map Executor.children).getD []

theorem flatMap_childrenUnder (ordered : Table.Ordered dispatcher.executors) :
    dispatcher.languages.flatMap dispatcher.childrenUnder = dispatcher.children := by
  have under : ∀ entry ∈ dispatcher.executors,
      dispatcher.childrenUnder entry.1 = entry.2.children := fun entry member => by
    rw [childrenUnder, (Table.find?_eq_some_iff ordered).mpr member]
    rfl
  rw [languages, children, List.flatMap_def, List.flatMap_def, List.map_map]
  exact congrArg List.flatten (List.map_congr_left under)

/-- A walk that meets no name twice finishes the processes in its order. -/
theorem snd_releaseIn_of_nodup (environment : Environment ω σ) (dispatcher : Dispatcher ω σ)
    (apart : order.Nodup) (world : ω) :
    (dispatcher.releaseIn environment order world).2 =
      environment.finishAll world (order.flatMap dispatcher.childrenUnder) := by
  induction order generalizing dispatcher world with
  | nil => rfl
  | cons key order ih =>
      obtain ⟨new, others⟩ := List.nodup_cons.mp apart
      rw [List.flatMap_cons, Environment.finishAll_append]
      cases found : Table.find? key dispatcher.executors with
      | none =>
          rw [releaseIn_of_find?_eq_none found, ih _ others, childrenUnder, found]
          rfl
      | some executor =>
          have here : dispatcher.childrenUnder key = executor.children := by
            rw [childrenUnder, found]
            rfl
          rw [releaseIn_of_find? found, ih _ others, here]
          -- The executors that the walk has yet to meet are the ones that it would have met.
          congr 1
          refine List.flatMap_congr fun other member => ?_
          have differ : other ≠ key := fun same => new (same ▸ member)
          rw [childrenUnder, childrenUnder, Table.find?_insert_of_ne differ]

/-- However the executors are walked, the same processes are finished. -/
theorem exists_snd_releaseIn (environment : Environment ω σ)
    (ordered : Table.Ordered dispatcher.executors)
    (all : order.Perm dispatcher.languages) (world : ω) :
    ∃ children : List σ, children.Perm dispatcher.children ∧
      (dispatcher.releaseIn environment order world).2 = environment.finishAll world children := by
  have perm := all.flatMap_right dispatcher.childrenUnder
  rw [flatMap_childrenUnder ordered] at perm
  exact ⟨_, perm, snd_releaseIn_of_nodup environment _ (all.nodup_iff.mpr ordered.nodup) world⟩

/-- Releasing all executors is a walk in the order of the table. -/
theorem shutdown_eq_releaseIn (environment : Environment ω σ)
    (ordered : Table.Ordered dispatcher.executors) (world : ω) :
    dispatcher.shutdown environment world =
      dispatcher.releaseIn environment dispatcher.languages world := by
  have closed := fst_releaseIn environment ordered (.refl dispatcher.languages) world
  have finished := snd_releaseIn_of_nodup environment dispatcher ordered.nodup world
  rw [shutdown_eq, ← closed, ← flatMap_childrenUnder ordered]
  exact Prod.ext rfl finished.symm

/-! ## What stays released -/

/-- A dispatcher without processes is left by a walk as it was, and so is the world. -/
theorem releaseIn_of_children (childless : dispatcher.children = [])
    (ordered : Table.Ordered dispatcher.executors) (all : order.Perm dispatcher.languages) (world : ω) :
    dispatcher.releaseIn environment order world = (dispatcher, world) := by
  have each : ∀ entry ∈ dispatcher.executors, entry.2.children = [] :=
    List.flatMap_eq_nil_iff.mp childless
  have same : dispatcher.closed = dispatcher := by
    have executors : (dispatcher.executors.map fun entry => (entry.1, entry.2.released)) =
        dispatcher.executors := by
      refine (List.map_congr_left fun entry member => ?_).trans (List.map_id _)
      exact Prod.ext rfl (Executor.released_of_children (each entry member))
    rw [closed, executors]
  obtain ⟨children, perm, left⟩ := exists_snd_releaseIn environment ordered all world
  rw [childless, List.perm_nil] at perm
  rw [perm] at left
  exact Prod.ext ((fst_releaseIn environment ordered all world).trans same) left

theorem children_closed (dispatcher : Dispatcher ω σ) : dispatcher.closed.children = [] := by
  refine List.flatMap_eq_nil_iff.mpr fun entry member => ?_
  obtain ⟨former, _, rfl⟩ := List.mem_map.mp member
  exact former.2.children_released

theorem children_run (childless : dispatcher.children = []) (world : ω) (job : Job) :
    (dispatcher.run environment world job).2.1.children = [] := by
  have each : ∀ entry ∈ dispatcher.executors, entry.2.children = [] :=
    List.flatMap_eq_nil_iff.mp childless
  cases found : Table.find? (normalForm job.language) dispatcher.executors with
  | none =>
      rw [run_of_find?_eq_none found]
      exact childless
  | some executor =>
      rw [run_of_find? found]
      refine List.flatMap_eq_nil_iff.mpr fun entry member => ?_
      rcases Table.mem_insert member with rfl | former
      · exact Executor.children_execute (each _ (Table.mem_of_find? found)) _ _ _
      · exact each entry former

/-- A dispatcher without processes never gets one again. -/
theorem Later.children (after : Later environment dispatcher later)
    (childless : dispatcher.children = []) : later.children = [] := by
  induction after with
  | now => exact childless
  | ran world job _ ih => exact children_run ih world job
  | released world _ ih => rw [shutdown_eq]; exact children_closed _

/-- What follows a state of a started dispatcher is one. -/
theorem Later.reached {settings : Settings} {registry : Registry}
    (after : Later environment dispatcher later)
    (reached : Reached environment settings registry dispatcher) :
    Reached environment settings registry later := by
  induction after with
  | now => exact reached
  | ran world job _ ih => exact .ran world job ih
  | released world _ ih => exact .released world ih

/-! ## Jobs that are built -/

/-- The jobs of a language are built. -/
def Builds (dispatcher : Dispatcher ω σ) (job : Job) (build : Build) : Prop :=
  Table.find? (normalForm job.language) dispatcher.executors = some (.ephemeral build)

section Building

variable {job : Job} {build : Build}

theorem Builds.closed (builds : dispatcher.Builds job build) :
    dispatcher.closed.Builds job build := by
  rw [Builds, find?_closed, builds]
  rfl

/-- What is built stays built. -/
theorem Builds.run (builds : dispatcher.Builds job build) (environment : Environment ω σ) (world : ω)
    (other : Job) : (dispatcher.run environment world other).2.1.Builds job build := by
  cases found : Table.find? (normalForm other.language) dispatcher.executors with
  | none =>
      rw [run_of_find?_eq_none found]
      exact builds
  | some executor =>
      rw [run_of_find? found]
      by_cases same : normalForm job.language = normalForm other.language
      · rw [Builds, same] at builds ⊢
        obtain rfl := Option.some.inj (found.symm.trans builds)
        exact Table.find?_insert_self _ _ _
      · exact (Table.find?_insert_of_ne same _ _).trans builds

/-- A job that is built goes the same way without the processes. -/
theorem Builds.run_closed (builds : dispatcher.Builds job build) (environment : Environment ω σ)
    (world : ω) :
    dispatcher.closed.run environment world job =
      let ran := dispatcher.run environment world job
      (ran.1, ran.2.1.closed, ran.2.2) := by
  have inserted := Table.map_insert Executor.released (normalForm job.language) (.ephemeral build)
    dispatcher.executors
  rw [run_of_find? builds, run_of_find? builds.closed]
  simp only [Dispatcher.closed, Executor.execute, inserted]
  rfl

theorem Builds.handle_closed (builds : dispatcher.Builds job build) (environment : Environment ω σ)
    (world : ω) :
    dispatcher.closed.handle environment world job =
      let handled := dispatcher.handle environment world job
      (handled.1, handled.2.1.closed, handled.2.2) := by
  simp only [handle, builds.run_closed]
  rfl

/-- Jobs that are built go the same way without the processes. -/
theorem handleAll_closed {jobs : List Job} (built : ∀ job ∈ jobs, ∃ build, dispatcher.Builds job build)
    (environment : Environment ω σ) (world : ω) :
    dispatcher.closed.handleAll environment world jobs =
      let handled := dispatcher.handleAll environment world jobs
      (handled.1, handled.2.1.closed, handled.2.2) := by
  induction jobs generalizing dispatcher world with
  | nil => rfl
  | cons job jobs ih =>
      obtain ⟨⟨build, builds⟩, others⟩ := List.forall_mem_cons.mp built
      have still : ∀ other ∈ jobs, ∃ build,
          (dispatcher.handle environment world job).2.1.Builds other build := fun other member => by
        obtain ⟨own, built⟩ := others other member
        exact ⟨own, built.run environment _ job⟩
      simp only [handleAll_cons, builds.handle_closed, ih still]

end Building

end Dispatcher

/-! ## Jobs that are built among others -/

/-- What is built and timed is seen through a view, which no message and no end of a process
changes. -/
structure Environment.Separates {ν : Type} (environment : Environment ω σ) (view : ω → ν) : Prop where
  clock : ∀ one other, view one = view other →
    (environment.clock one).1 = (environment.clock other).1 ∧
      view (environment.clock one).2 = view (environment.clock other).2
  build : ∀ runner one other job build, view one = view other →
    (environment.build runner one job build).1 = (environment.build runner other job build).1 ∧
      (environment.build runner one job build).2.1 = (environment.build runner other job build).2.1 ∧
      view (environment.build runner one job build).2.2 =
        view (environment.build runner other job build).2.2
  receive : ∀ world worker line, view (environment.processes.receive world worker line).1 = view world
  finish : ∀ world child, view (environment.processes.finish world child).1 = view world
  post : ∀ world port body, view (environment.network.post world port body).2 = view world

section Separation

variable {ν : Type} {view : ω → ν}

namespace Environment.Separates

variable (separates : environment.Separates view)

include separates

theorem finishAll (world : ω) (children : List σ) :
    view (environment.finishAll world children) = view world := by
  induction children generalizing world with
  | nil => rfl
  | cons child children ih => exact (ih _).trans (separates.finish world child)

theorem worker (channel : Channel σ) (world : ω) (job : Job) :
    view (channel.execute environment.processes world job).2.2 = view world := by
  show view (channel.exchange environment.processes world _).2.2 = view world
  simp only [Channel.exchange]
  split
  · rfl
  · split
    · rfl
    · split
      · exact separates.receive _ _ _
      · exact separates.receive _ _ _
      · exact separates.receive _ _ _

theorem proxied (proxy : Proxy σ) (world : ω) (job : Job) :
    view (proxy.execute environment.network world job).2 = view world :=
  separates.post world proxy.port (proxy.bodyOf job)

end Environment.Separates

/-- Two executors build by one command, or are of another kind that the service starts. -/
inductive Executor.Akin : Executor ω σ → Executor ω σ → Prop where
  | ephemeral (build : Build) : Akin (.ephemeral build) (.ephemeral build)
  | worker (one other : Channel σ) : Akin (.worker one) (.worker other)
  | proxied (one other : Proxy σ) : Akin (.proxied one) (.proxied other)
  | unavailable (one other : String) : Akin (.unavailable one) (.unavailable other)

theorem Executor.Akin.execute {one other : Executor ω σ} (akin : one.Akin other)
    (separates : environment.Separates view) {here there : ω} (same : view here = view there)
    (runner : Runner) (job : Job) :
    let ran := one.execute environment runner here job
    let runs := other.execute environment runner there job
    ran.2.1.Akin runs.2.1 ∧ ran.2.2.1 = runs.2.2.1 ∧ view ran.2.2.2 = view runs.2.2.2 ∧
      ∀ build, one = .ephemeral build → ran.1 = runs.1 := by
  cases akin with
  | ephemeral build =>
      obtain ⟨outcome, runner, worlds⟩ := separates.build runner here there job build same
      exact ⟨.ephemeral build, runner, worlds, fun _ _ => congrArg Verdict.answered outcome⟩
  | worker one other =>
      refine ⟨.worker _ _, rfl, ?_, nofun⟩
      exact (separates.worker one here job).trans (same.trans (separates.worker other there job).symm)
  | proxied one other =>
      refine ⟨.proxied _ _, rfl, ?_, nofun⟩
      exact (separates.proxied one here job).trans
        (same.trans (separates.proxied other there job).symm)
  | unavailable one other => exact ⟨.unavailable _ _, rfl, same, nofun⟩

namespace Dispatcher

/-- Two dispatchers build the same languages alike. -/
structure Beside (one other : Dispatcher ω σ) : Prop where
  runner : one.runner = other.runner
  serviceVersion : one.serviceVersion = other.serviceVersion
  executors : ∀ key,
    Option.Rel Executor.Akin (Table.find? key one.executors) (Table.find? key other.executors)

theorem Beside.run {one other : Dispatcher ω σ} (beside : one.Beside other)
    (separates : environment.Separates view) {here there : ω} (same : view here = view there)
    (job : Job) :
    let ran := one.run environment here job
    let runs := other.run environment there job
    ran.2.1.Beside runs.2.1 ∧ view ran.2.2 = view runs.2.2 ∧
      ∀ build, one.Builds job build → ran.1 = runs.1 := by
  have related := beside.executors (normalForm job.language)
  cases found : Table.find? (normalForm job.language) one.executors with
  | none =>
      cases met : Table.find? (normalForm job.language) other.executors with
      | none =>
          rw [run_of_find?_eq_none found, run_of_find?_eq_none met]
          exact ⟨beside, same, fun _ _ => rfl⟩
      | some executor =>
          rw [found, met] at related
          cases related
  | some executor =>
      cases met : Table.find? (normalForm job.language) other.executors with
      | none =>
          rw [found, met] at related
          cases related
      | some counterpart =>
          rw [found, met] at related
          obtain ⟨akin⟩ := related
          obtain ⟨stays, runners, worlds, verdict⟩ := akin.execute separates same one.runner job
          rw [run_of_find? found, run_of_find? met, ← beside.runner]
          refine ⟨⟨runners, beside.serviceVersion, fun key => ?_⟩, worlds, fun build builds => ?_⟩
          · by_cases own : key = normalForm job.language
            · subst own
              rw [Table.find?_insert_self, Table.find?_insert_self]
              exact .some stays
            · rw [Table.find?_insert_of_ne own, Table.find?_insert_of_ne own]
              exact beside.executors key
          · have built : executor = .ephemeral build := Option.some.inj (found.symm.trans builds)
            exact congrArg Verdict.outcome (verdict build built)

theorem Beside.handle {one other : Dispatcher ω σ} (beside : one.Beside other)
    (separates : environment.Separates view) {here there : ω} (same : view here = view there)
    (job : Job) :
    let handled := one.handle environment here job
    let handles := other.handle environment there job
    handled.2.1.Beside handles.2.1 ∧ view handled.2.2 = view handles.2.2 ∧
      ∀ build, one.Builds job build → handled.1 = handles.1 := by
  obtain ⟨before, begun⟩ := separates.clock here there same
  obtain ⟨stays, worlds, outcome⟩ := beside.run separates begun job
  obtain ⟨after, ended⟩ := separates.clock _ _ worlds
  refine ⟨stays, ended, fun build builds => ?_⟩
  rw [fst_handle, fst_handle, before, after, outcome build builds, beside.serviceVersion]

/-- The jobs that are built are answered alike, whatever stands between them. -/
theorem Beside.handleAll {one other : Dispatcher ω σ} (beside : one.Beside other)
    (separates : environment.Separates view) {here there : ω} (same : view here = view there)
    (jobs : List Job) (place : Nat) {job : Job} (listed : jobs[place]? = some job) {build : Build}
    (builds : one.Builds job build) :
    (one.handleAll environment here jobs).1[place]? =
      (other.handleAll environment there jobs).1[place]? := by
  induction jobs generalizing one other here there place with
  | nil => cases listed
  | cons first jobs ih =>
      obtain ⟨stays, worlds, answer⟩ := beside.handle separates same first
      rw [handleAll_cons, handleAll_cons]
      cases place with
      | zero =>
          obtain rfl : first = job := Option.some.inj listed
          exact congrArg some (answer build builds)
      | succ place => exact ih stays worlds place listed (builds.run environment _ first)

/-- A started dispatcher builds the same languages with its processes and without them. -/
theorem Serves.beside_closed {settings : Settings} {registry : Registry} {dispatcher : Dispatcher ω σ}
    (serves : Serves environment settings registry dispatcher) :
    dispatcher.Beside dispatcher.closed := by
  refine ⟨rfl, rfl, fun key => ?_⟩
  rw [find?_closed]
  cases found : Table.find? key dispatcher.executors with
  | none => exact .none
  | some executor =>
      obtain ⟨language, _, working⟩ := serves.exists_of_find? found
      refine .some ?_
      cases working.suits with
      | worker named bounded => exact .worker _ _
      | proxied named placed bounded => exact .proxied _ _
      | unavailable reason => exact .unavailable _ _
      | ephemeral name build => exact .ephemeral _

end Dispatcher

end Separation

/-! ## Started dispatchers -/

namespace Dispatcher

section Started

variable {settings : Settings} {registry : Registry} {languages : List (String × Backend)}
variable {dispatcher later : Dispatcher ω σ}

/-- A dispatcher that was started without its processes is a state of a started one. -/
theorem Reached.closed (reached : Reached environment settings registry dispatcher) :
    Reached environment settings registry dispatcher.closed := by
  have release (world : ω) : Reached environment settings registry dispatcher.closed := by
    have released := Reached.released world reached
    rwa [shutdown_eq] at released
  cases reached with
  | started world => exact release world
  | ran world job _ => exact release world
  | released world _ => exact release world

/-- The executor of a registered language. -/
theorem Reached.exists_suits (made : Registry.ofList languages = .ok registry)
    (reached : Reached environment settings registry dispatcher) {language : Language}
    (listed : language ∈ registry.toList) :
    ∃ executor, Table.find? (normalForm language.name) dispatcher.executors = some executor ∧
      executor.Suits settings language := by
  have enrols := Registry.enrols_of_ofList made
  obtain ⟨entry, registered, rfl⟩ := List.mem_map.mp listed
  obtain ⟨executor, found, working⟩ := (reached.serves enrols).exists_of_mem enrols registered
  exact ⟨executor, enrols.fst_eq registered ▸ found, working.suits⟩

theorem Reached.builds (made : Registry.ofList languages = .ok registry)
    (reached : Reached environment settings registry dispatcher) {job : Job} {build : Build}
    (resolved : registry.resolve job.language = .ok (.ephemeral build)) :
    dispatcher.Builds job build := by
  have enrols := Registry.enrols_of_ofList made
  obtain ⟨name, registered⟩ := Registry.mem_of_resolve resolved
  obtain ⟨executor, found, working⟩ := (reached.serves enrols).exists_of_mem enrols registered
  cases working.suits with
  | ephemeral name build => exact found

/-- What a registry comes to when the processes of its languages have been released. Its workers are
dead, so their jobs are answered at once and nothing is written. Its proxied backends have no process,
and there is nothing left to release. -/
structure Quiet (environment : Environment ω σ) (registry : Registry) (later : Dispatcher ω σ) :
    Prop where
  worker : ∀ name command directory version,
    ⟨name, .worker command directory version⟩ ∈ registry.toList →
    (∃ channel, Table.find? (normalForm name) later.executors = some (.worker channel) ∧
      channel.isLive = false) ∧
    ∀ world job, normalForm job.language = normalForm name →
      later.run environment world job = (.error (.workerDead name), later, world) ∧
      (later.handle environment world job).1 = .failure (.workerDead name) later.serviceVersion
  proxied : ∀ name command directory port version check,
    ⟨name, .proxied command directory port version check⟩ ∈ registry.toList →
    (∃ proxy, Table.find? (normalForm name) later.executors = some (.proxied proxy) ∧
      proxy.child = none) ∨
    ∃ reason, Table.find? (normalForm name) later.executors = some (.unavailable reason)
  again : ∀ order, order.Perm later.languages → ∀ world,
    later.releaseIn environment order world = (later, world)

/-- A dead worker answers its jobs, and changes nothing. -/
theorem run_of_dead (ordered : Table.Ordered later.executors) {channel : Channel σ} {job : Job}
    (found : Table.find? (normalForm job.language) later.executors = some (.worker channel))
    (childless : (Executor.worker channel : Executor ω σ).children = []) (world : ω) :
    later.run environment world job = (.error (.workerDead channel.language), later, world) := by
  rw [run_of_find? found, Executor.execute_of_children childless]
  simp only [Verdict.outcome, Table.insert_of_find? ordered found]

theorem Reached.quiet (made : Registry.ofList languages = .ok registry)
    (reached : Reached environment settings registry dispatcher)
    (childless : dispatcher.children = []) : Quiet environment registry dispatcher := by
  have ordered := (reached.serves (Registry.enrols_of_ofList made)).ordered
    (Registry.enrols_of_ofList made)
  have each : ∀ entry ∈ dispatcher.executors, entry.2.children = [] :=
    List.flatMap_eq_nil_iff.mp childless
  refine ⟨?_, ?_, fun order all world => releaseIn_of_children childless ordered all world⟩
  · intro name command directory version listed
    obtain ⟨executor, found, suits⟩ := reached.exists_suits made listed
    cases suits with
    | @worker _ _ _ _ channel named bounded =>
        have none := each _ (Table.mem_of_find? found)
        have dead : channel.isLive = false := by
          cases live : channel.pipes with
          | none => simp [Channel.isLive, live]
          | some pipes => simp [Executor.children, live] at none
        refine ⟨⟨channel, found, dead⟩, fun world job same => ?_⟩
        have met : Table.find? (normalForm job.language) dispatcher.executors =
            some (.worker channel) := same ▸ found
        have ran (here : ω) : dispatcher.run environment here job =
            (.error (.workerDead name), dispatcher, here) :=
          named ▸ run_of_dead ordered met none here
        refine ⟨ran world, ?_⟩
        rw [fst_handle, ran]
        rfl
  · intro name command directory port version check listed
    obtain ⟨executor, found, suits⟩ := reached.exists_suits made listed
    cases suits with
    | @proxied _ _ _ _ _ _ proxy named placed bounded =>
        have none := each _ (Table.mem_of_find? found)
        refine .inl ⟨proxy, found, ?_⟩
        simpa [Executor.children] using none
    | unavailable reason => exact .inr ⟨reason, found⟩

end Started

/-- **Releasing the processes.** In every state of a started dispatcher, and in whatever order the
executors are walked, the same dispatcher is left, and the same processes are finished, in the order
of the walk; if that order does not matter to the world, then neither does the walk. From then on,
whatever jobs come and whatever is released again, the workers are dead, the proxied backends have no
process, and there is nothing to release. Jobs that are built are answered from the same world as by
the dispatcher that has its processes. They are so even among other jobs, and behind the release, if
no message and no end of a process changes what builds and the clock see of the world. -/
theorem shutdown_releases {settings : Settings} {registry : Registry}
    {languages : List (String × Backend)} {dispatcher : Dispatcher ω σ}
    (made : Registry.ofList languages = .ok registry)
    (reached : Reached environment settings registry dispatcher) :
    (∀ world, dispatcher.shutdown environment world =
      dispatcher.releaseIn environment dispatcher.languages world) ∧
    (∀ order, order.Perm dispatcher.languages → ∀ world,
      let left := dispatcher.releaseIn environment order world
      left.1 = dispatcher.closed ∧
      (∃ children : List σ, children.Perm dispatcher.children ∧
        left.2 = environment.finishAll world children) ∧
      (environment.FinishesCommute → left.2 = (dispatcher.shutdown environment world).2)) ∧
    (∀ later, Later environment dispatcher.closed later → Quiet environment registry later) ∧
    (∀ jobs : List Job, (∀ job ∈ jobs, ∃ build,
        registry.resolve job.language = .ok (.ephemeral build)) → ∀ world,
      let handled := dispatcher.handleAll environment world jobs
      let answered := dispatcher.closed.handleAll environment world jobs
      answered.1 = handled.1 ∧ answered.2 = (handled.2.1.closed, handled.2.2)) ∧
    ∀ (ν : Type) (view : ω → ν), environment.Separates view →
      ∀ order, order.Perm dispatcher.languages →
      ∀ world (jobs : List Job) (place : Nat) (job : Job) (build : Build),
        jobs[place]? = some job → registry.resolve job.language = .ok (.ephemeral build) →
        let left := dispatcher.releaseIn environment order world
        (left.1.handleAll environment left.2 jobs).1[place]? =
          (dispatcher.handleAll environment world jobs).1[place]? := by
  have enrols := Registry.enrols_of_ofList made
  have serves := reached.serves enrols
  have ordered := serves.ordered enrols
  have walked (order : List String) (all : order.Perm dispatcher.languages) (world : ω) :
      (dispatcher.releaseIn environment order world).1 = dispatcher.closed ∧
        ∃ children : List σ, children.Perm dispatcher.children ∧
          (dispatcher.releaseIn environment order world).2 = environment.finishAll world children :=
    ⟨fst_releaseIn environment ordered all world, exists_snd_releaseIn environment ordered all world⟩
  refine ⟨shutdown_eq_releaseIn environment ordered, fun order all world => ?_,
    fun later after => ?_, fun jobs built world => ?_,
    fun ν view separates order all world jobs place job build listed resolved => ?_⟩
  · obtain ⟨closed, children, perm, finished⟩ := walked order all world
    refine ⟨closed, ⟨children, perm, finished⟩, fun commute => ?_⟩
    rw [finished, shutdown_eq, commute.finishAll perm]
  · exact (after.reached reached.closed).quiet made (after.children (children_closed dispatcher))
  · have builds : ∀ job ∈ jobs, ∃ build, dispatcher.Builds job build := fun job member => by
      obtain ⟨build, resolved⟩ := built job member
      exact ⟨build, reached.builds made resolved⟩
    rw [handleAll_closed builds]
    exact ⟨rfl, rfl⟩
  · obtain ⟨closed, children, _, finished⟩ := walked order all world
    have same : view world = view (dispatcher.releaseIn environment order world).2 := by
      rw [finished, separates.finishAll]
    have builds := reached.builds made resolved
    have alongside := serves.beside_closed.handleAll separates same jobs place listed builds
    rw [← closed] at alongside
    exact alongside.symm

/-- The dispatcher of the three languages where every program starts and every port is open. -/
def openTrio : Dispatcher (Nat × List Http.Exchange) Unit :=
  (start Proxy.Plan.opening .standard trioRegistry (0, [])).1

/-- Two of the three languages hold a process. Walked backwards, both are released, the worker is
dead for good, and the language that is built answers as before. -/
theorem shutdown_releases_trio :
    Registry.ofList trio = .ok trioRegistry ∧
    Reached Proxy.Plan.opening .standard trioRegistry openTrio ∧
    openTrio.children = [(), ()] ∧
    (openTrio.releaseIn Proxy.Plan.opening ["perl", "go", "ada"] (0, [])).1 = openTrio.closed ∧
    (∀ later, Later Proxy.Plan.opening openTrio.closed later → ∀ world,
      later.run Proxy.Plan.opening world ⟨"ADA", "", "", "", ""⟩ =
        (.error (.workerDead "Ada"), later, world)) ∧
    (openTrio.closed.handleAll Proxy.Plan.opening (0, []) [⟨"go", "", "", "", ""⟩]).1 =
      (openTrio.handleAll Proxy.Plan.opening (0, []) [⟨"go", "", "", "", ""⟩]).1 := by
  have made : Registry.ofList trio = .ok trioRegistry := by decide +kernel
  have reached : Reached Proxy.Plan.opening .standard trioRegistry openTrio := .started _
  have enrols := Registry.enrols_of_ofList made
  obtain ⟨_, walks, quiet, built, _⟩ := shutdown_releases made reached
  have listed : openTrio.languages = ["ada", "go", "perl"] := (reached.serves enrols).names
  have all : ["perl", "go", "ada"].Perm openTrio.languages := by
    rw [listed]
    decide
  have form : normalForm "ADA" = normalForm "Ada" :=
    (by decide +kernel : normalForm "ADA" = "ada").trans
      (by decide +kernel : normalForm "Ada" = "ada").symm
  refine ⟨made, reached, ?_, (walks _ all _).1, fun later after world => ?_, ?_⟩
  · have begun := (executors_start enrols Proxy.Plan.opening .standard (0, [])).1
    rw [children, openTrio, begun]
    rfl
  · have ada : ⟨"Ada", .worker ["ada-worker"] "ada" none⟩ ∈ trioRegistry.toList :=
      List.mem_cons_self
    obtain ⟨_, answers⟩ := (quiet later after).worker _ _ _ _ ada
    exact (answers world ⟨"ADA", "", "", "", ""⟩ form).1
  · have go : ∀ job ∈ [(⟨"go", "", "", "", ""⟩ : Job)], ∃ build,
        trioRegistry.resolve job.language = .ok (.ephemeral build) := by
      intro job member
      obtain rfl := List.mem_singleton.mp member
      have key : normalForm "go" = "go" := by decide +kernel
      refine ⟨⟨"main.go", "library.go", ["go", "run", "."], ["go", "version"]⟩, ?_⟩
      simp [Registry.resolve, key, trioRegistry, Table.find?]
    exact (built _ go (0, [])).1

end Dispatcher

end Polyglot
