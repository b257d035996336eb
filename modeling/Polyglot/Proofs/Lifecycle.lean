import Polyglot.Proofs.Filing

/-!
# How the directory of a job comes and goes

A run prepares a directory, runs the command of the job in it, and removes it when the
command succeeds. Up to the removal, everything that is written stays inside of the
directory: the files of the job because of their names (`Created.writeFile`), and what the
command does because it is confined (`Runner.Confined`). So the entries of the root are
the old ones and at most the directory of the job (`Created.held_of_within`), and after
the removal they are the old ones (`Created.held_delete`).
-/

set_option autoImplicit false

namespace Polyglot

open Polyglot.Host (Tree Node OsError Location ChangesOnly Platform Action Exit)
open Polyglot.Host.Tree

/-! ## The entries of the root -/

/-- What the directory to which a path leads holds under a name. -/
def Host.Tree.held (tree : Tree) (directory path name : String) : Option Node :=
  (tree.place? directory path).bind fun home => tree.get? (home ++ [name])

/-- Making the root adds no entry to it, unless the way to a new root goes upwards. -/
theorem held_ensureDirectory {tree : Tree} {directory root : String}
    (settled : tree.place? directory root ≠ none ∨ ".." ∉ Path.pieces root) :
    (tree.ensureDirectory directory root).2.held directory root = tree.held directory root := by
  rw [ensureDirectory]
  split
  · rfl
  · rename_i filled
    replace filled : root ≠ "" := by simpa using filled
    cases stood : tree.place? directory root with
    | some home => rw [makeChain_of_place stood filled]
    | none =>
        have down := settled.resolve_left (not_not_intro stood)
        have vacant := vacant_makeChain (lineage_ancestry filled down) stood
        funext name
        rw [held, held, stood, Option.bind_none, Option.bind_eq_none_iff]
        exact fun home stands => vacant home stands name

namespace Created

variable {directory root name : String} {rooted made after : Tree} {home : Location}

theorem held_rooted (created : Created directory root name rooted made home) (other : String) :
    rooted.held directory root other = rooted.get? (home ++ [other]) := by
  rw [held, created.place?_root (.refl _ _), Option.bind_some]

/-- After changes inside of the directory, the root holds it and what it held before. -/
theorem held_of_within (created : Created directory root name rooted made home)
    (changed : Within (home ++ [name]) rooted after) :
    rooted.held directory root name = none ∧
      (∃ entries, after.held directory root name = some (.directory entries)) ∧
      ∀ other, other ≠ name →
        after.held directory root other = rooted.held directory root other := by
  have stays := created.place?_root changed.only
  refine ⟨?_, ?_, fun other differs => ?_⟩
  · rw [created.held_rooted, created.absent]
  · obtain ⟨entries, stands⟩ := changed.stands
    exact ⟨entries, by rw [held, stays, Option.bind_some, stands]⟩
  · rw [held, stays, Option.bind_some, created.held_rooted]
    exact changed.only.sibling differs

/-- After the directory is deleted, the root holds what it held before. -/
theorem held_delete (created : Created directory root name rooted made home)
    (changed : Within (home ++ [name]) rooted after) :
    Tree.held (after.delete (home ++ [name])) directory root = rooted.held directory root := by
  obtain ⟨only, gone⟩ := Node.delete_spec after home name
  have whole := changed.only.trans only
  funext other
  rw [held, created.place?_root whole, Option.bind_some, created.held_rooted]
  by_cases same : other = name
  · subst same
    rw [gone, created.absent]
  · exact whole.sibling same

end Created

/-! ## The stages of a run -/

theorem Filing.run_bind_eq_ok_iff {α β : Type} {first : Filing α} {next : α → Filing β}
    {tree after : Tree} {value : β} :
    (first >>= next).run.run tree = (.ok value, after) ↔
      ∃ given middle, first.run.run tree = (.ok given, middle) ∧
        (next given).run.run middle = (.ok value, after) := by
  rcases ran : first.run.run tree with ⟨failure | given, middle⟩
  · rw [Filing.run_bind_error ran]
    constructor
    · rintro ⟨⟩
    · rintro ⟨given, middle, ⟨⟩, _⟩
  · rw [Filing.run_bind_ok ran]
    constructor
    · intro rest
      exact ⟨given, middle, rfl, rest⟩
    · rintro ⟨_, _, ⟨⟩, rest⟩
      exact rest

namespace Runner

variable {platform : Platform} {runner : Runner} {clock : Nat} {tree : Tree} {job : Job}
variable {build : Build} {path program : String} {arguments : List String}

/-- The name of the directory of the next job. -/
def nameFor (runner : Runner) (clock : Nat) (job : Job) : String :=
  workspaceName job.language (Stamp.next runner.lastStamp clock)

/-- The path of the directory of the next job. -/
def pathFor (runner : Runner) (clock : Nat) (job : Job) : String :=
  workspacePath runner.root job.language (Stamp.next runner.lastStamp clock)

/-- Prepares the directory of a job with both of its files. -/
def prepare (platform : Platform) (runner : Runner) (path : String) (job : Job) (build : Build) :
    Filing Unit := do
  Workspace.create platform.directory runner.root path
  Workspace.writeFile platform.directory path build.entryFile job.code
  Workspace.writeFile platform.directory path build.libraryFile job.library

theorem pathFor_eq (runner : Runner) (clock : Nat) (job : Job) :
    runner.pathFor clock job = Path.join runner.root (runner.nameFor clock job) := rfl

/-- When the directory was made, the first file is written, and then the second one. -/
theorem run_prepare {made : Tree}
    (ran : (Workspace.create platform.directory runner.root path).run.run tree = (.ok (), made)) :
    (prepare platform runner path job build).run.run tree =
      match (Workspace.writeFile platform.directory path build.entryFile job.code).run.run made with
      | (.error failure, entered) => (.error failure, entered)
      | (.ok _, entered) =>
        (Workspace.writeFile platform.directory path build.libraryFile job.library).run.run
          entered := by
  rw [prepare, Filing.run_bind_ok ran]
  rcases entry : (Workspace.writeFile platform.directory path build.entryFile job.code).run.run
    made with ⟨failure | done, entered⟩
  · rw [Filing.run_bind_error entry]
  · rw [Filing.run_bind_ok entry]

/-- Prepares the directory of a job and runs its command, and removes nothing. -/
def attempt (platform : Platform) (runner : Runner) (path : String) (job : Job) (build : Build)
    (program : String) (arguments : List String) : Filing String := do
  prepare platform runner path job build
  execute platform runner.timeoutMs path program arguments

theorem runIn_eq : runIn platform runner path job build program arguments =
    (do
      let output ← attempt platform runner path job build program arguments
      Workspace.remove platform.directory path
      pure output) := by
  simp only [runIn, attempt, prepare, bind_assoc]

/-- What the command changes is inside of the directory in which it runs. -/
def Confined (platform : Platform) (runner : Runner) (clock : Nat) (tree : Tree) (job : Job)
    (build : Build) : Prop :=
  ∀ (program : String) (arguments : List String) (filled : Tree) (resolved : String)
    (action : Action Exit) (place : Location) (entries : List (String × Node)),
    build.command = program :: arguments →
    (prepare platform runner (runner.pathFor clock job) job build).run.run tree = (.ok (), filled) →
    platform.resolve filled program (runner.pathFor clock job) = some resolved →
    platform.launch filled resolved arguments (runner.pathFor clock job) = .ok action →
    filled.lookup platform.directory (runner.pathFor clock job) = .ok (place, .directory entries) →
    Within place filled (action.run runner.timeoutMs filled).2

/-- A command is looked up, started and waited for; its end decides on the answer. -/
theorem run_execute (platform : Platform) (limit : Option Nat) (path program : String)
    (arguments : List String) (tree : Tree) :
    (execute platform limit path program arguments).run.run tree =
      match platform.resolve tree program path with
      | none => (.error (.commandNotFound program), tree)
      | some resolved =>
        match platform.launch tree resolved arguments path with
        | .error reason =>
          (.error (.workspace ("Failed to spawn " ++ resolved ++ ": " ++ reason.message)), tree)
        | .ok action => (outputOf limit (action.run limit tree).1, (action.run limit tree).2) := by
  rw [execute, Filing.run_get_bind]
  cases platform.resolve tree program path with
  | none => rfl
  | some resolved =>
      dsimp only
      rw [Filing.run_get_bind]
      cases platform.launch tree resolved arguments path with
      | error reason => rfl
      | ok action =>
          dsimp only
          rw [Filing.run_get_bind, Filing.run_set_bind]
          cases outputOf limit (action.run limit tree).1 with
          | ok output => rfl
          | error failure => rfl

/-- There is output when the command ends in time, with status zero and without complaints. -/
theorem outputOf_eq_ok_iff {limit : Option Nat} {outcome : Host.Outcome} {output : String} :
    outputOf limit outcome = .ok output ↔
      ∃ exit, outcome.exit = some exit ∧ exit.isSuccess = true ∧ outcome.stderr = [] ∧
        output = Text.lossy outcome.stdout := by
  unfold outputOf
  cases outcome.exit with
  | none => simp
  | some exit =>
      simp only [Option.some.injEq, exists_eq_left']
      by_cases silent : outcome.stderr = []
      · cases success : exit.isSuccess with
        | true => simp [silent, eq_comm]
        | false => simp [silent]
      · simp [silent]

/-- A program is started in a directory. -/
theorem exists_of_launch {tree : Tree} {action : Action Exit}
    (launched : platform.launch tree program arguments path = .ok action) :
    ∃ place entries, tree.lookup platform.directory path = .ok (place, .directory entries) := by
  unfold Platform.launch at launched
  split at launched
  · cases launched
  · cases entered : platform.enter tree path with
    | error reason =>
        rw [entered] at launched
        cases launched
    | ok inside =>
        obtain ⟨place, entries, _, found⟩ := exists_of_enter entered
        exact ⟨place, entries, found⟩

end Runner

/-- What is found under the path of the directory is at its place. -/
theorem Created.place_of_lookup {directory root name : String} {rooted made after : Tree}
    {home place : Location} {node : Node} (created : Created directory root name rooted made home)
    (changed : Within (home ++ [name]) rooted after)
    (found : after.lookup directory (Path.join root name) = .ok (place, node)) :
    place = home ++ [name] := by
  obtain ⟨_, ⟨_, _, leads⟩, _⟩ := lookup_eq_ok_iff.mp found
  obtain ⟨_, _, _, arrives⟩ := created.arrives_directory changed true
  exact (leads.unique arrives).1

namespace Runner

variable {platform : Platform} {runner : Runner} {clock : Nat} {tree rooted made : Tree} {job : Job}
variable {build : Build} {program : String} {arguments : List String} {home : Location}

/-- Preparing the directory stays inside of it, also when it fails after it was made. -/
theorem prepared_prepare (build : Build)
    (created : Created platform.directory runner.root (runner.nameFor clock job) rooted made home)
    (ran : (Workspace.create platform.directory runner.root (runner.pathFor clock job)).run.run tree =
      (.ok (), made)) :
    Prepared (home ++ [runner.nameFor clock job]) rooted
      ((prepare platform runner (runner.pathFor clock job) job build).run.run tree).2 := by
  have first := created.writeFile created.prepared build.entryFile job.code
  rw [run_prepare ran, pathFor_eq]
  generalize (Workspace.writeFile platform.directory
    (Path.join runner.root (runner.nameFor clock job)) build.entryFile job.code).run.run made = entry
    at first ⊢
  obtain ⟨failure | done, entered⟩ := entry
  · exact first
  · exact created.writeFile first build.libraryFile job.library

/-- Everything up to the removal stays inside of the directory. -/
theorem within_attempt (confined : Confined platform runner clock tree job build)
    (command : build.command = program :: arguments)
    (created : Created platform.directory runner.root (runner.nameFor clock job) rooted made home)
    (ran : (Workspace.create platform.directory runner.root (runner.pathFor clock job)).run.run tree =
      (.ok (), made)) :
    Within (home ++ [runner.nameFor clock job]) rooted
      ((attempt platform runner (runner.pathFor clock job) job build program arguments).run.run
        tree).2 := by
  have prepared := prepared_prepare build created ran
  rw [attempt]
  rcases filling : (prepare platform runner (runner.pathFor clock job) job build).run.run tree with
    ⟨failure | done, filled⟩
  · rw [filling] at prepared
    rw [Filing.run_bind_error filling]
    exact prepared.toWithin
  · rw [filling] at prepared
    rw [Filing.run_bind_ok filling, run_execute]
    cases resolution : platform.resolve filled program (runner.pathFor clock job) with
    | none => exact prepared.toWithin
    | some resolved =>
        cases launched : platform.launch filled resolved arguments (runner.pathFor clock job) with
        | error reason => simpa only [launched] using prepared.toWithin
        | ok action =>
            obtain ⟨place, entries, found⟩ := exists_of_launch launched
            have changed := confined program arguments filled resolved action place entries command
              filling resolution launched found
            rw [created.place_of_lookup prepared.toWithin found] at changed
            simpa only [launched] using prepared.toWithin.trans changed

theorem run_eq_runIn (command : build.command = program :: arguments) :
    run platform runner clock tree job build =
      (((runIn platform runner (runner.pathFor clock job) job build program arguments).run.run
          tree).1,
        { runner with lastStamp := Stamp.next runner.lastStamp clock },
        ((runIn platform runner (runner.pathFor clock job) job build program arguments).run.run
          tree).2) := by
  rw [run, command]
  rfl

/-- A run answers what its attempt answers, and removes the directory on success only. -/
theorem run_of_command (command : build.command = program :: arguments) :
    run platform runner clock tree job build =
      match (attempt platform runner (runner.pathFor clock job) job build program
        arguments).run.run tree with
      | (.ok output, after) => (.ok output,
        { runner with lastStamp := Stamp.next runner.lastStamp clock },
        ((Workspace.remove platform.directory (runner.pathFor clock job)).run.run after).2)
      | (.error failure, after) => (.error failure,
        { runner with lastStamp := Stamp.next runner.lastStamp clock }, after) := by
  rw [run_eq_runIn command, runIn_eq]
  rcases attempted : (attempt platform runner (runner.pathFor clock job) job build program
    arguments).run.run tree with ⟨failure | output, after⟩
  · rw [Filing.run_bind_error attempted]
  · have removal := Workspace.run_remove platform.directory (runner.pathFor clock job) after
    rw [Filing.run_bind_ok attempted, Filing.run_bind_ok removal]
    simp only [removal]
    rfl

/-- When the directory cannot be made, the attempt ends there. -/
theorem attempt_of_refused {failure : Failure}
    (refused : (Workspace.create platform.directory runner.root (runner.pathFor clock job)).run.run
      tree = (.error failure, made)) :
    (attempt platform runner (runner.pathFor clock job) job build program arguments).run.run tree =
      (.error failure, made) := by
  rw [attempt, prepare, bind_assoc, Filing.run_bind_error refused]

/--
The attempt passes all its stages: the directory is made, both files are written, the
program is found and started, and it ends in time, with status zero and without a word on
the standard error. It then leaves a tree behind, and its standard output.
-/
def Passes (platform : Platform) (runner : Runner) (path : String) (tree : Tree) (job : Job)
    (build : Build) (program : String) (arguments : List String) (after : Tree) (output : String) :
    Prop :=
  ∃ made entered filled resolved action exit,
    (Workspace.create platform.directory runner.root path).run.run tree = (.ok (), made) ∧
    (Workspace.writeFile platform.directory path build.entryFile job.code).run.run made =
      (.ok (), entered) ∧
    (Workspace.writeFile platform.directory path build.libraryFile job.library).run.run entered =
      (.ok (), filled) ∧
    platform.resolve filled program path = some resolved ∧
    platform.launch filled resolved arguments path = .ok action ∧
    (action.run runner.timeoutMs filled).1.exit = some exit ∧ exit.isSuccess = true ∧
    (action.run runner.timeoutMs filled).1.stderr = [] ∧
    output = Text.lossy (action.run runner.timeoutMs filled).1.stdout ∧
    after = (action.run runner.timeoutMs filled).2

theorem attempt_eq_ok_iff {path output : String} {after : Tree} :
    (attempt platform runner path job build program arguments).run.run tree = (.ok output, after) ↔
      Passes platform runner path tree job build program arguments after output := by
  rw [attempt, prepare, Passes]
  simp only [Filing.run_bind_eq_ok_iff, run_execute]
  constructor
  · rintro ⟨_, filled, ⟨_, made, creation, _, entered, entry, library⟩, ran⟩
    cases resolution : platform.resolve filled program path with
    | none =>
        simp only [resolution] at ran
        cases ran
    | some resolved =>
        cases launched : platform.launch filled resolved arguments path with
        | error reason =>
            simp only [resolution, launched] at ran
            cases ran
        | ok action =>
            simp only [resolution, launched] at ran
            obtain ⟨told, rfl⟩ := Prod.mk.inj ran
            obtain ⟨exit, ended, success, silent, same⟩ := outputOf_eq_ok_iff.mp told
            exact ⟨made, entered, filled, resolved, action, exit, creation, entry, library,
              resolution, launched, ended, success, silent, same, rfl⟩
  · rintro ⟨made, entered, filled, resolved, action, exit, creation, entry, library, resolution,
      launched, ended, success, silent, rfl, rfl⟩
    refine ⟨(), filled, ⟨(), made, creation, (), entered, entry, library⟩, ?_⟩
    simp only [resolution, launched]
    rw [outputOf_eq_ok_iff.mpr ⟨exit, ended, success, silent, rfl⟩]

/-! ## The whole run -/

theorem run_of_empty (command : build.command = []) :
    run platform runner clock tree job build =
      (.error (.configuration (job.language ++ ": empty build command")), runner, tree) := by
  rw [run, command]

theorem run_eq_ok_iff {output : String} :
    (run platform runner clock tree job build).1 = .ok output ↔
      ∃ program arguments after, build.command = program :: arguments ∧
        Passes platform runner (runner.pathFor clock job) tree job build program arguments after
          output := by
  cases command : build.command with
  | nil =>
      rw [run_of_empty command]
      constructor
      · rintro ⟨⟩
      · rintro ⟨_, _, _, ⟨⟩, _⟩
  | cons program arguments =>
      rw [run_of_command command]
      rcases attempted : (attempt platform runner (runner.pathFor clock job) job build program
        arguments).run.run tree with ⟨failure | told, after⟩
      · constructor
        · rintro ⟨⟩
        · rintro ⟨_, _, _, ⟨⟩, passes⟩
          rw [attempt_eq_ok_iff.mpr passes] at attempted
          cases attempted
      · constructor
        · rintro ⟨⟩
          exact ⟨program, arguments, after, rfl, attempt_eq_ok_iff.mp attempted⟩
        · rintro ⟨_, _, _, ⟨⟩, passes⟩
          rw [attempt_eq_ok_iff.mpr passes] at attempted
          cases attempted
          rfl

/-- The directory of a job is new in the tree in which the root was made. -/
theorem exists_created_of_create
    (ran : (Workspace.create platform.directory runner.root (runner.pathFor clock job)).run.run tree =
      (.ok (), made)) :
    ∃ home, Created platform.directory runner.root (runner.nameFor clock job)
      (tree.ensureDirectory platform.directory runner.root).2 made home := by
  rcases Workspace.create_cases ran with ⟨_, ⟨⟩, _⟩ | ⟨_, outcome⟩
  exact exists_created (isPlain_workspaceName _ _) outcome

/-- After a run that yields output, the root holds what it held before. -/
theorem held_of_ok (confined : Confined platform runner clock tree job build) {output : String}
    (done : (run platform runner clock tree job build).1 = .ok output) :
    (run platform runner clock tree job build).2.2.held platform.directory runner.root =
      (tree.ensureDirectory platform.directory runner.root).2.held platform.directory
        runner.root := by
  obtain ⟨program, arguments, after, command, passes⟩ := run_eq_ok_iff.mp done
  have attempted := attempt_eq_ok_iff.mpr passes
  obtain ⟨made, _, _, _, _, _, creation, _⟩ := passes
  obtain ⟨home, created⟩ := exists_created_of_create creation
  have changed := within_attempt confined command created creation
  rw [attempted] at changed
  rw [run_of_command command, attempted]
  have removed : ((Workspace.remove platform.directory (runner.pathFor clock job)).run.run
      after).2 = after.delete (home ++ [runner.nameFor clock job]) :=
    congrArg Prod.snd (created.remove changed)
  simp only [removed]
  exact created.held_delete changed

/-- A run that fails leaves the tree as its attempt does. -/
theorem attempt_of_error (command : build.command = program :: arguments) {failure : Failure}
    (failed : (run platform runner clock tree job build).1 = .error failure) :
    (attempt platform runner (runner.pathFor clock job) job build program arguments).run.run tree =
      (.error failure, (run platform runner clock tree job build).2.2) := by
  rw [run_of_command command] at failed ⊢
  rcases attempted : (attempt platform runner (runner.pathFor clock job) job build program
    arguments).run.run tree with ⟨_ | output, after⟩
  · rw [attempted] at failed
    cases failed
    rfl
  · rw [attempted] at failed
    cases failed

/-- After a run that fails when the directory was made, the root holds that directory too. -/
theorem held_of_error (confined : Confined platform runner clock tree job build)
    (command : build.command = program :: arguments) {failure : Failure}
    (failed : (run platform runner clock tree job build).1 = .error failure)
    (creation : (Workspace.create platform.directory runner.root
      (runner.pathFor clock job)).run.run tree = (.ok (), made)) :
    let rooted := (tree.ensureDirectory platform.directory runner.root).2
    let final := (run platform runner clock tree job build).2.2
    let name := runner.nameFor clock job
    rooted.held platform.directory runner.root name = none ∧
      (∃ held, final.held platform.directory runner.root name = some (.directory held)) ∧
      ∀ other, other ≠ name → final.held platform.directory runner.root other =
        rooted.held platform.directory runner.root other := by
  intro rooted final name
  obtain ⟨home, created⟩ := exists_created_of_create creation
  have changed := within_attempt confined command created creation
  rw [attempt_of_error command failed] at changed
  exact created.held_of_within changed

/-- **The directory of a job is removed on success and kept on failure.** A run yields
output exactly when it passes all its stages. Then the root holds what it held before,
whatever the command did in its directory. A run that fails after the directory was made
leaves the root with that one entry more, and the tree as the attempt left it; a run that
fails earlier leaves the root as it was. Making the root itself adds nothing to a root that
was there, nor to a new one whose path does not go upwards. -/
theorem run_lifecycle (platform : Platform) (runner : Runner) (clock : Nat) (tree : Tree)
    (job : Job) (build : Build) (confined : Confined platform runner clock tree job build) :
    let path := runner.pathFor clock job
    let name := runner.nameFor clock job
    let rooted := (tree.ensureDirectory platform.directory runner.root).2
    let answer := (run platform runner clock tree job build).1
    let final := (run platform runner clock tree job build).2.2
    let entries (tree : Tree) := tree.held platform.directory runner.root
    (∀ output, answer = .ok output ↔
      ∃ program arguments after, build.command = program :: arguments ∧
        Passes platform runner path tree job build program arguments after output) ∧
    (∀ output, answer = .ok output → entries final = entries rooted) ∧
    (∀ failure, answer = .error failure →
      (build.command = [] ∧ final = tree) ∨
      ((Workspace.create platform.directory runner.root path).run.run tree =
        (.error failure, rooted) ∧ final = rooted) ∨
      ∃ program arguments made, build.command = program :: arguments ∧
        (Workspace.create platform.directory runner.root path).run.run tree = (.ok (), made) ∧
        (attempt platform runner path job build program arguments).run.run tree =
          (.error failure, final) ∧
        entries rooted name = none ∧ (∃ held, entries final name = some (.directory held)) ∧
        ∀ other, other ≠ name → entries final other = entries rooted other) ∧
    (tree.place? platform.directory runner.root ≠ none ∨ ".." ∉ Path.pieces runner.root →
      entries rooted = entries tree) := by
  intro path name rooted answer final entries
  refine ⟨fun output => run_eq_ok_iff, fun output done => held_of_ok confined done,
    fun failure failed => ?_, held_ensureDirectory⟩
  cases command : build.command with
  | nil => exact .inl ⟨rfl, by simp only [final, run_of_empty command]⟩
  | cons program arguments =>
      have attempted := attempt_of_error command failed
      rcases creation : (Workspace.create platform.directory runner.root path).run.run tree with
        ⟨refusal | done, made⟩
      · -- The attempt ended before the directory was made.
        rw [attempt_of_refused creation] at attempted
        obtain ⟨⟨⟩, same⟩ := Prod.mk.inj attempted
        rcases Workspace.create_cases creation with ⟨_, _, rfl⟩ | ⟨⟨⟩, _⟩
        exact .inr (.inl ⟨rfl, same.symm⟩)
      · exact .inr (.inr ⟨program, arguments, made, rfl, rfl, attempted,
          held_of_error confined command failed creation⟩)

/-- Where no program changes the file tree, every command is confined. -/
theorem confined_of_still {platform : Platform}
    (still : ∀ tree path name arguments place action,
      platform.start tree path name arguments place = .ok action →
      ∀ limit before, (Action.run limit before action).2 = before)
    (runner : Runner) (clock : Nat) (tree : Tree) (job : Job) (build : Build) :
    Confined platform runner clock tree job build := by
  intro program arguments filled resolved action place entries _ _ _ launched found
  obtain ⟨_, ⟨_, _, leads⟩, _⟩ := lookup_eq_ok_iff.mp found
  have same : (action.run runner.timeoutMs filled).2 = filled := by
    unfold Platform.launch at launched
    split at launched
    · cases launched
    · cases entered : platform.enter filled (runner.pathFor clock job) with
      | error reason =>
          rw [entered] at launched
          cases launched
      | ok directory =>
          rw [entered] at launched
          exact still _ _ _ _ _ _ launched _ _
  rw [same]
  exact ⟨.refl _ _, entries, leads.get?_eq⟩

/-! ## A command that writes out a file of its directory -/

/-- To write out the file with the code. -/
def showMain (place : String) : Action Exit :=
  .look fun tree =>
    match tree.read "/" (Path.join place "main.txt") with
    | .ok contents => .write .out contents (.done (.status 0))
    | .error _ => .done (.status 1)

/-- A machine on which every program writes out the code of its job. -/
def showing : Platform where
  directory := "/"
  find := fun _ _ => .error .notFound
  start := fun _ _ _ _ place => .ok (showMain place)

/-- A root with one older entry. -/
def sharedRoot : Tree :=
  .directory [("work", .directory [("old", .file [] false)])]

/-- A job whose code and library go to two files. -/
def twoFiles : Build :=
  ⟨"main.txt", "lib/one.txt", ["./show"], ["./show"]⟩

theorem run_showMain (limit : Option Nat) (place : String) (tree : Tree) :
    ((showMain place).run limit tree).2 = tree := by
  rw [Action.run, showMain, Action.runFrom]
  cases tree.read "/" (Path.join place "main.txt") with
  | ok contents => rfl
  | error reason => rfl

theorem confined_showing (runner : Runner) (clock : Nat) (tree : Tree) (job : Job)
    (build : Build) : Confined showing runner clock tree job build := by
  refine confined_of_still ?_ runner clock tree job build
  rintro _ _ _ _ place _ ⟨⟩ limit before
  exact run_showMain limit place before

/-- A job that succeeds below that root leaves the older entry there and no other. -/
theorem run_lifecycle_showing :
    Confined showing ⟨"/work", some 1000, 0⟩ 7 sharedRoot ⟨"Shell", "X", "", "", ""⟩ twoFiles ∧
    (run showing ⟨"/work", some 1000, 0⟩ 7 sharedRoot ⟨"Shell", "X", "", "", ""⟩ twoFiles).1 =
      .ok "X" ∧
    (run showing ⟨"/work", some 1000, 0⟩ 7 sharedRoot ⟨"Shell", "X", "", "", ""⟩
      twoFiles).2.2.held "/" "/work" = sharedRoot.held "/" "/work" := by
  have confined := confined_showing ⟨"/work", some 1000, 0⟩ 7 sharedRoot ⟨"Shell", "X", "", "", ""⟩
    twoFiles
  have done : (run showing ⟨"/work", some 1000, 0⟩ 7 sharedRoot ⟨"Shell", "X", "", "", ""⟩
      twoFiles).1 = .ok "X" := by
    decide +kernel
  have stands : sharedRoot.place? "/" "/work" ≠ none := by
    decide +kernel
  obtain ⟨_, kept, _, settled⟩ := run_lifecycle showing ⟨"/work", some 1000, 0⟩ 7 sharedRoot
    ⟨"Shell", "X", "", "", ""⟩ twoFiles confined
  exact ⟨confined, done, (kept "X" done).trans (settled (.inl stands))⟩

end Runner

end Polyglot
