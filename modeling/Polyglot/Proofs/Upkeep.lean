import Polyglot.Proofs.Stamps
import Polyglot.Proofs.Twins

/-!
# The root in the course of many jobs

All jobs that are built share one root, which is made with every job again. A root that was
made once stands, and making it again changes nothing (`steady_of_made`). The same is asked of
a root that cannot be made (`Steady`); a root that goes upwards behind a directory that is
missing may be refused for another reason once that directory was made.

Below the root, every job that is built changes nothing but the entry of its own name, which
nobody had before (`Grown`). So at any time the tree is the one in which the root was made,
up to entries of old jobs (`Kept`, `Kept.run`), and two jobs with the same texts have alike outcomes
whatever jobs came before them, if the command sees nothing but its directory (`run_alike`).
-/

set_option autoImplicit false

namespace Polyglot

open Polyglot.Host (Tree Node OsError Location ChangesOnly Keeps Platform Action Exit Outcome)
open Polyglot.Host.Tree

/-! ## Making the root again -/

namespace Host.Tree

variable {tree after : Tree} {directory path : String} {place : Location}

theorem isDirectory_of_place (stands : tree.place? directory path = some place)
    (admissible : Admissible path) : tree.isDirectory directory path = true := by
  obtain ⟨entries, arrives⟩ := place?_eq_some_iff.mp stands
  have found : tree.lookup directory path = .ok (place, .directory entries) :=
    lookup_eq_ok_iff.mpr ⟨admissible, arrives, fun _ => rfl⟩
  rw [isDirectory, found]
  rfl

theorem exists_place_of_isDirectory (found : tree.isDirectory directory path = true) :
    Admissible path ∧ ∃ place, tree.place? directory path = some place := by
  unfold isDirectory at found
  cases looked : tree.lookup directory path with
  | error reason =>
      rw [looked] at found
      cases found
  | ok reached =>
      obtain ⟨place, node⟩ := reached
      rw [looked] at found
      cases node with
      | directory entries =>
          obtain ⟨admissible, arrives, _⟩ := lookup_eq_ok_iff.mp looked
          exact ⟨admissible, place, place?_eq_some_iff.mpr ⟨entries, arrives⟩⟩
      | file contents executable => cases found
      | program name => cases found
      | device zeros => cases found
      | link target => cases found

theorem exists_place_of_makeDirectory (made : tree.makeDirectory directory path = .ok after) :
    Admissible path ∧ ∃ place, after.place? directory path = some place := by
  obtain ⟨_, _, _, _, _, _, arrives⟩ := exists_put_of_makeDirectory made
  exact ⟨(makeDirectory_eq_ok made).1, _, place?_eq_some_iff.mpr ⟨[], arrives⟩⟩

theorem exists_place_of_settle {reason : OsError}
    (settled : makeChain.settle directory tree path reason = .ok ()) :
    Admissible path ∧ ∃ place, tree.place? directory path = some place := by
  unfold makeChain.settle at settled
  split at settled
  · rename_i found
    exact exists_place_of_isDirectory found
  · cases settled

/-- A directory that was made, with its ancestors, is one to which the path leads. -/
theorem exists_place_of_ensureDirectory (filled : path ≠ "")
    (made : tree.ensureDirectory directory path = (.ok (), after)) :
    Admissible path ∧ ∃ place, after.place? directory path = some place := by
  rw [ensureDirectory, if_neg (by simpa using filled)] at made
  cases first : tree.makeDirectory directory path with
  | ok whole =>
      rw [makeChain_of_made first] at made
      cases made
      exact exists_place_of_makeDirectory first
  | error reason =>
      by_cases missing : reason = .notFound
      · subst missing
        rw [makeChain_of_missing first] at made
        rcases chain : tree.makeChain directory ((ancestry path).drop 1) with ⟨refusal | done, above⟩
        · simp only [chain] at made
          cases made
        · simp only [chain] at made
          cases second : above.makeDirectory directory path with
          | ok whole =>
              simp only [second] at made
              cases made
              exact exists_place_of_makeDirectory second
          | error reason =>
              simp only [second] at made
              obtain ⟨settled, rfl⟩ := Prod.mk.inj made
              exact exists_place_of_settle settled
      · rw [makeChain_of_refused first missing] at made
        obtain ⟨settled, rfl⟩ := Prod.mk.inj made
        exact exists_place_of_settle settled

/-- Where a path leads to a directory, nothing more is made. -/
theorem ensureDirectory_of_place (stands : tree.place? directory path = some place)
    (admissible : Admissible path) : tree.ensureDirectory directory path = (.ok (), tree) := by
  have filled : path ≠ "" := by
    simpa using admissible.filled
  obtain ⟨reason, other, refused⟩ := makeDirectory_of_place stands filled
  rw [ensureDirectory, if_neg (by simp [admissible.filled]), makeChain_of_refused refused other,
    makeChain.settle, if_pos (isDirectory_of_place stands admissible)]

end Host.Tree

/-- Making the root again changes nothing and is answered as the first time; and a root that
can be made is a directory. -/
structure Steady (directory root : String) (tree : Tree) : Prop where
  again : (tree.ensureDirectory directory root).2.ensureDirectory directory root =
    tree.ensureDirectory directory root
  opens : (tree.ensureDirectory directory root).1 = .ok () →
    (tree.ensureDirectory directory root).2.place? directory root ≠ none

/-- A root that can be made is made once. -/
theorem steady_of_made {directory root : String} {tree : Tree} (filled : root ≠ "")
    (made : (tree.ensureDirectory directory root).1 = .ok ()) : Steady directory root tree := by
  obtain ⟨admissible, place, stands⟩ := exists_place_of_ensureDirectory filled (Prod.ext made rfl)
  refine ⟨?_, fun _ => by rw [stands]; exact Option.some_ne_none _⟩
  rw [ensureDirectory_of_place stands admissible, ← made]

/-! ## Entries of jobs -/

/-- A tree that differs from an older one only inside of new entries of one directory. -/
inductive Grown (home : Location) (base : Tree) : Tree → Prop where
  | refl : Grown home base base
  | entry {tree after : Tree} {name : String} (grown : Grown home base tree)
      (absent : base.get? (home ++ [name]) = none)
      (changed : ChangesOnly (home ++ [name]) tree after) : Grown home base after

namespace Grown

variable {home : Location} {base tree : Tree}

/-- Whatever stood in the older tree still stands. -/
theorem keeps (grown : Grown home base tree) : Keeps base tree := by
  induction grown with
  | refl => exact fun _ node stands => ⟨node, stands, rfl⟩
  | @entry tree after name grown absent changed ih =>
      intro location node stands
      obtain ⟨kept, found, same⟩ := ih location node stands
      have outside : ¬ home ++ [name] <+: location := by
        intro leads
        rw [Node.get?_eq_none_of_prefix absent leads] at stands
        cases stands
      have looks := changed.face outside
      rw [found, Option.map_some, Option.map_eq_some_iff] at looks
      obtain ⟨still, standing, alike⟩ := looks
      exact ⟨still, standing, alike.trans same⟩

/-- A path that led to a directory leads there still, at the same cost. -/
theorem leads (grown : Grown home base tree) {cost : Nat} {steps : List String}
    {entries : List (String × Node)}
    (leads : Leads base true cost [] steps home (some (.directory entries))) :
    ∃ others, Leads tree true cost [] steps home (some (.directory others)) := by
  obtain ⟨others, still⟩ := grown.keeps.directory leads.get?_eq
  exact ⟨others, still ▸ leads.keeps grown.keeps nofun⟩

end Grown

/-! ## What the jobs leave behind -/

/-- Nothing below the root has the name of a directory with this stamp. -/
def Unused (directory root : String) (base : Tree) (stamp : Nat) : Prop :=
  ∀ language, base.held directory root (workspaceName language stamp) = none

/-- A tree as jobs leave it behind: the root can be made as it could at the start, and then
below it there is nothing new but directories of jobs, with stamps up to the last one. -/
structure Kept (directory root : String) (start : Tree) (last : Nat) (tree : Tree) : Prop where
  answer : (tree.ensureDirectory directory root).1 = (start.ensureDirectory directory root).1
  again : (tree.ensureDirectory directory root).2.ensureDirectory directory root =
    tree.ensureDirectory directory root
  grown : (start.ensureDirectory directory root).1 = .ok () → ∀ home,
    (start.ensureDirectory directory root).2.place? directory root = some home →
    Grown home (start.ensureDirectory directory root).2 (tree.ensureDirectory directory root).2
  vacant : (start.ensureDirectory directory root).1 = .ok () → ∀ stamp, last < stamp →
    Unused directory root (start.ensureDirectory directory root).2 stamp →
    Unused directory root (tree.ensureDirectory directory root).2 stamp

namespace Grown

variable {directory root : String} {home : Location} {base tree : Tree}

/-- The root still leads where it led. -/
theorem place?_eq (grown : Grown home base tree) (stands : base.place? directory root = some home) :
    tree.place? directory root = some home := by
  obtain ⟨entries, cost, within, leads⟩ := place?_eq_some_iff.mp stands
  obtain ⟨others, further⟩ := grown.leads leads
  exact place?_eq_some_iff.mpr ⟨others, cost, within, further⟩

end Grown

namespace Kept

variable {directory root : String} {start tree after : Tree} {last later : Nat}

theorem of_steady (steady : Steady directory root start) (last : Nat) :
    Kept directory root start last start :=
  ⟨rfl, steady.again, fun _ _ _ => .refl, fun _ _ _ unused => unused⟩

theorem mono (kept : Kept directory root start last tree) (least : last ≤ later) :
    Kept directory root start later tree :=
  ⟨kept.answer, kept.again, kept.grown, fun made stamp above =>
    kept.vacant made stamp (Nat.lt_of_le_of_lt least above)⟩

/-- When the root was made and nothing else, the tree is kept. -/
theorem rooted (kept : Kept directory root start last tree) :
    Kept directory root start last (tree.ensureDirectory directory root).2 := by
  refine ⟨?answer, ?again, ?grown, ?vacant⟩
  case answer => rw [kept.again, kept.answer]
  case again => rw [kept.again, kept.again]
  case grown =>
    rw [kept.again]
    exact kept.grown
  case vacant =>
    rw [kept.again]
    exact kept.vacant

/-- A root that leads to a directory and was made is not made again. -/
theorem ensureDirectory_eq {home : Location} (made : (tree.ensureDirectory directory root).1 = .ok ())
    (stands : after.place? directory root = some home) :
    after.ensureDirectory directory root = (.ok (), after) := by
  by_cases filled : root = ""
  · rw [filled]
    rfl
  · obtain ⟨admissible, _⟩ := exists_place_of_ensureDirectory filled (Prod.ext made rfl)
    exact ensureDirectory_of_place stands admissible

/-- What a job changes inside of its own directory keeps the tree. -/
theorem entry (kept : Kept directory root start last tree)
    (made : (start.ensureDirectory directory root).1 = .ok ()) {home : Location}
    (stands : (start.ensureDirectory directory root).2.place? directory root = some home)
    {language : String} (newer : last < later)
    (unused : Unused directory root (start.ensureDirectory directory root).2 later)
    (changed : ChangesOnly (home ++ [workspaceName language later])
      (tree.ensureDirectory directory root).2 after) :
    Kept directory root start later after := by
  have absent : (start.ensureDirectory directory root).2.get?
      (home ++ [workspaceName language later]) = none := by
    have none := unused language
    rwa [held, stands, Option.bind_some] at none
  have grown := (kept.grown made home stands).entry absent changed
  have leads := grown.place?_eq stands
  have before := (kept.grown made home stands).place?_eq stands
  have whole := ensureDirectory_eq made leads
  refine ⟨?_, ?_, fun _ other found => ?_, fun _ stamp above free other => ?_⟩
  · rw [whole, made]
  · rw [whole, whole]
  · obtain rfl : home = other := Option.some.inj (stands.symm.trans found)
    rw [whole]
    exact grown
  · have vacant := kept.vacant made stamp (Nat.lt_trans newer above) free other
    have differ : workspaceName other stamp ≠ workspaceName language later := by
      intro same
      exact Nat.ne_of_gt above (workspaceName_injective same)
    rw [held, before, Option.bind_some] at vacant
    rw [whole, held, leads, Option.bind_some, changed.sibling differ, vacant]

end Kept

namespace Runner

variable {platform : Platform} {runner : Runner} {clock : Nat} {tree made rooted : Tree} {job : Job}
variable {build : Build} {program : String} {arguments : List String} {home : Location}

/-- A run whose directory was made changes nothing but that directory. -/
theorem changesOnly_run (confined : Confined platform runner clock tree job build)
    (command : build.command = program :: arguments)
    (created : Created platform.directory runner.root (runner.nameFor clock job) rooted made home)
    (ran : (Workspace.create platform.directory runner.root (runner.pathFor clock job)).run.run tree =
      (.ok (), made)) :
    ChangesOnly (home ++ [runner.nameFor clock job]) rooted
      (run platform runner clock tree job build).2.2 := by
  have changed := within_attempt confined command created ran
  rw [run_of_command command]
  rcases attempted : (attempt platform runner (runner.pathFor clock job) job build program
    arguments).run.run tree with ⟨failure | output, after⟩
  · rw [attempted] at changed
    exact changed.only
  · rw [attempted] at changed
    have removed := congrArg Prod.snd (created.remove changed)
    simp only [pathFor_eq, removed]
    exact changed.only.trans (Node.delete_spec after home _).1

/-- A run changes nothing of its runner but the last stamp. -/
theorem run_runner (platform : Platform) (runner : Runner) (clock : Nat) (tree : Tree) (job : Job)
    (build : Build) :
    (run platform runner clock tree job build).2.1 =
      ⟨runner.root, runner.timeoutMs, (run platform runner clock tree job build).2.1.lastStamp⟩ := by
  cases command : build.command with
  | nil => rw [run_of_empty command]
  | cons program arguments => rw [run_eq_runIn command]

/-- **A job that is built keeps the tree.** -/
theorem kept_run {start : Tree} (confined : Confined platform runner clock tree job build)
    (kept : Kept platform.directory runner.root start runner.lastStamp tree)
    (unused : Unused platform.directory runner.root
      (start.ensureDirectory platform.directory runner.root).2
      (Stamp.next runner.lastStamp clock))
    (steady : Steady platform.directory runner.root start) :
    Kept platform.directory runner.root start
      (run platform runner clock tree job build).2.1.lastStamp
      (run platform runner clock tree job build).2.2 := by
  cases command : build.command with
  | nil =>
      rw [run_of_empty command]
      exact kept
  | cons program arguments =>
      have newer := Stamp.last_lt_next runner.lastStamp clock
      have last : (run platform runner clock tree job build).2.1.lastStamp =
          Stamp.next runner.lastStamp clock := by
        rw [run_eq_runIn command]
      rw [last]
      rcases creation : (Workspace.create platform.directory runner.root
        (runner.pathFor clock job)).run.run tree with ⟨refusal | done, made⟩
      · -- The root was made, or what is missing above it, and nothing else.
        rcases Workspace.create_cases creation with ⟨_, _, rfl⟩ | ⟨⟨⟩, _⟩
        rw [run_of_command command, attempt_of_refused creation]
        exact kept.rooted.mono (Nat.le_of_lt newer)
      · obtain ⟨place, created⟩ := exists_created_of_create creation
        have made := Workspace.ensured_of_create creation
        obtain ⟨home, stands⟩ := Option.ne_none_iff_exists'.mp
          (steady.opens (kept.answer ▸ made))
        have grown := kept.grown (kept.answer ▸ made) home stands
        obtain rfl : place = home := Option.some.inj
          ((created.place?_root (.refl _ _)).symm.trans (grown.place?_eq stands))
        exact kept.entry (kept.answer ▸ made) stands newer unused
          (changesOnly_run confined command created creation)

end Runner

/-! ## Commands that see nothing but their directory -/

/-- Two ends of a command are the same, and what was written is alike. -/
structure Host.Outcome.Alike (one other : Nat) (first second : Outcome) : Prop where
  exit : first.exit = second.exit
  stdout : Polyglot.Alike one other (Text.lossy first.stdout) (Text.lossy second.stdout)
  stderr : Polyglot.Alike one other (Text.lossy first.stderr) (Text.lossy second.stderr)
  silent : first.stderr.isEmpty = second.stderr.isEmpty

/-- Two programs do not start for the same reason, or start and end alike. -/
inductive AlikeStarts (limit : Option Nat) (one other : Nat) (treeOne treeOther : Tree) :
    Except OsError (Action Exit) → Except OsError (Action Exit) → Prop where
  | refused (reason : OsError) :
      AlikeStarts limit one other treeOne treeOther (.error reason) (.error reason)
  | started {first second : Action Exit}
      (alike : (first.run limit treeOne).1.Alike one other (second.run limit treeOther).1) :
      AlikeStarts limit one other treeOne treeOther (.ok first) (.ok second)

/--
What a command does depends on nothing but the content of its directory. In two trees that
have grown from one below the root, in two directories with names that differ in equally
long stamps and with the same content, the same program is found and does the same, but for
the stamps.
-/
def SelfContained (platform : Platform) (root : String) (limit : Option Nat) (base : Tree)
    (build : Build) : Prop :=
  ∀ (program : String) (arguments : List String) (home : Location) (language : String)
    (one other : Nat) (treeOne treeOther : Tree) (content : Node),
    build.command = program :: arguments → base.place? platform.directory root = some home →
    Stamp.EquallyLong one other → Grown home base treeOne → Grown home base treeOther →
    treeOne.get? (home ++ [workspaceName language one]) = some content →
    treeOther.get? (home ++ [workspaceName language other]) = some content →
    platform.find? treeOne program = platform.find? treeOther program ∧
    ∀ resolvedOne resolvedOther,
      platform.resolve treeOne program (workspacePath root language one) = some resolvedOne →
      platform.resolve treeOther program (workspacePath root language other) = some resolvedOther →
      AlikeStarts limit one other treeOne treeOther
        (platform.start treeOne resolvedOne resolvedOne arguments
          (Tree.pathOf (home ++ [workspaceName language one])))
        (platform.start treeOther resolvedOther resolvedOther arguments
          (Tree.pathOf (home ++ [workspaceName language other])))

theorem alikeOutcomes_outputOf {one other : Nat} {first second : Outcome} (limit : Option Nat)
    (alike : first.Alike one other second) :
    AlikeOutcomes one other (outputOf limit first) (outputOf limit second) := by
  unfold outputOf
  rw [alike.exit, alike.silent]
  cases second.exit with
  | none => exact .failure (.refl _ _ _)
  | some exit =>
      dsimp only
      split
      · exact .output alike.stdout
      · split
        · exact .failure (.refl _ _ _)
        · exact .failure ⟨rfl, alike.stderr⟩

namespace Yard

variable {yard : Yard} {stamp : Nat} {bare tree : Tree} {content : Node}

/-- A program is started at the place of the directory. -/
theorem Room.enter (room : yard.Room stamp bare tree content) (opens : yard.Opens bare)
    {platform : Platform} (directory : yard.directory = platform.directory) :
    platform.enter tree (yard.path stamp) = .ok (Tree.pathOf (yard.place stamp)) := by
  have plain := @endsInSlash_join yard.root _ (yard.plain_name stamp)
  have leads := room.leads opens.leads true
  have steps := @stepsOf_join_plain yard.directory yard.root _ (yard.plain_name stamp)
  have within := opens.within
  have located : tree.locate yard.directory (yard.path stamp) true =
      .ok (yard.place stamp, some content) := by
    refine locate_eq_ok_iff.mpr ⟨room.admissible, yard.cost + 1, ?_, ?_⟩
    · rw [path_eq, steps, List.length_append, List.length_singleton]
      omega
    · rw [path_eq, steps, Bool.true_or]
      exact leads
  obtain ⟨entries, rfl⟩ := room.exists_entries
  rw [Platform.enter, ← directory, lookup, located, path_eq]
  simp only [bind, Except.bind, plain, Bool.false_and, Bool.false_eq_true, if_false]

end Yard

namespace Twins

variable {twins : Twins} {treeOne treeOther : Tree} {content : Node}

theorem resolve (platform : Platform) (program : String)
    (same : platform.find? treeOne program = platform.find? treeOther program) :
    (platform.resolve treeOne program (twins.yard.path twins.one) = none ∧
      platform.resolve treeOther program (twins.yard.path twins.other) = none) ∨
    ∃ resolvedOne resolvedOther,
      platform.resolve treeOne program (twins.yard.path twins.one) = some resolvedOne ∧
      platform.resolve treeOther program (twins.yard.path twins.other) = some resolvedOther ∧
      Alike twins.one twins.other resolvedOne resolvedOther := by
  unfold Platform.resolve
  split
  · exact .inr ⟨_, _, rfl, rfl, ((twins.yard.alike_path _ _).join (.refl _ _ program)).absolute _⟩
  · rw [same]
    cases platform.find? treeOther program with
    | none => exact .inl ⟨rfl, rfl⟩
    | some path => exact .inr ⟨path, path, rfl, rfl, .refl _ _ path⟩

/-- A program is started in both directories, at their places. -/
theorem launch (level : twins.Level) {platform : Platform} {limit : Option Nat}
    (directory : twins.yard.directory = platform.directory)
    (rooms : twins.Rooms treeOne treeOther content) {resolvedOne resolvedOther : String}
    (alike : Alike twins.one twins.other resolvedOne resolvedOther) {arguments : List String}
    (starts : AlikeStarts limit twins.one twins.other treeOne treeOther
      (platform.start treeOne resolvedOne resolvedOne arguments
        (Tree.pathOf (twins.yard.place twins.one)))
      (platform.start treeOther resolvedOther resolvedOther arguments
        (Tree.pathOf (twins.yard.place twins.other)))) :
    AlikeStarts limit twins.one twins.other treeOne treeOther
      (platform.launch treeOne resolvedOne arguments (twins.yard.path twins.one))
      (platform.launch treeOther resolvedOther arguments (twins.yard.path twins.other)) := by
  have zero : (resolvedOne :: twins.yard.path twins.one :: arguments).any Platform.hasZero =
      (resolvedOther :: twins.yard.path twins.other :: arguments).any Platform.hasZero := by
    rw [List.any_cons, List.any_cons, List.any_cons, List.any_cons, alike.hasZero_eq,
      (twins.yard.alike_path twins.one twins.other).hasZero_eq]
  unfold Platform.launch
  rw [zero, rooms.first.enter level.first directory, rooms.second.enter level.second directory]
  cases (resolvedOther :: twins.yard.path twins.other :: arguments).any Platform.hasZero with
  | true => exact .refused .embeddedZero
  | false => exact starts

/-- **A command that sees nothing but its directory has alike outcomes in both.** -/
theorem execute (level : twins.Level) {platform : Platform} {limit : Option Nat} {base : Tree}
    {build : Build} (directory : twins.yard.directory = platform.directory)
    (contained : SelfContained platform twins.yard.root limit base build)
    (opens : base.place? platform.directory twins.yard.root = some twins.yard.home)
    {program : String} {arguments : List String} (command : build.command = program :: arguments)
    (rooms : twins.Rooms treeOne treeOther content) (grownOne : Grown twins.yard.home base treeOne)
    (grownOther : Grown twins.yard.home base treeOther) :
    AlikeOutcomes twins.one twins.other
      ((Runner.execute platform limit (twins.yard.path twins.one) program arguments).run.run
        treeOne).1
      ((Runner.execute platform limit (twins.yard.path twins.other) program arguments).run.run
        treeOther).1 := by
  obtain ⟨same, starts⟩ := contained program arguments twins.yard.home twins.yard.language
    twins.one twins.other treeOne treeOther content command opens level.equal grownOne grownOther
    rooms.first.stands rooms.second.stands
  rw [Runner.run_execute, Runner.run_execute]
  rcases twins.resolve platform program same with ⟨noneOne, noneOther⟩ |
    ⟨resolvedOne, resolvedOther, someOne, someOther, alike⟩
  · rw [noneOne, noneOther]
    exact .failure (.refl _ _ _)
  · have launched := launch level directory rooms alike
      (starts resolvedOne resolvedOther someOne someOther)
    rw [someOne, someOther]
    dsimp only
    generalize platform.launch treeOne resolvedOne arguments _ = first at launched ⊢
    generalize platform.launch treeOther resolvedOther arguments _ = second at launched ⊢
    cases launched with
    | refused reason =>
        exact .failure ⟨rfl, (Alike.refl _ _ "Workspace error: ").append
          ((((Alike.refl _ _ "Failed to spawn ").append alike).append (.refl _ _ ": ")).append
            (.refl _ _ reason.message))⟩
    | started alike => exact alikeOutcomes_outputOf limit alike

end Twins

/-! ## Two jobs in two courses of jobs -/

/-- The directory of the next job is new below a root that was made. -/
structure Yard.Fresh (yard : Yard) (stamp : Nat) (base bare tree : Tree) : Prop where
  rooted : tree.ensureDirectory yard.directory yard.root = (.ok (), bare)
  grown : Grown yard.home base bare
  new : base.get? (yard.place stamp) = none
  absent : bare.get? (yard.place stamp) = none

theorem Kept.fresh {start tree : Tree} {last stamp : Nat} {yard : Yard}
    (kept : Kept yard.directory yard.root start last tree)
    (made : (start.ensureDirectory yard.directory yard.root).1 = .ok ())
    (stands : (start.ensureDirectory yard.directory yard.root).2.place? yard.directory yard.root =
      some yard.home) (newer : last < stamp)
    (unused : Unused yard.directory yard.root
      (start.ensureDirectory yard.directory yard.root).2 stamp) :
    yard.Fresh stamp (start.ensureDirectory yard.directory yard.root).2
      (tree.ensureDirectory yard.directory yard.root).2 tree where
  rooted := Prod.ext (kept.answer.trans made) rfl
  grown := kept.grown made yard.home stands
  new := by
    have none := unused yard.language
    rwa [held, stands, Option.bind_some] at none
  absent := by
    have none := kept.vacant made stamp newer unused yard.language
    rwa [held, (kept.grown made yard.home stands).place?_eq stands, Option.bind_some] at none

/-- The root leads to the yard in every tree that has grown below it. -/
theorem Grown.opens {yard : Yard} {base tree : Tree} (grown : Grown yard.home base tree)
    (opens : yard.Opens base) : yard.Opens tree := by
  obtain ⟨entries, leads⟩ := opens.leads
  exact ⟨grown.leads leads, opens.within⟩

theorem Yard.Opens.place?_eq {yard : Yard} {base : Tree} (opens : yard.Opens base) :
    base.place? yard.directory yard.root = some yard.home := by
  obtain ⟨entries, leads⟩ := opens.leads
  exact place?_eq_some_iff.mpr ⟨entries, yard.cost, opens.within, leads⟩

namespace Runner

variable {platform : Platform} {build : Build} {program : String} {arguments : List String}

theorem fst_run (runner : Runner) (clock : Nat) (tree : Tree) (job : Job)
    (command : build.command = program :: arguments) :
    (run platform runner clock tree job build).1 =
      ((attempt platform runner (runner.pathFor clock job) job build program
        arguments).run.run tree).1 := by
  rw [run_of_command command]
  rcases (attempt platform runner (runner.pathFor clock job) job build program
    arguments).run.run tree with ⟨_ | _, _⟩
  · rfl
  · rfl

/-- Where the root cannot be made, the attempt ends there. -/
theorem fst_attempt_of_refused {runner : Runner} {clock : Nat} {tree : Tree} {reason : OsError}
    (refused : (tree.ensureDirectory platform.directory runner.root).1 = .error reason) (job : Job)
    (build : Build) (program : String) (arguments : List String) :
    ((attempt platform runner (runner.pathFor clock job) job build program
        arguments).run.run tree).1 =
      .error (.workspace
        ("Failed to create workspace root " ++ runner.root ++ ": " ++ reason.message)) := by
  have creation : (Workspace.create platform.directory runner.root
      (runner.pathFor clock job)).run.run tree = (.error (.workspace
        ("Failed to create workspace root " ++ runner.root ++ ": " ++ reason.message)),
        (tree.ensureDirectory platform.directory runner.root).2) := by
    rw [Workspace.create]
    refine Filing.run_bind_error ?_
    rw [Workspace.run_ensure]
    rcases ensured : tree.ensureDirectory platform.directory runner.root with ⟨answer, rooted⟩
    rw [ensured] at refused
    subst refused
    rfl
  rw [attempt_of_refused creation]

/-- Two attempts with the same texts have alike outcomes in two directories below one root. -/
theorem attempt_alike {twins : Twins} (equal : Stamp.EquallyLong twins.one twins.other)
    {base treeOne treeOther : Tree} {limit : Option Nat} {lastOne lastOther : Nat}
    (directory : twins.yard.directory = platform.directory) (opens : twins.yard.Opens base)
    (contained : SelfContained platform twins.yard.root limit base build)
    (entry : build.entryFile ≠ "") (library : build.libraryFile ≠ "")
    (command : build.command = program :: arguments) (job : Job)
    (first : twins.yard.Fresh twins.one base twins.bareOne treeOne)
    (second : twins.yard.Fresh twins.other base twins.bareOther treeOther) :
    AlikeOutcomes twins.one twins.other
      ((attempt platform ⟨twins.yard.root, limit, lastOne⟩ (twins.yard.path twins.one) job build
        program arguments).run.run treeOne).1
      ((attempt platform ⟨twins.yard.root, limit, lastOther⟩ (twins.yard.path twins.other) job build
        program arguments).run.run treeOther).1 := by
  have level : twins.Level := ⟨equal, first.grown.opens opens, second.grown.opens opens⟩
  have stands := opens.place?_eq
  rw [directory] at stands
  have filed := @Twins.prepare twins treeOne treeOther level platform
    ⟨twins.yard.root, limit, lastOne⟩ ⟨twins.yard.root, limit, lastOther⟩ directory rfl rfl build
    entry library job first.absent second.absent first.rooted second.rooted
  rw [attempt, attempt]
  generalize ranOne : (prepare platform ⟨twins.yard.root, limit, lastOne⟩
    (twins.yard.path twins.one) job build).run.run treeOne = preparedOne at filed
  generalize ranOther : (prepare platform ⟨twins.yard.root, limit, lastOther⟩
    (twins.yard.path twins.other) job build).run.run treeOther = preparedOther at filed
  cases filed with
  | failed afterOne afterOther alike =>
      rw [Filing.run_bind_error ranOne, Filing.run_bind_error ranOther]
      exact .failure alike
  | filed rooms =>
      rw [Filing.run_bind_ok ranOne, Filing.run_bind_ok ranOther]
      exact Twins.execute level directory contained stands command rooms
        (first.grown.entry first.new rooms.first.prepared.only)
        (second.grown.entry second.new rooms.second.prepared.only)

/-- **Two jobs with the same texts have alike outcomes**, whatever jobs came before them. -/
theorem run_alike {root : String} {limit : Option Nat} {start : Tree}
    (steady : Steady platform.directory root start)
    (contained : SelfContained platform root limit
      (start.ensureDirectory platform.directory root).2 build)
    (entry : build.entryFile ≠ "") (library : build.libraryFile ≠ "")
    (command : build.command = program :: arguments) (job : Job)
    {lastOne lastOther clockOne clockOther : Nat} {treeOne treeOther : Tree}
    (keptOne : Kept platform.directory root start lastOne treeOne)
    (keptOther : Kept platform.directory root start lastOther treeOther)
    (equal : Stamp.EquallyLong (Stamp.next lastOne clockOne) (Stamp.next lastOther clockOther))
    (unusedOne : Unused platform.directory root
      (start.ensureDirectory platform.directory root).2 (Stamp.next lastOne clockOne))
    (unusedOther : Unused platform.directory root
      (start.ensureDirectory platform.directory root).2 (Stamp.next lastOther clockOther)) :
    AlikeOutcomes (Stamp.next lastOne clockOne) (Stamp.next lastOther clockOther)
      (run platform ⟨root, limit, lastOne⟩ clockOne treeOne job build).1
      (run platform ⟨root, limit, lastOther⟩ clockOther treeOther job build).1 := by
  rw [fst_run _ _ _ _ command, fst_run _ _ _ _ command]
  cases made : (start.ensureDirectory platform.directory root).1 with
  | error reason =>
      have refusedOne := keptOne.answer.trans made
      have refusedOther := keptOther.answer.trans made
      rw [@fst_attempt_of_refused platform ⟨root, limit, lastOne⟩ clockOne treeOne reason refusedOne,
        @fst_attempt_of_refused platform ⟨root, limit, lastOther⟩ clockOther treeOther reason
          refusedOther]
      exact .failure (.refl _ _ _)
  | ok done =>
      obtain ⟨home, stands⟩ := Option.ne_none_iff_exists'.mp (steady.opens made)
      obtain ⟨entries, cost, within, leads⟩ := place?_eq_some_iff.mp stands
      let yard : Yard := ⟨platform.directory, root, job.language, home, cost⟩
      let twins : Twins := ⟨yard, Stamp.next lastOne clockOne, Stamp.next lastOther clockOther,
        (treeOne.ensureDirectory platform.directory root).2,
        (treeOther.ensureDirectory platform.directory root).2⟩
      have opens : yard.Opens (start.ensureDirectory platform.directory root).2 :=
        ⟨⟨entries, leads⟩, within⟩
      have freshOne := @Kept.fresh start treeOne lastOne _ yard keptOne made stands
        (Stamp.last_lt_next lastOne clockOne) unusedOne
      have freshOther := @Kept.fresh start treeOther lastOther _ yard keptOther made stands
        (Stamp.last_lt_next lastOther clockOther) unusedOther
      exact @attempt_alike platform build program arguments twins equal _ treeOne treeOther limit
        lastOne lastOther rfl opens contained entry library command job freshOne freshOther

end Runner

end Polyglot
