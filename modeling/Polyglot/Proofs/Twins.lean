import Polyglot.Proofs.Lifecycle
import Polyglot.Proofs.Likeness

/-!
# Two directories that hold the same

Two jobs of one language have directories whose names differ in the stamps only. While both
directories hold the same, a path into the one leads to what the corresponding path into the
other one leads to, whatever else stands in the two trees (`Twins.Paths`). So the directories
and files of a job are made in both in the same way, or they are refused in both for the same
reason (`Twins.Paths.makeDirectory`, `Twins.makeChain`, `Twins.Paths.write`).

Hence two jobs with the same texts are prepared alike: both directories hold the same
afterwards, or both failures are alike up to the stamps (`Twins.prepare`).
-/

set_option autoImplicit false

namespace Polyglot

open Polyglot.Host (Tree Node OsError Location Linkless linkless_emptyDirectory linkless_file)
open Polyglot.Host.Tree

/-! ## Paths that differ in a stamp -/

/-- Two paths that are equal but for equally long stamps are both taken, or both refused for
the same reason. -/
theorem Alike.locate_cases {one other : Nat} {first second : String}
    (alike : Alike one other first second) (equal : Stamp.EquallyLong one other)
    (directory : String) (throughLast : Bool) :
    (Admissible first ∧ Admissible second) ∨ ∃ reason, ∀ tree : Tree,
      tree.locate directory first throughLast = .error reason ∧
        tree.locate directory second throughLast = .error reason := by
  have noZero : (first.toList.any fun c => c.toNat == 0) = second.toList.any fun c => c.toNat == 0 :=
    alike.hasZero_eq
  by_cases admissible : Admissible first
  · exact .inl ⟨admissible, noZero ▸ admissible.noZero, alike.isEmpty_eq ▸ admissible.filled,
      alike.utf8ByteSize_eq equal ▸ admissible.short⟩
  · right
    unfold locate
    rw [noZero, alike.isEmpty_eq, alike.utf8ByteSize_eq equal]
    split
    · exact ⟨_, fun _ => ⟨rfl, rfl⟩⟩
    · rename_i zero
      split
      · exact ⟨_, fun _ => ⟨rfl, rfl⟩⟩
      · rename_i empty
        split
        · exact ⟨_, fun _ => ⟨rfl, rfl⟩⟩
        · rename_i long
          refine absurd ⟨?_, ?_, ?_⟩ admissible
          · rw [noZero]
            simpa using zero
          · rw [alike.isEmpty_eq]
            simpa using empty
          · rw [alike.utf8ByteSize_eq equal]
            exact Nat.lt_of_not_le long

/-! ## The directory of one job -/

/-- Where directories for the jobs of a language are made, and how the root leads there. -/
structure Yard where
  /-- The directory in which the service runs. -/
  directory : String
  /-- The path of the root. -/
  root : String
  /-- The language of the jobs. -/
  language : String
  /-- The place of the root. -/
  home : Location
  /-- The number of steps on the way to the root. -/
  cost : Nat

namespace Yard

/-- The name of the directory of a job. -/
def name (yard : Yard) (stamp : Nat) : String :=
  workspaceName yard.language stamp

/-- The path of the directory of a job. -/
def path (yard : Yard) (stamp : Nat) : String :=
  workspacePath yard.root yard.language stamp

/-- The place of the directory of a job. -/
def place (yard : Yard) (stamp : Nat) : Location :=
  yard.home ++ [yard.name stamp]

variable {yard : Yard} {one other stamp : Nat} {bare tree : Tree} {content : Node}

theorem path_eq (yard : Yard) (stamp : Nat) : yard.path stamp = Path.join yard.root (yard.name stamp) :=
  rfl

theorem plain_name (yard : Yard) (stamp : Nat) : IsPlain (yard.name stamp) :=
  isPlain_workspaceName yard.language stamp

theorem alike_name (yard : Yard) (one other : Nat) :
    Alike one other (yard.name one) (yard.name other) :=
  ((Alike.stamp one other).append (.refl one other "_")).append (.refl one other _)

theorem alike_path (yard : Yard) (one other : Nat) :
    Alike one other (yard.path one) (yard.path other) :=
  (Alike.refl one other yard.root).join (yard.alike_name one other)

/-- The root leads to its place at the cost that is known, which is not too much. -/
structure Opens (yard : Yard) (bare : Tree) : Prop where
  leads : ∃ entries, Leads bare true yard.cost [] (stepsOf yard.directory yard.root) yard.home
    (some (.directory entries))
  within : yard.cost ≤ (stepsOf yard.directory yard.root).length + 200

/-- The directory of a job was made where nothing stood, and by now it has some content. -/
structure Room (yard : Yard) (stamp : Nat) (bare tree : Tree) (content : Node) : Prop where
  admissible : Admissible (yard.path stamp)
  isName : IsName (yard.name stamp)
  absent : bare.get? (yard.place stamp) = none
  prepared : Prepared (yard.place stamp) bare tree
  stands : tree.get? (yard.place stamp) = some content

namespace Room

theorem exists_entries (room : yard.Room stamp bare tree content) :
    ∃ entries, content = .directory entries := by
  obtain ⟨entries, stands⟩ := room.prepared.stands
  exact ⟨entries, Option.some.inj (room.stands.symm.trans stands)⟩

/-- Steps to the root and then the name of the directory lead to it. -/
theorem leads (room : yard.Room stamp bare tree content) {steps : List String} {cost : Nat}
    (way : ∃ entries, Leads bare true cost [] steps yard.home (some (.directory entries)))
    (throughLast : Bool) :
    Leads tree throughLast (cost + 1) [] (steps ++ [yard.name stamp]) (yard.place stamp)
      (some content) := by
  obtain ⟨entries, way⟩ := way
  have kept := room.prepared.only.keeps room.absent
  obtain ⟨others, still⟩ := kept.directory way.get?_eq
  have front := way.keeps kept nofun
  rw [still] at front
  have held := Node.get?_concat still (yard.name stamp)
  obtain ⟨inner, rfl⟩ := room.exists_entries
  have last : Leads tree throughLast 1 yard.home [yard.name stamp] (yard.place stamp)
      (some (.directory inner)) := by
    rw [← room.stands, place, held]
    refine .of_name still room.isName (.inr fun target linked => ?_)
    rw [← held] at linked
    exact absurd (room.stands.symm.trans linked) nofun
  exact front.append last (List.cons_ne_nil _ _)

/-- Something new below the directory belongs to its content. -/
theorem put (room : yard.Room stamp bare tree content) {parent : Location}
    {entries : List (String × Node)} (stands : content.get? parent = some (.directory entries))
    (name : String) {new : Node} (clean : Linkless [] new) :
    yard.Room stamp bare (tree.put (yard.place stamp ++ (parent ++ [name])) new)
      (content.put (parent ++ [name]) new) where
  admissible := room.admissible
  isName := room.isName
  absent := room.absent
  prepared := by
    rw [← List.append_assoc]
    refine @Prepared.put _ _ _ _ name entries room.prepared ?_ ?_ ?_ new clean
    · rw [List.append_assoc]
      exact List.prefix_append _ _
    · rw [List.append_assoc]
      simp
    · rw [Node.get?_append, room.stands, Option.bind_some, stands]
  stands := Node.get?_put_append room.stands _ new

end Room

end Yard

/-! ## The directories of two jobs -/

/-- Two directories of jobs that were made in two trees, where nothing stood. -/
structure Twins where
  /-- Where both were made. -/
  yard : Yard
  /-- The stamp of the first job. -/
  one : Nat
  /-- The stamp of the second job. -/
  other : Nat
  /-- The tree in which the first directory was made. -/
  bareOne : Tree
  /-- The tree in which the second directory was made. -/
  bareOther : Tree

namespace Twins

variable {twins : Twins} {treeOne treeOther : Tree} {content : Node}

/-- The ways to both directories are equally long. -/
structure Level (twins : Twins) : Prop where
  equal : Stamp.EquallyLong twins.one twins.other
  first : twins.yard.Opens twins.bareOne
  second : twins.yard.Opens twins.bareOther

/-- Both directories hold the same. -/
structure Rooms (twins : Twins) (treeOne treeOther : Tree) (content : Node) : Prop where
  first : twins.yard.Room twins.one twins.bareOne treeOne content
  second : twins.yard.Room twins.other twins.bareOther treeOther content

/-- Two answers to where a path leads are the same, seen from the two directories. -/
inductive Located (twins : Twins) (content : Node) :
    Except OsError (Location × Option Node) → Except OsError (Location × Option Node) → Prop where
  | refused (reason : OsError) : Located twins content (.error reason) (.error reason)
  | missing {parent : Location} {name : String} {entries : List (String × Node)}
      (stands : content.get? parent = some (.directory entries)) :
      Located twins content (.ok (twins.yard.place twins.one ++ (parent ++ [name]), none))
        (.ok (twins.yard.place twins.other ++ (parent ++ [name]), none))
  | found {rest : Location} {node : Node} (stands : content.get? rest = some node) :
      Located twins content (.ok (twins.yard.place twins.one ++ rest, some node))
        (.ok (twins.yard.place twins.other ++ rest, some node))

/-- Two paths lead to the same in two directories while these hold the same. -/
structure Paths (twins : Twins) (first second : String) : Prop where
  alike : Alike twins.one twins.other first second
  located : ∀ (treeOne treeOther : Tree) (content : Node) (throughLast : Bool),
    twins.Rooms treeOne treeOther content →
    twins.Located content (treeOne.locate twins.yard.directory first throughLast)
      (treeOther.locate twins.yard.directory second throughLast)

/-- Two operations make the directories hold the same again, or are refused alike. -/
inductive Done (twins : Twins) : Except OsError Tree → Except OsError Tree → Prop where
  | refused (reason : OsError) : Done twins (.error reason) (.error reason)
  | done {treeOne treeOther : Tree} {content : Node}
      (rooms : twins.Rooms treeOne treeOther content) : Done twins (.ok treeOne) (.ok treeOther)

/-! ### Where paths lead -/

/-- Steps to the two directories, at the same cost. -/
structure Fronts (twins : Twins) (first second : List String) (cost : Nat) : Prop where
  equal : first.length = second.length
  within : cost ≤ first.length + 200
  leads : ∀ (treeOne treeOther : Tree) (content : Node) (throughLast : Bool),
    twins.Rooms treeOne treeOther content →
    Leads treeOne throughLast cost [] first (twins.yard.place twins.one) (some content) ∧
      Leads treeOther throughLast cost [] second (twins.yard.place twins.other) (some content)

theorem fronts_of_ways {steps : List String} {cost : Nat} (within : cost ≤ steps.length + 200)
    (first : ∃ entries, Leads twins.bareOne true cost [] steps twins.yard.home
      (some (.directory entries)))
    (second : ∃ entries, Leads twins.bareOther true cost [] steps twins.yard.home
      (some (.directory entries))) :
    twins.Fronts (steps ++ [twins.yard.name twins.one]) (steps ++ [twins.yard.name twins.other])
      (cost + 1) where
  equal := by simp
  within := by
    rw [List.length_append, List.length_singleton]
    omega
  leads _ _ _ throughLast rooms :=
    ⟨rooms.first.leads first throughLast, rooms.second.leads second throughLast⟩

/-- What steps lead to is missing in a directory, or it is there. -/
theorem exists_of_follow {throughLast : Bool} {bound : Nat} {steps : List String} {rest : Location}
    {node : Option Node} {entries : List (String × Node)}
    (followed : Tree.follow (.directory entries) throughLast bound [] steps = .ok (rest, node)) :
    (node = none ∧ ∃ parent name others, rest = parent ++ [name] ∧
      (Node.directory entries).get? parent = some (.directory others)) ∨
    ∃ stood, node = some stood ∧ (Node.directory entries).get? rest = some stood := by
  obtain ⟨cost, _, leads⟩ := follow_eq_ok_iff.mp followed
  cases node with
  | none => exact .inl ⟨rfl, leads.exists_parent (by simp)⟩
  | some stood => exact .inr ⟨stood, rfl, leads.get?_eq⟩

theorem paths_of_fronts (level : twins.Level) {first second : String}
    (alike : Alike twins.one twins.other first second) {one other rest : List String} {cost : Nat}
    (fronts : twins.Fronts one other cost)
    (stepsOne : stepsOf twins.yard.directory first = one ++ rest)
    (stepsOther : stepsOf twins.yard.directory second = other ++ rest) (down : ".." ∉ rest) :
    twins.Paths first second := by
  refine ⟨alike, fun treeOne treeOther content throughLast rooms => ?_⟩
  rcases alike.locate_cases level.equal twins.yard.directory throughLast with
    ⟨admissible, also⟩ | ⟨reason, refused⟩
  · have enough := Nat.le_trans fronts.within
      (Nat.add_le_add_right (Nat.le_add_right one.length rest.length) 200)
    rw [locate_of_admissible admissible, locate_of_admissible also, alike.endsInSlash_eq, stepsOne,
      stepsOther, List.length_append, List.length_append, ← fronts.equal]
    generalize (throughLast || Path.endsInSlash second) = through
    obtain ⟨leadsOne, leadsOther⟩ := fronts.leads treeOne treeOther content through rooms
    obtain ⟨frontOne, frontOther⟩ := fronts.leads treeOne treeOther content true rooms
    obtain ⟨more, enough⟩ := Nat.exists_eq_add_of_le enough
    rw [enough]
    by_cases ends : rest = []
    · subst ends
      rw [List.append_nil, List.append_nil, leadsOne.follow_eq (Nat.le_add_right cost more),
        leadsOther.follow_eq (Nat.le_add_right cost more)]
      have here := @Located.found twins content [] _ (Node.get?_nil content)
      rwa [List.append_nil, List.append_nil] at here
    · have inOne := @follow_inside _ _ _ through rooms.first.prepared.linkless
        rooms.first.stands more [] rest down
      have inOther := @follow_inside _ _ _ through rooms.second.prepared.linkless
        rooms.second.stands more [] rest down
      rw [List.append_nil] at inOne inOther
      rw [frontOne.follow_append ends, frontOther.follow_append ends, inOne, inOther]
      obtain ⟨entries, rfl⟩ := rooms.first.exists_entries
      rcases followed : Tree.follow (.directory entries) through more [] rest with
        reason | ⟨there, node⟩
      · exact .refused reason
      · rcases exists_of_follow followed with ⟨rfl, parent, name, others, rfl, stands⟩ |
          ⟨stood, rfl, stands⟩
        · exact .missing stands
        · exact .found stands
  · rw [(refused treeOne).1, (refused treeOther).2]
    exact .refused reason

/-! ### Making and writing -/

namespace Paths

variable {first second : String}

theorem makeDirectory (paths : twins.Paths first second)
    (rooms : twins.Rooms treeOne treeOther content) :
    twins.Done (treeOne.makeDirectory twins.yard.directory first)
      (treeOther.makeDirectory twins.yard.directory second) := by
  have located := paths.located treeOne treeOther content false rooms
  unfold Tree.makeDirectory
  generalize treeOne.locate twins.yard.directory first false = answer at located ⊢
  generalize treeOther.locate twins.yard.directory second false = answerOther at located ⊢
  cases located with
  | refused reason => exact .refused reason
  | missing stands =>
      exact .done ⟨rooms.first.put stands _ linkless_emptyDirectory,
        rooms.second.put stands _ linkless_emptyDirectory⟩
  | found stands => exact .refused .exists

theorem refused (paths : twins.Paths first second) (rooms : twins.Rooms treeOne treeOther content)
    {reason : OsError}
    (refused : treeOne.makeDirectory twins.yard.directory first = .error reason) :
    treeOther.makeDirectory twins.yard.directory second = .error reason := by
  have done := paths.makeDirectory rooms
  rw [refused] at done
  generalize treeOther.makeDirectory twins.yard.directory second = answer at done ⊢
  cases done
  rfl

theorem isDirectory_eq (paths : twins.Paths first second)
    (rooms : twins.Rooms treeOne treeOther content) :
    treeOne.isDirectory twins.yard.directory first =
      treeOther.isDirectory twins.yard.directory second := by
  have located := paths.located treeOne treeOther content true rooms
  unfold Tree.isDirectory Tree.lookup
  rw [paths.alike.endsInSlash_eq]
  generalize treeOne.locate twins.yard.directory first true = answer at located ⊢
  generalize treeOther.locate twins.yard.directory second true = answerOther at located ⊢
  cases located with
  | refused reason => rfl
  | missing stands => rfl
  | @found rest node stands =>
      simp only [bind, Except.bind]
      cases Path.endsInSlash second && !node.isDirectory with
      | true => rfl
      | false => rfl

theorem settle_eq (paths : twins.Paths first second)
    (rooms : twins.Rooms treeOne treeOther content) (reason : OsError) :
    makeChain.settle twins.yard.directory treeOne first reason =
      makeChain.settle twins.yard.directory treeOther second reason := by
  rw [makeChain.settle, makeChain.settle, paths.isDirectory_eq rooms]

theorem write (paths : twins.Paths first second) (rooms : twins.Rooms treeOne treeOther content)
    (contents : Text.Bytes) :
    twins.Done (treeOne.write twins.yard.directory first contents false)
      (treeOther.write twins.yard.directory second contents false) := by
  have located := paths.located treeOne treeOther content true rooms
  unfold Tree.write
  rw [paths.alike.endsInSlash_eq]
  generalize treeOne.locate twins.yard.directory first true = answer at located ⊢
  generalize treeOther.locate twins.yard.directory second true = answerOther at located ⊢
  cases located with
  | refused reason => exact .refused reason
  | missing stands =>
      simp only [bind, Except.bind]
      split
      · exact .refused .isDirectory
      · exact .done ⟨rooms.first.put stands _ (linkless_file _ _),
          rooms.second.put stands _ (linkless_file _ _)⟩
  | @found rest node stands =>
      simp only [bind, Except.bind]
      split
      · exact .refused .notDirectory
      · cases node with
        | directory entries => exact .refused .isDirectory
        | program name => exact .refused .accessDenied
        | device zeros => exact .done rooms
        | link target => exact .done rooms
        | file old executable =>
            obtain ⟨entries, rfl⟩ := rooms.first.exists_entries
            have deeper : rest ≠ [] := by
              rintro rfl
              cases stands
            obtain ⟨parent, name, others, rfl, above⟩ :=
              Prepared.exists_parent List.nil_prefix deeper stands
            exact .done ⟨rooms.first.put above _ (linkless_file _ _),
              rooms.second.put above _ (linkless_file _ _)⟩

end Paths

/-! ### The paths of a job -/

/-- Both directories are reached by their paths. -/
theorem fronts_path (level : twins.Level) :
    twins.Fronts (stepsOf twins.yard.directory (twins.yard.path twins.one))
      (stepsOf twins.yard.directory (twins.yard.path twins.other)) (twins.yard.cost + 1) := by
  rw [Yard.path_eq, Yard.path_eq, stepsOf_join_plain (twins.yard.plain_name _),
    stepsOf_join_plain (twins.yard.plain_name _)]
  exact fronts_of_ways level.first.within level.first.leads level.second.leads

/-- The path of a file of both jobs. -/
theorem paths_file (level : twins.Level) {file : String} (inside : Path.isInside file = true) :
    twins.Paths (Path.join (twins.yard.path twins.one) file)
      (Path.join (twins.yard.path twins.other) file) := by
  obtain ⟨relative, down⟩ := relative_of_isInside inside
  exact paths_of_fronts level ((twins.yard.alike_path _ _).join (.refl _ _ file))
    (fronts_path level) (stepsOf_join relative) (stepsOf_join relative) down

end Twins

namespace Yard

/-- The steps to the root, without single points. -/
def thinSteps (yard : Yard) : List String :=
  originOf yard.directory yard.root ++ Path.names (Path.components yard.root)

variable {yard : Yard} {bare : Tree}

/-- The thinner steps to the root cost less by as much as they are fewer. -/
theorem Opens.thin (opens : yard.Opens bare) :
    ∃ cost, cost + (stepsOf yard.directory yard.root).length = yard.cost + yard.thinSteps.length ∧
      ∃ entries, Leads bare true cost [] yard.thinSteps yard.home (some (.directory entries)) := by
  obtain ⟨entries, leads⟩ := opens.leads
  obtain ⟨cost, saved, thinner⟩ := leads.thin (thins_stepsOf yard.directory yard.root)
  exact ⟨cost, saved, entries, thinner⟩

theorem isAbsolute_path (yard : Yard) (stamp : Nat) :
    Path.isAbsolute (yard.path stamp) = Path.isAbsolute yard.root := by
  have relative := Path.isAbsolute_of_plain (yard.plain_name stamp).noSlash
  by_cases filled : yard.root = ""
  · rw [path_eq, filled, Path.join, relative]
    exact relative
  · rw [path_eq, Path.isAbsolute_join filled, relative, Bool.false_or]

/-- The directory of a job is the last component of its path. -/
theorem components_path (yard : Yard) (stamp : Nat) :
    Path.components (yard.path stamp) =
      Path.components yard.root ++ [.normal (yard.name stamp)] := by
  have plain := yard.plain_name stamp
  have relative := Path.isAbsolute_of_plain plain.noSlash
  have pieces := Path.pieces_of_plain plain.noSlash plain.filled
  have single : Path.inner [yard.name stamp] = [.normal (yard.name stamp)] := by
    simp [Path.inner, plain.current, Path.componentOf, plain.parent]
  by_cases filled : yard.root = ""
  · rw [path_eq, filled, Path.join, relative]
    have alone : Path.components (yard.name stamp) = Path.inner (Path.pieces (yard.name stamp)) := by
      refine Path.components_of_relative relative fun rest shape => ?_
      rw [pieces] at shape
      exact plain.current (List.cons.inj shape).1
    have none : Path.components "" = [] := rfl
    rw [none, List.nil_append, ← single, ← pieces]
    exact alone
  · rw [path_eq, Path.components_join filled relative, pieces, single]

theorem thinSteps_path (yard : Yard) (stamp : Nat) :
    originOf yard.directory (yard.path stamp) ++ Path.names (Path.components (yard.path stamp)) =
      yard.thinSteps ++ [yard.name stamp] := by
  have origin : originOf yard.directory (yard.path stamp) = originOf yard.directory yard.root := by
    rw [originOf, originOf, isAbsolute_path]
  rw [origin, components_path, Path.names_append, ← List.append_assoc]
  rfl

theorem path_ne_empty (yard : Yard) (stamp : Nat) : yard.path stamp ≠ "" := by
  intro none
  have shape := yard.components_path stamp
  rw [none, Path.components_empty] at shape
  exact absurd shape.symm (by simp)

/-- The components of a directory above a file are the first ones of the file. -/
theorem prefix_components_join (yard : Yard) (stamp : Nat) {file : String}
    (relative : Path.isAbsolute file = false) {deeper : List Path.Component}
    (begins : deeper <+: Path.inner (Path.pieces file)) :
    Path.components (yard.path stamp) ++ deeper <+:
      Path.components (Path.join (yard.path stamp) file) := by
  rw [Path.components_join (yard.path_ne_empty stamp) relative]
  exact (List.prefix_append_right_inj _).mpr begins

/-- The steps to a directory above a file lead through the directory of the job. -/
theorem stepsOf_ancestor (yard : Yard) (stamp : Nat) {file : String}
    (relative : Path.isAbsolute file = false) {deeper : List Path.Component}
    (begins : deeper <+: Path.inner (Path.pieces file)) :
    stepsOf yard.directory (Path.ofComponents (Path.components (yard.path stamp) ++ deeper)) =
      (yard.thinSteps ++ [yard.name stamp]) ++ Path.names deeper := by
  have nonempty : Path.components (yard.path stamp) ++ deeper ≠ [] := by
    simp [components_path]
  have origin : originOf yard.directory (Path.join (yard.path stamp) file) =
      originOf yard.directory (yard.path stamp) := by
    rw [originOf, originOf, Path.isAbsolute_join (yard.path_ne_empty stamp), relative,
      Bool.false_or]
  rw [stepsOf_ofComponents (yard.prefix_components_join stamp relative begins) nonempty, origin,
    Path.names_append, ← List.append_assoc, thinSteps_path]

/-- The directory of a job is sought from the root on. -/
theorem Opens.locate_path (opens : yard.Opens bare) {stamp : Nat}
    (admissible : Admissible (yard.path stamp)) :
    bare.locate yard.directory (yard.path stamp) false =
      bare.follow false ((stepsOf yard.directory yard.root).length + 200 - yard.cost + 1) yard.home
        [yard.name stamp] := by
  obtain ⟨entries, leads⟩ := opens.leads
  have within := opens.within
  have bound : (stepsOf yard.directory yard.root).length + 1 + 200 =
      yard.cost + ((stepsOf yard.directory yard.root).length + 200 - yard.cost + 1) := by
    omega
  rw [locate_of_admissible admissible, path_eq, endsInSlash_join (yard.plain_name _),
    stepsOf_join_plain (yard.plain_name _), List.length_append, List.length_singleton, bound]
  exact leads.follow_append (List.cons_ne_nil _ _)

end Yard

namespace Twins

variable {twins : Twins} {treeOne treeOther : Tree} {content : Node}

theorem exists_fronts (level : twins.Level) : ∃ cost,
    twins.Fronts (twins.yard.thinSteps ++ [twins.yard.name twins.one])
      (twins.yard.thinSteps ++ [twins.yard.name twins.other]) cost := by
  obtain ⟨cost, saved, first⟩ := level.first.thin
  obtain ⟨less, also, second⟩ := level.second.thin
  obtain rfl : less = cost := by omega
  have within := level.first.within
  exact ⟨_, fronts_of_ways (by omega) first second⟩

/-- A path of components that begin those of a file, and not before those of the directory. -/
theorem paths_ancestor (level : twins.Level) {file : String} (inside : Path.isInside file = true)
    {deeper : List Path.Component} (begins : deeper <+: Path.inner (Path.pieces file)) :
    twins.Paths
      (Path.ofComponents (Path.components (twins.yard.path twins.one) ++ deeper))
      (Path.ofComponents (Path.components (twins.yard.path twins.other) ++ deeper)) := by
  obtain ⟨relative, down⟩ := relative_of_isInside inside
  obtain ⟨cost, fronts⟩ := exists_fronts level
  have front := fun stamp => twins.yard.prefix_components_join stamp relative begins
  have steps := fun stamp => twins.yard.stepsOf_ancestor stamp relative begins
  refine paths_of_fronts level ?_ fronts (steps _) (steps _) ?_
  · have alike := ((twins.yard.alike_path twins.one twins.other).join (.refl _ _ file)).ancestor
      (Path.components (twins.yard.path twins.one) ++ deeper).length
    have same : (Path.components (twins.yard.path twins.one) ++ deeper).length =
        (Path.components (twins.yard.path twins.other) ++ deeper).length := by
      simp [Yard.components_path]
    rw [List.prefix_iff_eq_take.mp (front twins.one), List.prefix_iff_eq_take.mp (front twins.other),
      ← same]
    exact alike
  · intro up
    have among := (begins.filter _).map Path.Component.text |>.subset up
    have shape := Path.names_inner (Path.pieces file)
    rw [Path.names] at shape
    rw [shape] at among
    exact down (List.mem_filter.mp among).1

/-! ### The missing directories above a file -/

/-- The path of the directories themselves, with whose ancestors all chains end. -/
theorem makeDirectory_place (level : twins.Level) {file : String}
    (inside : Path.isInside file = true) (rooms : twins.Rooms treeOne treeOther content) :
    ∃ reason, reason ≠ .notFound ∧
      treeOne.makeDirectory twins.yard.directory
        (Path.ofComponents (Path.components (twins.yard.path twins.one))) = .error reason ∧
      treeOther.makeDirectory twins.yard.directory
        (Path.ofComponents (Path.components (twins.yard.path twins.other))) = .error reason := by
  have paths := paths_ancestor level inside List.nil_prefix
  rw [List.append_nil, List.append_nil] at paths
  obtain ⟨cost, fronts⟩ := exists_fronts level
  obtain ⟨leads, _⟩ := fronts.leads treeOne treeOther content true rooms
  obtain ⟨entries, rfl⟩ := rooms.first.exists_entries
  have filled : Path.components (twins.yard.path twins.one) ≠ [] := by
    simp [Yard.components_path]
  have steps : stepsOf twins.yard.directory
      (Path.ofComponents (Path.components (twins.yard.path twins.one))) =
      twins.yard.thinSteps ++ [twins.yard.name twins.one] := by
    rw [stepsOf_ofComponents List.prefix_rfl filled, Yard.thinSteps_path]
  have stands : treeOne.place? twins.yard.directory
      (Path.ofComponents (Path.components (twins.yard.path twins.one))) =
      some (twins.yard.place twins.one) := by
    rw [place?_eq_some_iff, steps]
    exact ⟨entries, cost, fronts.within, leads⟩
  obtain ⟨reason, other, refused⟩ := makeDirectory_of_place stands
    (Path.ofComponents_ne_empty (Path.proper_components _) filled)
  exact ⟨reason, other, refused, paths.refused rooms refused⟩

/-- The missing directories of both chains are made in the same way. -/
theorem makeChain {firsts seconds aboveOne aboveOther : List String} {first second : String}
    (each : List.Forall₂ twins.Paths firsts seconds) (base : twins.Paths first second)
    (stays : ∀ treeOne treeOther content, twins.Rooms treeOne treeOther content → ∃ reason,
      reason ≠ .notFound ∧ treeOne.makeDirectory twins.yard.directory first = .error reason ∧
      treeOther.makeDirectory twins.yard.directory second = .error reason)
    (rooms : twins.Rooms treeOne treeOther content) :
    ∃ answer afterOne afterOther later,
      treeOne.makeChain twins.yard.directory (firsts ++ first :: aboveOne) = (answer, afterOne) ∧
      treeOther.makeChain twins.yard.directory (seconds ++ second :: aboveOther) =
        (answer, afterOther) ∧ twins.Rooms afterOne afterOther later := by
  induction each with
  | nil =>
      obtain ⟨reason, other, refusedOne, refusedOther⟩ := stays treeOne treeOther content rooms
      refine ⟨_, treeOne, treeOther, content, makeChain_of_refused refusedOne other, ?_, rooms⟩
      rw [List.nil_append, makeChain_of_refused refusedOther other, base.settle_eq rooms]
  | @cons path twin firsts seconds paths rest ih =>
      have done := paths.makeDirectory rooms
      generalize madeOne : treeOne.makeDirectory twins.yard.directory path = answer at done
      generalize madeOther : treeOther.makeDirectory twins.yard.directory twin = another at done
      rw [List.cons_append, List.cons_append]
      cases done with
      | done others =>
          exact ⟨_, _, _, _, makeChain_of_made madeOne, makeChain_of_made madeOther, others⟩
      | refused reason =>
          by_cases missing : reason = .notFound
          · subst missing
            obtain ⟨answer, middleOne, middleOther, between, chainOne, chainOther, middle⟩ := ih
            rw [makeChain_of_missing madeOne, makeChain_of_missing madeOther, chainOne, chainOther]
            cases answer with
            | error reason => exact ⟨_, _, _, between, rfl, rfl, middle⟩
            | ok made =>
                have again := paths.makeDirectory middle
                dsimp only
                generalize middleOne.makeDirectory twins.yard.directory path = answer at again ⊢
                generalize middleOther.makeDirectory twins.yard.directory twin = another at again ⊢
                cases again with
                | done others => exact ⟨_, _, _, _, rfl, rfl, others⟩
                | refused reason =>
                    refine ⟨_, _, _, between, rfl, ?_, middle⟩
                    dsimp only
                    rw [paths.settle_eq middle]
          · refine ⟨_, treeOne, treeOther, content, makeChain_of_refused madeOne missing, ?_, rooms⟩
            rw [makeChain_of_refused madeOther missing, paths.settle_eq rooms]

/-- The ancestors of a file below its directory come before the directory. -/
theorem exists_ancestors (level : twins.Level) {file : String} (inside : Path.isInside file = true)
    {deeper : List Path.Component} (begins : deeper <+: Path.inner (Path.pieces file)) :
    ∃ firsts seconds, List.Forall₂ twins.Paths firsts seconds ∧
      ancestry.go (Path.components (twins.yard.path twins.one) ++ deeper).reverse =
        firsts ++ ancestry.go (Path.components (twins.yard.path twins.one)).reverse ∧
      ancestry.go (Path.components (twins.yard.path twins.other) ++ deeper).reverse =
        seconds ++ ancestry.go (Path.components (twins.yard.path twins.other)).reverse := by
  induction deeper using List.reverseRecOn with
  | nil => exact ⟨[], [], .nil, by rw [List.append_nil, List.nil_append],
      by rw [List.append_nil, List.nil_append]⟩
  | append_singleton deeper last ih =>
      obtain ⟨firsts, seconds, each, chainOne, chainOther⟩ :=
        ih ((List.prefix_append _ _).trans begins)
      have longest : ∀ comps : List Path.Component, ancestry.go (comps ++ (deeper ++ [last])).reverse =
          Path.ofComponents (comps ++ (deeper ++ [last])) ::
            ancestry.go (comps ++ deeper).reverse := by
        intro comps
        rw [← List.append_assoc, List.reverse_append, List.reverse_singleton,
          List.singleton_append, Path.ancestry_go_cons, List.reverse_reverse]
      refine ⟨_, _, .cons (paths_ancestor level inside begins) each, ?_, ?_⟩
      · rw [longest, chainOne, List.cons_append]
      · rw [longest, chainOther, List.cons_append]

/-- The directories above a file are made in the same way for both jobs. -/
theorem ensureParent (level : twins.Level) {file : String} (inside : Path.isInside file = true)
    (named : file ≠ "") (rooms : twins.Rooms treeOne treeOther content) :
    ∃ answer afterOne afterOther later,
      treeOne.ensureDirectory twins.yard.directory
        (Workspace.parentOf (Path.join (twins.yard.path twins.one) file)) = (answer, afterOne) ∧
      treeOther.ensureDirectory twins.yard.directory
        (Workspace.parentOf (Path.join (twins.yard.path twins.other) file)) =
          (answer, afterOther) ∧ twins.Rooms afterOne afterOther later := by
  obtain ⟨relative, _⟩ := relative_of_isInside inside
  have chain : ∀ (tree : Tree) (stamp : Nat), tree.ensureDirectory twins.yard.directory
      (Workspace.parentOf (Path.join (twins.yard.path stamp) file)) =
      tree.makeChain twins.yard.directory (ancestry.go (Path.components (twins.yard.path stamp) ++
        (Path.inner (Path.pieces file)).dropLast).reverse) := by
    intro tree stamp
    have shape : (Path.components (Path.join (twins.yard.path stamp) file)).dropLast =
        Path.components (twins.yard.path stamp) ++ (Path.inner (Path.pieces file)).dropLast := by
      rw [Path.components_join (twins.yard.path_ne_empty stamp) relative,
        List.dropLast_append_of_ne_nil (Path.inner_pieces_ne_nil inside named)]
    have proper : Path.Proper (Path.components (twins.yard.path stamp) ++
        (Path.inner (Path.pieces file)).dropLast) :=
      shape ▸ (Path.proper_components _).of_begins (List.dropLast_prefix _)
    have nonempty : Path.components (twins.yard.path stamp) ++
        (Path.inner (Path.pieces file)).dropLast ≠ [] := by
      simp [Yard.components_path]
    rw [Path.parentOf_eq, shape, ensureDirectory,
      if_neg (by simpa using Path.ofComponents_ne_empty proper nonempty),
      cons_ancestors proper nonempty]
  obtain ⟨firsts, seconds, each, chainOne, chainOther⟩ :=
    exists_ancestors level inside (List.dropLast_prefix (Path.inner (Path.pieces file)))
  have last : ∀ stamp, ancestry.go (Path.components (twins.yard.path stamp)).reverse =
      Path.ofComponents (Path.components (twins.yard.path stamp)) ::
        ancestry.go (Path.components twins.yard.root).reverse := by
    intro stamp
    rw [Yard.components_path, List.reverse_append, List.reverse_singleton, List.singleton_append,
      Path.ancestry_go_cons, List.reverse_reverse]
  have base := paths_ancestor level inside List.nil_prefix
  rw [List.append_nil, List.append_nil] at base
  rw [chain, chain, chainOne, chainOther, last, last]
  exact makeChain each base (fun _ _ _ => makeDirectory_place level inside) rooms

/-! ### Preparing both directories -/

/-- Two operations make the directories hold the same again, or fail alike. -/
inductive Filed (twins : Twins) : Except Failure Unit × Tree → Except Failure Unit × Tree → Prop where
  | failed {first second : Failure} (treeOne treeOther : Tree)
      (alike : first.Alike twins.one twins.other second) :
      Filed twins (.error first, treeOne) (.error second, treeOther)
  | filed {treeOne treeOther : Tree} {content : Node}
      (rooms : twins.Rooms treeOne treeOther content) :
      Filed twins (.ok (), treeOne) (.ok (), treeOther)

/-- A file is written for both jobs, or for none of them. -/
theorem writeFile (level : twins.Level) {file : String} (named : file ≠ "") (contents : String)
    (rooms : twins.Rooms treeOne treeOther content) :
    twins.Filed
      ((Workspace.writeFile twins.yard.directory (twins.yard.path twins.one) file
        contents).run.run treeOne)
      ((Workspace.writeFile twins.yard.directory (twins.yard.path twins.other) file
        contents).run.run treeOther) := by
  rw [Workspace.run_writeFile, Workspace.run_writeFile]
  by_cases inside : Path.isInside file = true
  · rw [if_pos inside, if_pos inside]
    obtain ⟨answer, afterOne, afterOther, later, madeOne, madeOther, after⟩ :=
      ensureParent level inside named rooms
    rw [madeOne, madeOther]
    cases answer with
    | error reason => exact .failed _ _ (.refl _ _ _)
    | ok made =>
        have paths := paths_file level inside
        have done := paths.write after (Text.utf8 contents)
        dsimp only
        generalize afterOne.write twins.yard.directory _ (Text.utf8 contents) false = one at done ⊢
        generalize afterOther.write twins.yard.directory _ (Text.utf8 contents) false = other
          at done ⊢
        cases done with
        | done written => exact .filed written
        | refused reason =>
            have told := (((Alike.refl _ _ "Failed to write ").append paths.alike).append
              (.refl _ _ ": ")).append (.refl _ _ reason.message)
            exact .failed _ _ (.workspace told)
  · rw [if_neg inside, if_neg inside]
    exact .failed _ _ (.refl _ _ _)

/-- Both directories are made where nothing stood, or none of them is. -/
theorem makeDirectory_path (level : twins.Level)
    (absentOne : twins.bareOne.get? (twins.yard.place twins.one) = none)
    (absentOther : twins.bareOther.get? (twins.yard.place twins.other) = none) :
    twins.Done (twins.bareOne.makeDirectory twins.yard.directory (twins.yard.path twins.one))
      (twins.bareOther.makeDirectory twins.yard.directory (twins.yard.path twins.other)) := by
  unfold Tree.makeDirectory
  rcases (twins.yard.alike_path twins.one twins.other).locate_cases level.equal
    twins.yard.directory false with ⟨admissible, also⟩ | ⟨reason, refused⟩
  · obtain ⟨entries, leads⟩ := level.first.leads
    obtain ⟨others, reaches⟩ := level.second.leads
    have plainOne := twins.yard.plain_name twins.one
    have plainOther := twins.yard.plain_name twins.other
    have size := (twins.yard.alike_name twins.one twins.other).utf8ByteSize_eq level.equal
    rw [level.first.locate_path admissible, level.second.locate_path also]
    by_cases long : nameLimit < (twins.yard.name twins.one).utf8ByteSize
    · rw [follow_long leads.get?_eq plainOne.current plainOne.parent long,
        follow_long reaches.get?_eq plainOther.current plainOther.parent (size ▸ long)]
      exact .refused .nameTooLong
    · have isName : IsName (twins.yard.name twins.one) :=
        ⟨plainOne.current, plainOne.parent, Nat.le_of_not_lt long⟩
      have alsoName : IsName (twins.yard.name twins.other) :=
        ⟨plainOther.current, plainOther.parent, size ▸ Nat.le_of_not_lt long⟩
      have missingOne := absentOne
      have missingOther := absentOther
      rw [Yard.place, Node.get?_concat leads.get?_eq] at missingOne
      rw [Yard.place, Node.get?_concat reaches.get?_eq] at missingOther
      rw [follow_name leads.get?_eq isName, follow_name reaches.get?_eq alsoName, missingOne,
        missingOther]
      exact .done ⟨⟨admissible, isName, absentOne, prepared_put_emptyDirectory leads.get?_eq,
        (Node.put_spec leads.get?_eq _ _).2⟩, also, alsoName, absentOther,
        prepared_put_emptyDirectory reaches.get?_eq, (Node.put_spec reaches.get?_eq _ _).2⟩
  · rw [(refused _).1, (refused _).2]
    exact .refused reason

theorem Filed.bind {first second : Filing Unit} {next then' : Unit → Filing Unit}
    (filed : twins.Filed (first.run.run treeOne) (second.run.run treeOther))
    (rest : ∀ {treeOne treeOther : Tree} {content : Node}, twins.Rooms treeOne treeOther content →
      twins.Filed ((next ()).run.run treeOne) ((then' ()).run.run treeOther)) :
    twins.Filed ((first >>= next).run.run treeOne) ((second >>= then').run.run treeOther) := by
  generalize ranOne : first.run.run treeOne = one at filed
  generalize ranOther : second.run.run treeOther = other at filed
  cases filed with
  | failed afterOne afterOther alike =>
      rw [Filing.run_bind_error ranOne, Filing.run_bind_error ranOther]
      exact .failed afterOne afterOther alike
  | filed rooms =>
      rw [Filing.run_bind_ok ranOne, Filing.run_bind_ok ranOther]
      exact rest rooms

/-- The directories of both jobs are made once the root is made, or both are refused. -/
theorem create (level : twins.Level)
    (absentOne : twins.bareOne.get? (twins.yard.place twins.one) = none)
    (absentOther : twins.bareOther.get? (twins.yard.place twins.other) = none)
    (rootedOne : treeOne.ensureDirectory twins.yard.directory twins.yard.root =
      (.ok (), twins.bareOne))
    (rootedOther : treeOther.ensureDirectory twins.yard.directory twins.yard.root =
      (.ok (), twins.bareOther)) :
    twins.Filed
      ((Workspace.create twins.yard.directory twins.yard.root
        (twins.yard.path twins.one)).run.run treeOne)
      ((Workspace.create twins.yard.directory twins.yard.root
        (twins.yard.path twins.other)).run.run treeOther) := by
  have done := makeDirectory_path level absentOne absentOther
  have path := twins.yard.alike_path twins.one twins.other
  rw [Workspace.create, Workspace.create,
    Filing.run_bind_ok (by rw [Workspace.run_ensure, rootedOne]),
    Filing.run_bind_ok (by rw [Workspace.run_ensure, rootedOther]), Workspace.run_apply,
    Workspace.run_apply]
  generalize twins.bareOne.makeDirectory _ _ = one at done ⊢
  generalize twins.bareOther.makeDirectory _ _ = other at done ⊢
  cases done with
  | done rooms => exact .filed rooms
  | refused reason =>
      refine .failed _ _ ?_
      by_cases exists' : reason = .exists
      · rw [if_pos exists', if_pos exists']
        exact .workspace ((Alike.refl _ _ "Workspace already exists: ").append path)
      · rw [if_neg exists', if_neg exists']
        have told := (((Alike.refl _ _ "Failed to create workspace ").append path).append
          (.refl _ _ ": ")).append (.refl _ _ reason.message)
        exact .workspace told

/-- **Two jobs with the same texts are prepared alike.** -/
theorem prepare (level : twins.Level) {platform : Host.Platform} {runnerOne runnerOther : Runner}
    (directory : twins.yard.directory = platform.directory)
    (rootOne : twins.yard.root = runnerOne.root) (rootOther : twins.yard.root = runnerOther.root)
    {build : Build} (entry : build.entryFile ≠ "") (library : build.libraryFile ≠ "") (job : Job)
    (absentOne : twins.bareOne.get? (twins.yard.place twins.one) = none)
    (absentOther : twins.bareOther.get? (twins.yard.place twins.other) = none)
    (rootedOne : treeOne.ensureDirectory twins.yard.directory twins.yard.root =
      (.ok (), twins.bareOne))
    (rootedOther : treeOther.ensureDirectory twins.yard.directory twins.yard.root =
      (.ok (), twins.bareOther)) :
    twins.Filed
      ((Runner.prepare platform runnerOne (twins.yard.path twins.one) job build).run.run treeOne)
      ((Runner.prepare platform runnerOther (twins.yard.path twins.other) job build).run.run
        treeOther) := by
  rw [Runner.prepare, Runner.prepare, ← directory, ← rootOne, ← rootOther]
  exact (create level absentOne absentOther rootedOne rootedOther).bind fun rooms =>
    (writeFile level entry job.code rooms).bind fun rooms =>
      writeFile level library job.library rooms

end Twins

end Polyglot
