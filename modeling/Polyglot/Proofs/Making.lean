import Polyglot.Host.Platform
import Polyglot.Proofs.Following

/-!
# Making directories and files

A path leads where its steps lead from the root of the tree (`locate_eq_ok_iff`). A
directory is made where nothing stood, and then stands there (`makeDirectory_eq_ok`). A file
is written where nothing or a file stands (`write_eq_ok`).

The missing directories of a path are made one after the other, from the outermost to the
innermost. None is made when the path leads to a directory already
(`makeChain_of_place`). When it did not, and the path does not go upwards, the directory
that it leads to afterwards is empty (`vacant_makeChain`).
-/

set_option autoImplicit false

namespace Polyglot.Host.Tree

variable {tree after : Tree} {directory path : String} {throughLast : Bool}
variable {there place : Location} {node : Option Node}

/-! ## Where paths lead -/

/-- The steps of a path that is taken relative to a directory. -/
def stepsOf (directory path : String) : List String :=
  Path.pieces (Path.join directory path)

/-- Steps lead from the root to some place, through no more links than are followed. -/
def Arrives (tree : Tree) (throughLast : Bool) (steps : List String) (there : Location)
    (node : Option Node) : Prop :=
  ∃ cost ≤ steps.length + 200, Leads tree throughLast cost [] steps there node

/-- The place of the directory that a path leads to, if it leads to one. -/
def place? (tree : Tree) (directory path : String) : Option Location :=
  match tree.follow true ((stepsOf directory path).length + 200) [] (stepsOf directory path) with
  | .ok (place, some (.directory _)) => some place
  | _ => none

theorem place?_eq_some_iff :
    tree.place? directory path = some place ↔
      ∃ entries, tree.Arrives true (stepsOf directory path) place (some (.directory entries)) := by
  constructor
  · intro found
    unfold place? at found
    split at found
    · rename_i entries followed
      cases found
      exact ⟨entries, follow_eq_ok_iff.mp followed⟩
    · cases found
  · rintro ⟨entries, arrives⟩
    rw [place?, follow_eq_ok_iff.mpr arrives]

/-- Where a path leads to a directory it leads as long as what stands is kept. -/
theorem place?_of_keeps (kept : Keeps tree after)
    (stands : tree.place? directory path = some place) :
    after.place? directory path = some place := by
  obtain ⟨held, cost, within, leads⟩ := place?_eq_some_iff.mp stands
  obtain ⟨others, still⟩ := kept.directory leads.get?_eq
  refine place?_eq_some_iff.mpr ⟨others, cost, within, ?_⟩
  rw [← still]
  exact leads.keeps kept nofun

/-- A path that the operating system takes. -/
structure Admissible (path : String) : Prop where
  noZero : (path.toList.any fun c => c.toNat == 0) = false
  filled : path.isEmpty = false
  short : path.utf8ByteSize < pathLimit

theorem locate_of_admissible (admissible : Admissible path) :
    tree.locate directory path throughLast =
      tree.follow (throughLast || Path.endsInSlash path)
        ((stepsOf directory path).length + 200) [] (stepsOf directory path) := by
  rw [locate, if_neg (by simp [admissible.noZero]), if_neg (by simp [admissible.filled]),
    if_neg (Nat.not_le.mpr admissible.short)]
  rfl

/-- A path that is not taken is not called missing, unless it is empty. -/
theorem locate_of_not_admissible (tree : Tree) (directory : String) (throughLast : Bool)
    (refused : ¬ Admissible path) (filled : path ≠ "") :
    ∃ reason, reason ≠ .notFound ∧ tree.locate directory path throughLast = .error reason := by
  unfold locate
  split
  · exact ⟨_, by decide, rfl⟩
  · rename_i noZero
    have nonempty : path.isEmpty = false := by simpa using filled
    rw [if_neg (by simp [nonempty])]
    split
    · exact ⟨_, by decide, rfl⟩
    · rename_i short
      exact absurd ⟨by simpa using noZero, nonempty, Nat.lt_of_not_le short⟩ refused

theorem locate_eq_ok_iff :
    tree.locate directory path throughLast = .ok (there, node) ↔
      Admissible path ∧
        tree.Arrives (throughLast || Path.endsInSlash path) (stepsOf directory path) there node := by
  constructor
  · intro located
    have admissible : Admissible path := by
      refine Classical.byContradiction fun refused => ?_
      by_cases filled : path = ""
      · subst filled
        cases located
      · obtain ⟨reason, _, stopped⟩ :=
          locate_of_not_admissible tree directory throughLast refused filled
        rw [stopped] at located
        cases located
    refine ⟨admissible, follow_eq_ok_iff.mp ?_⟩
    rw [← locate_of_admissible admissible]
    exact located
  · rintro ⟨admissible, arrives⟩
    rw [locate_of_admissible admissible]
    exact follow_eq_ok_iff.mpr arrives

/-- A path leads to something, which is a directory if the path ends in a slash. -/
theorem lookup_eq_ok_iff {stood : Node} :
    tree.lookup directory path = .ok (there, stood) ↔
      Admissible path ∧ tree.Arrives true (stepsOf directory path) there (some stood) ∧
        (Path.endsInSlash path = true → stood.isDirectory = true) := by
  constructor
  · intro found
    unfold lookup at found
    cases located : tree.locate directory path true with
    | error reason =>
        rw [located] at found
        cases found
    | ok reached =>
        obtain ⟨reached, node⟩ := reached
        rw [located] at found
        obtain ⟨admissible, arrives⟩ := locate_eq_ok_iff.mp located
        cases node with
        | none => cases found
        | some node =>
            change (if _ then _ else _) = _ at found
            split at found
            · cases found
            · rename_i plain
              cases found
              exact ⟨admissible, arrives, by simpa using plain⟩
  · rintro ⟨admissible, arrives, slash⟩
    have located : tree.locate directory path true = .ok (there, some stood) :=
      locate_eq_ok_iff.mpr ⟨admissible, arrives⟩
    rw [lookup, located]
    exact if_neg (by simpa using slash)

/-- A directory that is entered is called by the path of its place. -/
theorem exists_of_enter {platform : Platform}
    (entered : platform.enter tree directory = .ok path) :
    ∃ there entries, path = pathOf there ∧
      tree.lookup platform.directory directory = .ok (there, .directory entries) := by
  unfold Platform.enter at entered
  cases found : tree.lookup platform.directory directory with
  | error reason =>
      rw [found] at entered
      cases entered
  | ok reached =>
      obtain ⟨there, node⟩ := reached
      rw [found] at entered
      cases node with
      | directory entries =>
          cases entered
          exact ⟨there, entries, rfl, rfl⟩
      | _ => cases entered

/-- A path that leads to something leads to something when a last link is not followed. -/
theorem Arrives.exists_last {steps : List String} {stood : Node}
    (arrives : tree.Arrives true steps there (some stood)) (throughLast : Bool) :
    ∃ last found, tree.Arrives throughLast steps last (some found) := by
  cases throughLast with
  | true => exact ⟨there, stood, arrives⟩
  | false =>
      obtain ⟨cost, within, leads⟩ := arrives
      obtain ⟨less, cheaper, last, found, shorter⟩ := leads.exists_last
      exact ⟨last, found, less, Nat.le_trans cheaper within, shorter⟩

/-! ## Making a directory -/

/-- Steps that lead to nothing lead to a missing entry of a directory. -/
theorem Leads.exists_parent {cost : Nat} {here : Location} {steps : List String}
    (leads : Leads tree throughLast cost here steps there none)
    (standing : tree.get? here ≠ none) :
    ∃ parent name entries, there = parent ++ [name] ∧
      tree.get? parent = some (.directory entries) := by
  generalize reached : none = node at leads
  induction leads with
  | here place => exact absurd reached.symm standing
  | current stands further ih => exact ih standing reached
  | @parent cost here there rest node entries stands further ih =>
      refine ih ?_ reached
      intro missing
      rw [Node.get?_eq_none_of_prefix missing (List.dropLast_prefix here)] at stands
      cases stands
  | missing stands name absent => exact ⟨_, _, _, rfl, stands⟩
  | link stands name found last => cases reached
  | through stands name found goes_on further ih =>
      refine ih ?_ reached
      split
      · simp
      · rw [stands]
        exact Option.some_ne_none _
  | enter stands name found plain further ih =>
      refine ih ?_ reached
      rw [Node.get?_concat stands, found]
      exact Option.some_ne_none _

/-- **A directory is made where nothing stood**, as an entry of the directory there. -/
theorem makeDirectory_eq_ok (made : tree.makeDirectory directory path = .ok after) :
    Admissible path ∧ ∃ parent name entries,
      tree.Arrives (Path.endsInSlash path) (stepsOf directory path) (parent ++ [name]) none ∧
      tree.get? parent = some (.directory entries) ∧
      after = tree.put (parent ++ [name]) .emptyDirectory := by
  unfold makeDirectory at made
  cases located : tree.locate directory path false with
  | error reason =>
      rw [located] at made
      cases made
  | ok found =>
      obtain ⟨there, node⟩ := found
      rw [located] at made
      cases node with
      | some node => cases made
      | none =>
          cases made
          obtain ⟨admissible, cost, within, leads⟩ := locate_eq_ok_iff.mp located
          obtain ⟨parent, name, entries, rfl, stands⟩ := leads.exists_parent (by simp)
          exact ⟨admissible, parent, name, entries, ⟨cost, within, leads⟩, stands, rfl⟩

/-- What becomes of a tree when something is written to a place, by what stands there. -/
inductive Writes (tree : Tree) (contents : Text.Bytes) (atEnd : Bool) (there : Location) :
    Option Node → Tree → Prop where
  /-- A new file is not executable. -/
  | new : Writes tree contents atEnd there none (tree.put there (.file contents false))
  /-- An old file stays executable if it was. -/
  | old {old : Text.Bytes} {executable : Bool} :
      Writes tree contents atEnd there (some (.file old executable))
        (tree.put there (.file (if atEnd then old ++ contents else contents) executable))
  /-- A device takes it without a trace. -/
  | device {zeros : Bool} : Writes tree contents atEnd there (some (.device zeros)) tree
  | link {target : String} : Writes tree contents atEnd there (some (.link target)) tree

/-- **What can be written to is no directory**, neither by what stands there nor by its path. -/
theorem write_eq_ok {contents : Text.Bytes} {atEnd : Bool}
    (written : tree.write directory path contents atEnd = .ok after) :
    Admissible path ∧ Path.endsInSlash path = false ∧ ∃ there node,
      tree.Arrives true (stepsOf directory path) there node ∧
      Writes tree contents atEnd there node after := by
  unfold write at written
  cases located : tree.locate directory path true with
  | error reason =>
      rw [located] at written
      cases written
  | ok found =>
      obtain ⟨there, node⟩ := found
      rw [located] at written
      obtain ⟨admissible, arrives⟩ := locate_eq_ok_iff.mp located
      cases node with
      | none =>
          change (if _ then _ else _) = _ at written
          split at written
          · cases written
          · rename_i plain
            cases written
            exact ⟨admissible, by simpa using plain, there, none, arrives, .new⟩
      | some stood =>
          change (if _ then _ else _) = _ at written
          split at written
          · cases written
          · rename_i fits
            have noDirectory (other : stood.isDirectory = false) :
                Path.endsInSlash path = false := by
              simpa [other] using fits
            refine ⟨admissible, ?_⟩
            cases stood with
            | directory entries => cases written
            | program name => cases written
            | file old executable =>
                cases written
                exact ⟨noDirectory rfl, there, _, arrives, .old⟩
            | device zeros =>
                cases written
                exact ⟨noDirectory rfl, there, _, arrives, .device⟩
            | link target =>
                cases written
                exact ⟨noDirectory rfl, there, _, arrives, .link⟩

/-- Where something stands nothing is made, and it is not called missing. -/
theorem makeDirectory_of_place (stands : tree.place? directory path = some place)
    (filled : path ≠ "") :
    ∃ reason, reason ≠ .notFound ∧ tree.makeDirectory directory path = .error reason := by
  by_cases admissible : Admissible path
  · obtain ⟨entries, arrives⟩ := place?_eq_some_iff.mp stands
    obtain ⟨last, found, shorter⟩ := arrives.exists_last (false || Path.endsInSlash path)
    have located := locate_eq_ok_iff.mpr ⟨admissible, shorter⟩
    refine ⟨.exists, by decide, ?_⟩
    rw [makeDirectory, located]
    rfl
  · obtain ⟨reason, other, stopped⟩ := locate_of_not_admissible tree directory false admissible filled
    refine ⟨reason, other, ?_⟩
    rw [makeDirectory, stopped]
    rfl

/-- What is put where a path leads to nothing stands where the path leads then. -/
theorem Arrives.put {steps : List String} {parent : Location} {name : String}
    {entries : List (String × Node)} {new : Node}
    (arrives : tree.Arrives throughLast steps (parent ++ [name]) none)
    (stands : tree.get? parent = some (.directory entries)) (plain : ∀ target, new ≠ .link target) :
    Arrives (tree.put (parent ++ [name]) new) throughLast steps (parent ++ [name])
      (some new) := by
  obtain ⟨cost, within, leads⟩ := arrives
  obtain ⟨only, placed⟩ := Node.put_spec stands name new
  refine ⟨cost, within, ?_⟩
  rw [← placed]
  refine leads.keeps (only.keeps leads.get?_eq) fun _ target linked => ?_
  rw [placed, Option.some.injEq] at linked
  exact plain target linked

/-- The path of a directory that is made leads to it then. -/
theorem exists_put_of_makeDirectory (made : tree.makeDirectory directory path = .ok after) :
    ∃ parent name entries, tree.get? (parent ++ [name]) = none ∧
      tree.get? parent = some (.directory entries) ∧
      after = tree.put (parent ++ [name]) .emptyDirectory ∧
      after.Arrives true (stepsOf directory path) (parent ++ [name]) (some .emptyDirectory) := by
  obtain ⟨_, parent, name, entries, ⟨cost, within, leads⟩, stands, rfl⟩ :=
    makeDirectory_eq_ok made
  -- Where nothing stands no last link is left unfollowed.
  have arrives : tree.Arrives true (stepsOf directory path) (parent ++ [name]) none :=
    ⟨cost, within, leads.of_none⟩
  have plain : ∀ target, Node.emptyDirectory ≠ .link target := by
    rintro target ⟨⟩
  exact ⟨parent, name, entries, leads.get?_eq, stands, rfl, arrives.put stands plain⟩

/-! ## Making the missing directories of a path -/

section MakeChain

variable {parents : List String} {reason : OsError}

theorem makeChain_of_made (made : tree.makeDirectory directory path = .ok after) :
    tree.makeChain directory (path :: parents) = (.ok (), after) := by
  rw [makeChain, made]

theorem makeChain_of_refused (refused : tree.makeDirectory directory path = .error reason)
    (other : reason ≠ .notFound) :
    tree.makeChain directory (path :: parents) =
      (makeChain.settle directory tree path reason, tree) := by
  rw [makeChain, refused]
  cases reason with
  | notFound => exact absurd rfl other
  | _ => rfl

theorem makeChain_of_missing (missing : tree.makeDirectory directory path = .error .notFound) :
    tree.makeChain directory (path :: parents) =
      match tree.makeChain directory parents with
      | (.error reason, above) => (.error reason, above)
      | (.ok _, above) =>
        match above.makeDirectory directory path with
        | .ok after => (.ok (), after)
        | .error reason => (makeChain.settle directory above path reason, above) := by
  rw [makeChain]
  generalize tree.makeDirectory directory path = answer at missing ⊢
  subst missing
  rfl

end MakeChain

/-- How the tree looks after the missing directories of a path were made. -/
theorem makeChain_cases {parents : List String}
    (changed : (tree.makeChain directory (path :: parents)).2 = after) :
    tree.makeDirectory directory path = .ok after ∨
    (∃ reason, reason ≠ .notFound ∧ tree.makeDirectory directory path = .error reason ∧
      after = tree) ∨
    (tree.makeDirectory directory path = .error .notFound ∧
      (after = (tree.makeChain directory parents).2 ∨
        (tree.makeChain directory parents).2.makeDirectory directory path = .ok after)) := by
  subst changed
  cases made : tree.makeDirectory directory path with
  | ok after =>
      rw [makeChain_of_made made]
      exact .inl rfl
  | error reason =>
      by_cases missing : reason = .notFound
      · subst missing
        refine .inr (.inr ⟨rfl, ?_⟩)
        rw [makeChain_of_missing made]
        rcases tree.makeChain directory parents with ⟨refusal | done, middle⟩
        · exact .inl rfl
        · dsimp only
          cases middle.makeDirectory directory path with
          | ok last => exact .inr rfl
          | error reason => exact .inl rfl
      · refine .inr (.inl ⟨reason, missing, rfl, ?_⟩)
        rw [makeChain_of_refused made missing]

/-- Nothing is made when the path leads to a directory. -/
theorem makeChain_of_place (stands : tree.place? directory path = some place)
    (filled : path ≠ "") (parents : List String) :
    (tree.makeChain directory (path :: parents)).2 = tree := by
  obtain ⟨reason, other, refused⟩ := makeDirectory_of_place stands filled
  rcases makeChain_cases rfl with made | ⟨_, _, _, same⟩ | ⟨missing, _⟩
  · rw [refused] at made
    cases made
  · exact same
  · rw [refused, Except.error.injEq] at missing
    exact absurd missing other

/-- A path leads to no directory, or to one without entries. -/
def Vacant (tree : Tree) (directory path : String) : Prop :=
  ∀ place, tree.place? directory path = some place → ∀ name, tree.get? (place ++ [name]) = none

theorem Vacant.of_place?_eq_none (nowhere : tree.place? directory path = none) :
    tree.Vacant directory path := by
  intro place stands
  rw [nowhere] at stands
  cases stands

/-- A directory that was just made has no entries. -/
theorem vacant_of_makeDirectory (made : tree.makeDirectory directory path = .ok after) :
    after.Vacant directory path := by
  obtain ⟨parent, name, entries, _, stands, rfl, _, _, there⟩ := exists_put_of_makeDirectory made
  intro place found step
  obtain ⟨others, _, _, leadsThere⟩ := place?_eq_some_iff.mp found
  obtain ⟨rfl, same⟩ := leadsThere.unique there
  obtain ⟨_, placed⟩ := Node.put_spec stands name .emptyDirectory
  rw [Node.get?_concat placed]
  rfl

/-- Paths of which each is the one behind it with one name more. -/
inductive Lineage (directory : String) : List String → Prop where
  | alone {path : String} (filled : path ≠ "") : Lineage directory [path]
  | child {path parent last : String} {rest : List String} (filled : path ≠ "")
      (current : last ≠ ".") (upwards : last ≠ "..")
      (thins : Thins (stepsOf directory path) (stepsOf directory parent ++ [last]))
      (above : Lineage directory (parent :: rest)) : Lineage directory (path :: parent :: rest)

theorem Lineage.filled {parents : List String} (lineage : Lineage directory (path :: parents)) :
    path ≠ "" := by
  cases lineage with
  | alone filled => exact filled
  | child filled => exact filled

/-- A path that leads to a directory leads through its parent. -/
theorem exists_place_of_thins {parent last : String}
    (thins : Thins (stepsOf directory path) (stepsOf directory parent ++ [last]))
    (current : last ≠ ".") (upwards : last ≠ "..")
    (stands : tree.place? directory path = some place) :
    ∃ above, tree.place? directory parent = some above ∧ tree.get? (above ++ [last]) ≠ none := by
  obtain ⟨entries, cost, within, leads⟩ := place?_eq_some_iff.mp stands
  obtain ⟨less, saved, thinner⟩ := leads.thin thins
  obtain ⟨first, second, above, others, rfl, front, back⟩ := thinner.split (List.cons_ne_nil _ _)
  have spent : 1 ≤ second := by
    cases back with
    | current => exact absurd rfl current
    | parent => exact absurd rfl upwards
    | through => exact Nat.le_add_left _ _
    | enter => exact Nat.le_add_left _ _
  refine ⟨above, place?_eq_some_iff.mpr ⟨others, first, ?_, front⟩, ?_⟩
  · rw [List.length_append, List.length_singleton] at saved
    omega
  · cases back with
    | current => exact absurd rfl current
    | parent => exact absurd rfl upwards
    | through standing name found =>
        rw [Node.get?_concat standing, found]
        exact Option.some_ne_none _
    | enter standing name found =>
        rw [Node.get?_concat standing, found]
        exact Option.some_ne_none _

/-- **A directory that was made with its ancestors has no entries.** -/
theorem vacant_makeChain {parents : List String}
    (lineage : Lineage directory (path :: parents))
    (nowhere : tree.place? directory path = none) :
    (tree.makeChain directory (path :: parents)).2.Vacant directory path := by
  generalize chain : path :: parents = paths at lineage
  induction lineage generalizing path parents with
  | alone filled =>
      cases chain
      rcases makeChain_cases rfl with made | ⟨_, _, _, same⟩ | ⟨_, same | made⟩
      · exact vacant_of_makeDirectory made
      · rw [same]
        exact .of_place?_eq_none nowhere
      · rw [same]
        exact .of_place?_eq_none nowhere
      · exact vacant_of_makeDirectory made
  | @child path parent last rest filled current upwards thins above ih =>
      cases chain
      -- Whether the parent stood or was made, the path leads nowhere until it is made itself.
      have still : (tree.makeChain directory (parent :: rest)).2.place? directory path = none := by
        cases stood : tree.place? directory parent with
        | some place => rw [makeChain_of_place stood above.filled, nowhere]
        | none =>
            have vacant := ih stood rfl
            refine Option.eq_none_iff_forall_ne_some.mpr fun place stands => ?_
            obtain ⟨outer, found, standing⟩ := exists_place_of_thins thins current upwards stands
            exact standing (vacant outer found last)
      rcases makeChain_cases rfl with made | ⟨_, _, _, same⟩ | ⟨_, same | made⟩
      · exact vacant_of_makeDirectory made
      · rw [same]
        exact .of_place?_eq_none nowhere
      · rw [same]
        exact .of_place?_eq_none still
      · exact vacant_of_makeDirectory made

end Polyglot.Host.Tree
