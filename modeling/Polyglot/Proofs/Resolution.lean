import Polyglot.Host.Machine
import Polyglot.Proofs.Ancestors
import Polyglot.Proofs.Orderly

/-!
# Programs that are called by a path

A program whose name holds a slash is started at an absolute path, whatever the directory is
in which it runs (`Platform.resolves_programs`).

The path names what the program names that is taken relative to the directory, and the
directory relative to where the service runs. A path that is taken relative to others leads
on from where they lead (`Names`), which is to follow the steps of all of them from the root
(`Names.leads`, `names_of_leads`). The path of the program only leaves out single points,
and these lead nowhere else (`Leads.thin`, `Leads.thicken`), except that nothing but a
directory is found by a point at the end.

What a path names is what the tree finds under it (`names_of_lookup`, `Names.lookup_cases`),
also from inside of a directory that is entered first (`names_of_enter`).
-/

set_option autoImplicit false

namespace Polyglot.Host.Tree

open Polyglot.Path (isAbsolute pieces join endsInSlash)

variable {tree : Tree} {here there : Location} {node : Node} {path : String}
variable {bases : List String}

/-! ## Steps with single points -/

namespace Leads

variable {throughLast : Bool} {cost : Nat} {steps : List String} {stood : Option Node}

/-- Steps lead on from something, also when there are no more of them. -/
theorem append_some {between : Location} {middle : Node} {first second : List String} {more : Nat}
    (front : Leads tree true cost here first between (some middle))
    (back : Leads tree true more between second there stood) :
    Leads tree true (cost + more) here (first ++ second) there stood := by
  by_cases none : second = []
  · subst none
    cases back
    rw [front.get?_eq, List.append_nil, Nat.add_zero]
    exact front
  · exact front.append back none

/-- A single point leads to the directory where it is taken. -/
theorem point {entries : List (String × Node)}
    (stands : tree.get? here = some (.directory entries)) :
    Leads tree throughLast 1 here ["."] here (some (.directory entries)) :=
  .current stands (stands ▸ .here here)

/-- What is found by a single point at the end is a directory. -/
theorem isDirectory_of_point (leads : Leads tree true cost here steps there (some node))
    (last : steps.getLast? = some ".") : node.isDirectory = true := by
  obtain ⟨front, rfl⟩ := List.getLast?_eq_some_iff.mp last
  obtain ⟨_, _, between, entries, _, first, behind⟩ := leads.split (List.cons_ne_nil _ _)
  obtain ⟨_, same⟩ := behind.unique (point first.get?_eq)
  cases same
  rfl

/-- A single point may be put in before more steps, and at the end of a directory. -/
theorem insert_point {front rest : List String}
    (leads : Leads tree true cost here (front ++ rest) there (some node))
    (stays : node.isDirectory = true ∨ rest ≠ []) :
    ∃ more, Leads tree true more here (front ++ "." :: rest) there (some node) := by
  by_cases last : rest = []
  · subst last
    rw [List.append_nil] at leads
    cases node with
    | directory entries => exact ⟨_, leads.append (point leads.get?_eq) (List.cons_ne_nil _ _)⟩
    | _ => exact absurd stays (by simp [Node.isDirectory])
  · obtain ⟨_, _, between, entries, _, first, second⟩ := leads.split last
    exact ⟨_, first.append (.current first.get?_eq second) (List.cons_ne_nil _ _)⟩

/-- Single points may be put in behind some steps. -/
theorem thicken_behind {fewer : List String} (front : List String)
    (leads : Leads tree true cost here (front ++ fewer) there (some node))
    (thins : Thins steps fewer)
    (stays : node.isDirectory = true ∨ steps.getLast? ≠ some ".") :
    ∃ more, Leads tree true more here (front ++ steps) there (some node) := by
  have behind {step : String} {steps : List String} (ends : (step :: steps).getLast? ≠ some ".") :
      steps.getLast? ≠ some "." := by
    intro point
    refine ends ?_
    rw [List.getLast?_cons, point]
    rfl
  induction thins generalizing front cost with
  | nil => exact ⟨cost, leads⟩
  | keep step rest ih =>
      rw [← List.singleton_append, ← List.append_assoc] at leads ⊢
      exact ih _ leads (stays.imp_right behind)
  | drop rest ih =>
      obtain ⟨more, thick⟩ := ih front leads (stays.imp_right behind)
      refine thick.insert_point (stays.imp_right ?_)
      rintro ends rfl
      exact ends rfl

/-- Putting single points back in does not lead elsewhere, unless one stands at the end and
what is found is no directory. -/
theorem thicken {fewer : List String}
    (leads : Leads tree true cost here fewer there (some node)) (thins : Thins steps fewer)
    (stays : node.isDirectory = true ∨ steps.getLast? ≠ some ".") :
    ∃ more, Leads tree true more here steps there (some node) :=
  thicken_behind [] leads thins stays

end Leads

/-! ## What a path names -/

/-- A path leads from a place to something, and to a directory if it ends in a slash. -/
structure Finds (tree : Tree) (here : Location) (path : String) (there : Location) (node : Node) :
    Prop where
  leads : ∃ cost, Leads tree true cost here (pieces path) there (some node)
  slash : endsInSlash path = true → node.isDirectory = true

/--
What the first of some paths names that are each taken relative to the next. An absolute
path is taken from the root, whatever comes behind it.
-/
inductive Names (tree : Tree) : List String → Location → Node → Prop where
  | absolute {path : String} {bases : List String} {there : Location} {node : Node}
      (absolutePath : isAbsolute path = true) (finds : Finds tree [] path there node) :
      Names tree (path :: bases) there node
  | relative {path : String} {bases : List String} {here there : Location} {node holder : Node}
      (relativePath : isAbsolute path = false) (base : Names tree bases here holder)
      (finds : Finds tree here path there node) : Names tree (path :: bases) there node

/-- The steps from the root of paths that are each taken relative to the next. -/
def trail : List String → List String
  | [] => []
  | path :: bases => if isAbsolute path then pieces path else trail bases ++ pieces path

/-- Two paths have the steps of the one that is taken relative to the other. -/
theorem trail_pair (path base : String) : trail [path, base] = stepsOf base path := by
  rw [stepsOf_eq, originOf, trail]
  split
  · rfl
  · simp [trail]

/-- Three paths have the steps of the joined path that is taken relative to the last. -/
theorem trail_triple (path base home : String) :
    trail [path, base, home] = stepsOf home (join base path) := by
  rw [trail, trail_pair]
  split
  · rename_i absolutePath
    rw [Path.join_of_isAbsolute absolutePath, stepsOf_eq, originOf, if_pos absolutePath,
      List.nil_append]
  · rename_i relative
    rw [stepsOf_join (by simpa using relative)]

theorem getLast?_trail (filled : path ≠ "") :
    (trail (path :: bases)).getLast? = (pieces path).getLast? := by
  rw [trail]
  split
  · rfl
  · rename_i relative
    have last := List.getLast?_eq_some_getLast
      (Path.pieces_ne_nil (by simpa using relative) filled)
    rw [List.getLast?_append, last, Option.some_or]

namespace Finds

/-- What is found under an empty path is what stands there. -/
theorem of_empty (stands : tree.get? here = some node) : Finds tree here "" here node :=
  ⟨⟨0, stands ▸ .here here⟩, fun ends => absurd ends (by decide)⟩

/-- What is found without a step, or by single points only, is a directory. -/
theorem isDirectory_of_points (finds : Finds tree here path there node) (filled : path ≠ "")
    (points : ∀ step ∈ pieces path, step = ".") : node.isDirectory = true := by
  rcases List.eq_nil_or_concat (pieces path) with none | ⟨front, last, shape⟩
  · exact finds.slash (Path.endsInSlash_of_pieces_eq_nil filled none)
  · obtain ⟨cost, leads⟩ := finds.leads
    rw [List.concat_eq_append] at shape
    obtain rfl : last = "." := points last (by simp [shape])
    exact leads.isDirectory_of_point (by rw [shape, List.getLast?_concat])

end Finds

namespace Names

/-- What paths name is found under the first of them, from somewhere. -/
theorem exists_finds (names : Names tree (path :: bases) there node) :
    ∃ here, Finds tree here path there node := by
  cases names with
  | absolute absolutePath finds => exact ⟨[], finds⟩
  | relative relativePath base finds => exact ⟨_, finds⟩

/-- Paths name what their steps lead to from the root. -/
theorem leads {paths : List String} (names : Names tree paths there node) :
    ∃ cost, Leads tree true cost [] (trail paths) there (some node) := by
  induction names with
  | absolute absolutePath finds =>
      rw [trail, if_pos absolutePath]
      exact finds.leads
  | relative relativePath base finds ih =>
      obtain ⟨cost, first⟩ := ih
      obtain ⟨more, second⟩ := finds.leads
      rw [trail, relativePath, if_neg Bool.false_ne_true]
      exact ⟨cost + more, first.append_some second⟩

end Names

/--
Paths of which one is absolute name what their steps lead to from the root. If this is no
directory, the first of them is not empty and does not end in a slash.
-/
theorem names_of_leads {paths : List String} (rooted : ∃ path ∈ paths, isAbsolute path = true)
    {cost : Nat} (leads : Leads tree true cost [] (trail paths) there (some node))
    (ends : node.isDirectory = true ∨
      ∀ path ∈ paths.head?, path ≠ "" ∧ endsInSlash path = false) :
    Names tree paths there node := by
  induction paths generalizing cost there node with
  | nil =>
      obtain ⟨_, member, _⟩ := rooted
      cases member
  | cons path bases ih =>
      have slash (ending : endsInSlash path = true) : node.isDirectory = true := by
        refine ends.resolve_right fun plain => ?_
        rw [(plain path rfl).2] at ending
        cases ending
      cases absolutePath : isAbsolute path with
      | true =>
          rw [trail, absolutePath, if_pos rfl] at leads
          exact .absolute absolutePath ⟨⟨cost, leads⟩, slash⟩
      | false =>
          have behind : ∃ path ∈ bases, isAbsolute path = true := by
            simpa [absolutePath] using rooted
          rw [trail, absolutePath, if_neg Bool.false_ne_true] at leads
          by_cases none : pieces path = []
          · -- The path is empty, so what it names is what its bases name.
            have empty : path = "" :=
              Classical.byContradiction fun filled => Path.pieces_ne_nil absolutePath filled none
            rw [none, List.append_nil] at leads
            have directory := ends.resolve_right fun plain => (plain path rfl).1 empty
            refine .relative absolutePath (ih behind leads (.inl directory)) ?_
            exact empty ▸ Finds.of_empty leads.get?_eq
          · obtain ⟨_, more, between, entries, _, first, second⟩ := leads.split none
            exact .relative absolutePath (ih behind first (.inl rfl)) ⟨⟨more, second⟩, slash⟩

/-! ## Looking a path up -/

/-- What is found under a path is what the path names. -/
theorem names_of_lookup {base : String} (found : tree.lookup base path = .ok (there, node))
    (rooted : isAbsolute path = true ∨ isAbsolute base = true) :
    Names tree [path, base] there node := by
  obtain ⟨admissible, ⟨_, _, leads⟩, slash⟩ := lookup_eq_ok_iff.mp found
  rw [← trail_pair] at leads
  refine names_of_leads (by simpa using rooted) leads ?_
  by_cases directory : node.isDirectory = true
  · exact .inl directory
  · refine .inr fun other first => ?_
    obtain rfl : path = other := Option.some.inj first
    exact ⟨by simpa using admissible.filled, by simpa using mt slash directory⟩

/-- What a path names is found under it, unless the path is not taken or has too many links. -/
theorem Names.lookup_cases {base : String} (names : Names tree [path, base] there node) :
    tree.lookup base path = .ok (there, node) ∨ ¬ Admissible path ∨
      tree.lookup base path = .error .tooManyLinks := by
  obtain ⟨here, finds⟩ := names.exists_finds
  obtain ⟨cost, leads⟩ := names.leads
  rw [trail_pair] at leads
  by_cases admissible : Admissible path
  · by_cases within : cost ≤ (stepsOf base path).length + 200
    · exact .inl (lookup_eq_ok_iff.mpr ⟨admissible, ⟨cost, within, leads⟩, finds.slash⟩)
    · refine .inr (.inr ?_)
      rw [lookup, locate_of_admissible admissible, Bool.true_or,
        leads.follow_eq_error (Nat.lt_of_not_le within)]
      rfl
  · exact .inr (.inl admissible)

/-! ## Entering a directory -/

/-- A name that an entry of a directory may have. -/
structure IsEntryName (name : String) : Prop extends IsName name, Path.IsProperStep name

/-- The place to which a path leads is made of names that entries have. -/
theorem Leads.isEntryName {cost : Nat} {steps : List String} {stood : Option Node}
    (leads : Leads tree true cost here steps there stood)
    (plain : ∀ step ∈ steps, step ≠ "" ∧ '/' ∉ step.toList)
    (before : ∀ name ∈ here, IsEntryName name) : ∀ name ∈ there, IsEntryName name := by
  have deeper {front : Location} {step : String} (entry : IsEntryName step)
      (entries : ∀ name ∈ front, IsEntryName name) :
      ∀ name ∈ front ++ [step], IsEntryName name := by
    simpa [or_imp, forall_and] using ⟨entries, entry⟩
  induction leads with
  | here place => exact before
  | current stands further ih => exact ih (List.forall_mem_cons.mp plain).2 before
  | parent stands further ih =>
      exact ih (List.forall_mem_cons.mp plain).2 fun name member =>
        before name (List.dropLast_subset _ member)
  | missing stands name absent =>
      obtain ⟨filled, noSlash⟩ := plain _ List.mem_cons_self
      exact deeper ⟨name, ⟨filled, noSlash, name.current⟩⟩ before
  | link stands name found last => cases last
  | @through cost here there step target rest stood entries stands name found goes_on further ih =>
      refine ih ?_ ?_
      · intro other member
        rcases List.mem_append.mp member with first | behind
        · exact Path.mem_pieces first
        · exact plain other (List.mem_cons_of_mem step behind)
      · split
        · exact nofun
        · exact before
  | enter stands name found stays further ih =>
      obtain ⟨⟨filled, noSlash⟩, others⟩ := List.forall_mem_cons.mp plain
      exact ih others (deeper ⟨name, ⟨filled, noSlash, name.current⟩⟩ before)

/-- The names of a place lead there, unless a link stands there. -/
theorem exists_leads_of_get? {entries : List (String × Node)}
    (stands : tree.get? there = some (.directory entries)) (named : ∀ name ∈ there, IsName name) :
    ∃ cost, Leads tree true cost [] there there (some (.directory entries)) := by
  induction there using List.reverseRecOn generalizing entries with
  | nil => exact ⟨0, stands ▸ .here []⟩
  | append_singleton front last ih =>
      obtain ⟨holder, above, below⟩ := Option.bind_eq_some_iff.mp (Node.get?_append .. ▸ stands)
      obtain ⟨others, rfl⟩ := Node.exists_entries_of_get?_cons below
      have found := (Node.get?_concat above last).symm.trans stands
      obtain ⟨cost, leads⟩ := ih above fun name member => named name (List.mem_append_left _ member)
      have step : Leads tree true 1 front [last] (front ++ [last]) (Table.find? last others) :=
        .of_name above (named last (by simp)) (.inr (by simp [found]))
      exact ⟨_, leads.append_some (found ▸ step)⟩

end Polyglot.Host.Tree

namespace Polyglot.Host.Platform

open Polyglot.Host.Tree
open Polyglot.Path (isAbsolute pieces join endsInSlash components Orderly)

/-! ## Starting a program -/

/-- What is said of the path at which a program is started that is called by a path. -/
structure StartsAt (platform : Platform) (tree : Tree) (program directory path : String) :
    Prop where
  resolved : platform.resolve tree program directory = some path
  absolute : isAbsolute path = true
  /-- No directory is put before the path, neither the one in which the program runs. -/
  once : ∀ here, join here path = path
  spelled : components path = components (join platform.directory (join directory program))
  own : isAbsolute program = true → components path = components program
  /-- The path names, taken from anywhere, what the program names that is taken relative to the
  directory, and the directory relative to where the service runs. -/
  names : ∀ {there node}, Names tree [program, directory, platform.directory] there node →
    ∀ bases, Names tree (path :: bases) there node
  /-- It names nothing else, unless a point at the end of the program is behind a file. -/
  named : ∀ {bases there node}, Names tree (path :: bases) there node →
    node.isDirectory = true ∨ (pieces program).getLast? ≠ some "." →
    Names tree [program, directory, platform.directory] there node
  /-- What the program finds when it is called inside of the directory is such a thing. -/
  inside : ∀ {place there node}, platform.enter tree directory = .ok place →
    tree.lookup place program = .ok (there, node) →
    Names tree [program, directory, platform.directory] there node
  /-- The machine finds it under the path, unless this is not taken or has too many links. -/
  found : ∀ {there node}, Names tree [program, directory, platform.directory] there node →
    ∀ here, tree.lookup here path = .ok (there, node) ∨ ¬ Admissible path ∨
      tree.lookup here path = .error .tooManyLinks
  /-- Resolving the path again changes nothing, in any directory and on any machine. Where the
  service runs matters only if both the program and the directory are relative, and is spelled in
  order by the operating system, like every directory that is entered (`orderly_of_enter`). -/
  unchanged : isAbsolute program = true ∨ isAbsolute directory = true ∨
      Orderly platform.directory →
    ∀ (other : Platform) later here, other.resolve later path here = some path
  /-- Even if it were not, the path would be in order after the second time. -/
  settles : ∃ orderly, components orderly = components path ∧
    ∀ (other : Platform) later here, other.resolve later path here = some orderly ∧
      other.resolve later orderly here = some orderly

section Resolve

variable {platform : Platform} {tree : Tree} {program directory : String}

theorem resolve_of_slash (slash : '/' ∈ program.toList) :
    platform.resolve tree program directory = some (platform.pathIn program directory) :=
  if_pos (by simpa using slash)

/-- An absolute path is resolved alike wherever it is called. -/
theorem resolve_of_isAbsolute (absolutePath : isAbsolute program = true) :
    platform.resolve tree program directory =
      some (Path.absolute platform.directory program) := by
  have slash : '/' ∈ program.toList := List.mem_of_head? (beq_iff_eq.mp absolutePath)
  rw [resolve_of_slash slash, pathIn, Path.join_of_isAbsolute absolutePath]

/-- An orderly path is kept. -/
theorem resolve_of_orderly (orderly : Orderly program) :
    platform.resolve tree program directory = some program := by
  rw [resolve_of_isAbsolute orderly.isAbsolute, orderly.absolute_eq]

/-- The steps of the program are thinned out in the path. -/
theorem thins_pathIn (platform : Platform) (program directory : String) :
    Thins (trail [program, directory, platform.directory])
      (pieces (platform.pathIn program directory)) := by
  rw [trail_triple, stepsOf_eq, pathIn, Path.pieces_absolute]
  exact (Thins.refl _).append (.filter _)

/-- The path ends in a slash when the program does. -/
theorem endsInSlash_pathIn (filled : program ≠ "") (ends : endsInSlash program = true) :
    endsInSlash (platform.pathIn program directory) = true :=
  Path.endsInSlash_absolute ((Path.endsInSlash_join filled).trans ends)

/-- When the path ends in a slash, the program finds a directory only. -/
theorem isDirectory_of_pathIn {here there : Location} {node : Node}
    (finds : Finds tree here program there node) (filled : program ≠ "")
    (ends : endsInSlash (platform.pathIn program directory) = true) :
    node.isDirectory = true := by
  rcases Path.endsInSlash_of_absolute ends with slash | points
  · exact finds.slash ((Path.endsInSlash_join filled).symm.trans slash)
  · refine finds.isDirectory_of_points filled fun step member => points step ?_
    cases absolutePath : isAbsolute program with
    | false =>
        rw [Path.pieces_join absolutePath]
        exact List.mem_append_right _ member
    | true => rwa [Path.join_of_isAbsolute absolutePath]

end Resolve

section Enter

variable {platform : Platform} {tree : Tree} {directory place : String}

theorem isEntryName_of_lookup {base path : String} {there : Location} {node : Node}
    (found : tree.lookup base path = .ok (there, node)) : ∀ name ∈ there, IsEntryName name := by
  obtain ⟨_, ⟨_, _, leads⟩, _⟩ := lookup_eq_ok_iff.mp found
  exact leads.isEntryName (fun _ => Path.mem_pieces) nofun

/-- The directory in which a program is started is spelled in order. -/
theorem orderly_of_enter (entered : platform.enter tree directory = .ok place) :
    Orderly place := by
  obtain ⟨there, entries, rfl, found⟩ := exists_of_enter entered
  exact Path.orderly_pathOf fun name member =>
    (isEntryName_of_lookup found name member).toIsProperStep

/-- **What a program finds that is called in a directory is what its path names, taken relative
to the directory.** -/
theorem names_of_enter {program : String} {there : Location} {node : Node}
    (home : isAbsolute platform.directory = true)
    (entered : platform.enter tree directory = .ok place)
    (found : tree.lookup place program = .ok (there, node)) :
    Names tree [program, directory, platform.directory] there node := by
  have orderly := orderly_of_enter entered
  obtain ⟨inside, entries, rfl, seen⟩ := exists_of_enter entered
  have named := isEntryName_of_lookup seen
  cases names_of_lookup found (.inr orderly.isAbsolute) with
  | absolute absolutePath finds => exact .absolute absolutePath finds
  | @relative _ _ here _ _ holder relativePath holds finds =>
      obtain ⟨_, ⟨_, _, arrives⟩, _⟩ := lookup_eq_ok_iff.mp seen
      obtain ⟨_, direct⟩ :=
        exists_leads_of_get? arrives.get?_eq fun name member => (named name member).toIsName
      obtain ⟨_, leads⟩ := holds.leads
      rw [trail, if_pos orderly.isAbsolute,
        Path.pieces_pathOf fun name member => (named name member).toIsProperStep] at leads
      obtain ⟨rfl, _⟩ := leads.unique direct
      exact .relative relativePath (names_of_lookup seen (.inr home)) finds

end Enter

section StartsAt

variable {platform : Platform} {program : String}

/-- The path is orderly unless it goes from a place of the service that is not. -/
theorem orderly_pathIn {directory : String} (orderly : isAbsolute program = true ∨
    isAbsolute directory = true ∨ Orderly platform.directory) :
    Orderly (platform.pathIn program directory) := by
  refine Orderly.absolute ?_
  rcases orderly with own | absoluteDirectory | orderly
  · exact .inl (by rwa [Path.join_of_isAbsolute own])
  · have filled : directory ≠ "" := by
      rintro rfl
      cases absoluteDirectory
    exact .inl (by rw [Path.isAbsolute_join filled, absoluteDirectory, Bool.or_true])
  · exact .inr orderly

variable (home : isAbsolute platform.directory = true) (tree : Tree) (directory : String)

include home

theorem isAbsolute_pathIn (program : String) :
    isAbsolute (platform.pathIn program directory) = true :=
  Path.isAbsolute_absolute home _

theorem names_pathIn (filled : program ≠ "") {there : Location} {node : Node}
    (names : Names tree [program, directory, platform.directory] there node)
    (bases : List String) :
    Names tree (platform.pathIn program directory :: bases) there node := by
  obtain ⟨here, finds⟩ := names.exists_finds
  obtain ⟨cost, leads⟩ := names.leads
  obtain ⟨less, _, thinner⟩ := leads.thin (thins_pathIn platform program directory)
  exact .absolute (isAbsolute_pathIn home directory program)
    ⟨⟨less, thinner⟩, isDirectory_of_pathIn finds filled⟩

theorem names_of_pathIn (filled : program ≠ "") {bases : List String} {there : Location}
    {node : Node} (names : Names tree (platform.pathIn program directory :: bases) there node)
    (stays : node.isDirectory = true ∨ (pieces program).getLast? ≠ some ".") :
    Names tree [program, directory, platform.directory] there node := by
  obtain ⟨here, finds⟩ := names.exists_finds
  obtain ⟨cost, leads⟩ := names.leads
  rw [trail, if_pos (isAbsolute_pathIn home directory program)] at leads
  obtain ⟨more, thicker⟩ := leads.thicken (thins_pathIn platform program directory)
    (stays.imp_right fun ends => by rwa [getLast?_trail filled])
  refine names_of_leads ⟨platform.directory, by simp, home⟩ thicker ?_
  by_cases isDirectory : node.isDirectory = true
  · exact .inl isDirectory
  · refine .inr fun first same => ?_
    obtain rfl : program = first := Option.some.inj same
    refine ⟨filled, Bool.eq_false_iff.mpr fun ends => isDirectory ?_⟩
    exact finds.slash (endsInSlash_pathIn filled ends)

theorem startsAt_pathIn (slash : '/' ∈ program.toList) :
    StartsAt platform tree program directory (platform.pathIn program directory) := by
  have filled : program ≠ "" := by
    rintro rfl
    cases slash
  have absolutePath := isAbsolute_pathIn home directory program
  have orderly : Orderly (Path.absolute platform.directory (platform.pathIn program directory)) :=
    .absolute (.inl absolutePath)
  exact
    { resolved := resolve_of_slash slash
      absolute := absolutePath
      once := fun here => Path.join_of_isAbsolute absolutePath
      spelled := Path.components_absolute home _
      own := fun own => by
        rw [pathIn, Path.join_of_isAbsolute own, Path.components_absolute home,
          Path.join_of_isAbsolute own]
      names := names_pathIn home tree directory filled
      named := names_of_pathIn home tree directory filled
      inside := names_of_enter home
      found := fun names here =>
        (names_pathIn home tree directory filled names [here]).lookup_cases
      unchanged := fun inOrder other later here => resolve_of_orderly (orderly_pathIn inOrder)
      settles := by
        refine ⟨_, ?_, fun other later here => ⟨?_, resolve_of_orderly orderly⟩⟩
        · rw [Path.components_absolute home, Path.join_of_isAbsolute absolutePath]
        · rw [resolve_of_isAbsolute absolutePath,
            Path.absolute_of_isAbsolute absolutePath other.directory platform.directory] }

end StartsAt

/--
**A program that is called by a path is started at an absolute path, which names the same
file wherever it is taken from; the directory does not matter to any other program.**
-/
theorem resolves_programs (platform : Platform) (tree : Tree) (program directory : String)
    (home : isAbsolute platform.directory = true) :
    ('/' ∈ program.toList → ∃ path, StartsAt platform tree program directory path) ∧
    ('/' ∉ program.toList →
      ∀ other, platform.resolve tree program directory = platform.resolve tree program other) := by
  refine ⟨fun slash => ⟨_, startsAt_pathIn home tree directory slash⟩, fun bare other => ?_⟩
  have name : ¬ program.toList.contains '/' = true := by simpa using bare
  rw [resolve, resolve, if_neg name, if_neg name]

/-- A machine whose service runs in a directory of its own. -/
def appMachine : Platform :=
  Machine.platform Machine.usualPath "/srv/app"

/-- A tree with a script that a backend of the service is started by. -/
def appTree : Tree :=
  .directory [("srv", .directory [("app", .directory [("Backends", .directory [("Echo",
    .directory [("repl.sh", .file [] true)])])])])]

/-- The script is started by its path from the root. -/
theorem resolves_programs_echo :
    isAbsolute appMachine.directory = true ∧ Orderly appMachine.directory ∧
      '/' ∈ "./repl.sh".toList ∧
      StartsAt appMachine appTree "./repl.sh" "Backends/Echo" "/srv/app/Backends/Echo/repl.sh" ∧
      Names appTree ["./repl.sh", "Backends/Echo", appMachine.directory]
        ["srv", "app", "Backends", "Echo", "repl.sh"] (.file [] true) := by
  have proper : ∀ name ∈ ["srv", "app"], Path.IsProperStep name := by decide
  have orderly : Orderly appMachine.directory := Path.orderly_pathOf proper
  have resolves :=
    resolves_programs appMachine appTree "./repl.sh" "Backends/Echo" orderly.isAbsolute
  obtain ⟨path, starts⟩ := resolves.1 (by decide)
  have resolved : appMachine.resolve appTree "./repl.sh" "Backends/Echo" =
      some "/srv/app/Backends/Echo/repl.sh" := by decide +kernel
  have same := starts.resolved
  rw [resolved, Option.some.injEq] at same
  subst same
  have found : appTree.lookup "/" "/srv/app/Backends/Echo/repl.sh" =
      .ok (["srv", "app", "Backends", "Echo", "repl.sh"], .file [] true) := by rfl
  exact ⟨orderly.isAbsolute, orderly, by decide, starts,
    starts.named (names_of_lookup found (.inl (by decide))) (.inr (by decide))⟩

end Polyglot.Host.Platform
