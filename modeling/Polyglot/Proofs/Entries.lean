import Polyglot.Proofs.Ancestors

/-!
# Entries that are made one after the other

What an operation does to a tree is said here as the list of the entries that it makes:
directories where nothing stood, and files where nothing or a file stood (`Makes`). Making
the missing directories of a path makes directories only, each where an ancestor of the
path leads then (`exists_makes_makeChain`), and writing a file inside of a directory that
holds nothing but directories and files makes that file (`Prepared.made_write`).

Whatever stands somewhere keeps its look when an entry is made elsewhere
(`Makes.exists_face`), so directories stay directories (`Makes.exists_directory`), and a
file keeps its contents until a file is made at its own place (`Makes.get?_file`).
-/

set_option autoImplicit false

namespace Polyglot.Host

/-! ## Directories and files -/

/-- Whether a node is a directory or a file. -/
def Node.isOrdinary : Node → Bool
  | .directory _ | .file _ _ => true
  | _ => false

theorem Node.isOrdinary_face (node : Node) : node.face.isOrdinary = node.isOrdinary := by
  cases node with
  | directory entries => rfl
  | file contents executable => rfl
  | program name => rfl
  | device zeros => rfl
  | link target => rfl

/-- At a location and below it there are only directories and files. -/
def Ordinary (place : Location) (tree : Node) : Prop :=
  ∀ (other : Location) (node : Node), place <+: other → tree.get? other = some node →
    node.isOrdinary = true

namespace Ordinary

variable {place : Location} {tree : Node}

theorem linkless (ordinary : Ordinary place tree) : Linkless place tree := by
  intro other target below found
  exact absurd (ordinary other _ below found) Bool.false_ne_true

theorem emptyDirectory : Ordinary [] .emptyDirectory := by
  intro other node _ found
  cases other with
  | nil =>
      cases found
      rfl
  | cons name rest => cases found

theorem file (contents : Text.Bytes) (executable : Bool) :
    Ordinary [] (.file contents executable) := by
  intro other node _ found
  cases other with
  | nil =>
      cases found
      rfl
  | cons name rest => cases found

theorem put (ordinary : Ordinary place tree) {parent : Location}
    {entries : List (String × Node)} (stands : tree.get? parent = some (.directory entries))
    {name : String} {new : Node} (clean : Ordinary [] new) :
    Ordinary place (tree.put (parent ++ [name]) new) := by
  obtain ⟨only, placed⟩ := Node.put_spec stands name new
  intro other node leads found
  by_cases below : parent ++ [name] <+: other
  · obtain ⟨rest, rfl⟩ := below
    rw [Node.get?_append, placed, Option.bind_some] at found
    exact clean rest node List.nil_prefix found
  · have same := only.face below
    rw [found, Option.map_some, eq_comm, Option.map_eq_some_iff] at same
    obtain ⟨old, stood, looks⟩ := same
    rw [← node.isOrdinary_face, ← looks, old.isOrdinary_face]
    exact ordinary other old leads stood

end Ordinary

namespace Tree

/-! ## Making entries -/

/-- Something that is made in a tree. -/
inductive Entry where
  /-- A directory without entries. -/
  | directory (place : Location)
  /-- A file with its contents. -/
  | file (place : Location) (contents : Text.Bytes)

/-- Where an entry is made. -/
def Entry.place : Entry → Location
  | .directory place => place
  | .file place _ => place

/-- An entry is made in a directory that is there: a directory where nothing stands, a file
where nothing or a file stands. -/
inductive Entry.Made (tree : Tree) : Entry → Tree → Prop where
  | directory {parent : Location} {name : String} {held : List (String × Node)}
      (stands : tree.get? parent = some (.directory held))
      (absent : tree.get? (parent ++ [name]) = none) :
      Made tree (.directory (parent ++ [name])) (tree.put (parent ++ [name]) .emptyDirectory)
  | file {parent : Location} {name : String} {held : List (String × Node)}
      {contents : Text.Bytes} {executable : Bool}
      (stands : tree.get? parent = some (.directory held))
      (free : tree.get? (parent ++ [name]) = none ∨
        ∃ old, tree.get? (parent ++ [name]) = some (.file old executable)) :
      Made tree (.file (parent ++ [name]) contents)
        (tree.put (parent ++ [name]) (.file contents executable))

/-- Entries are made one after the other. -/
inductive Makes : Tree → List Entry → Tree → Prop where
  | nil (tree : Tree) : Makes tree [] tree
  | cons {tree middle after : Tree} {entry : Entry} {entries : List Entry}
      (first : entry.Made tree middle) (others : Makes middle entries after) :
      Makes tree (entry :: entries) after

variable {tree middle after : Tree} {entry : Entry} {entries : List Entry}
variable {places : List Location} {place there : Location} {directory path : String}
variable {held : List (String × Node)} {contents : Text.Bytes} {executable : Bool} {node : Node}

namespace Entry.Made

/-- Making an entry is putting a directory or a file at its place, in a directory, where
nothing or a file stands. -/
theorem exists_put (made : entry.Made tree after) :
    ∃ parent name held new, entry.place = parent ++ [name] ∧
      tree.get? parent = some (.directory held) ∧ after = tree.put (parent ++ [name]) new ∧
      Ordinary [] new ∧
      ∀ node, tree.get? (parent ++ [name]) = some node → ∃ old flag, node = .file old flag := by
  cases made with
  | @directory parent name held stands absent =>
      refine ⟨parent, name, held, .emptyDirectory, rfl, stands, rfl, .emptyDirectory, ?_⟩
      rw [absent]
      exact nofun
  | @file parent name held contents executable stands free =>
      refine ⟨parent, name, held, .file contents executable, rfl, stands, rfl, .file _ _, ?_⟩
      intro node stood
      rcases free with absent | ⟨old, found⟩
      · rw [absent] at stood
        cases stood
      · rw [found] at stood
        cases stood
        exact ⟨old, executable, rfl⟩

/-- What stands elsewhere keeps its look. -/
theorem exists_face (made : entry.Made tree after) (stood : tree.get? there = some node)
    (other : entry.place ≠ there) :
    ∃ kept, after.get? there = some kept ∧ kept.face = node.face := by
  obtain ⟨parent, name, held, new, same, stands, rfl, _, free⟩ := made.exists_put
  rw [same] at other
  -- Nothing stands below the place of the entry.
  have outside : ¬ parent ++ [name] <+: there := by
    rintro ⟨rest, rfl⟩
    cases rest with
    | nil => exact other (List.append_nil _).symm
    | cons step rest =>
        rw [Node.get?_append] at stood
        obtain ⟨above, found, below⟩ := Option.bind_eq_some_iff.mp stood
        obtain ⟨old, flag, rfl⟩ := free above found
        cases below
  have looks := (Node.put_spec stands name new).1.face outside
  rw [stood, Option.map_some, Option.map_eq_some_iff] at looks
  exact looks

theorem place_ne_of_directory (made : entry.Made tree after)
    (stood : tree.get? there = some (.directory held)) : entry.place ≠ there := by
  rintro rfl
  obtain ⟨parent, name, _, new, same, _, _, _, free⟩ := made.exists_put
  rw [same] at stood
  obtain ⟨_, _, ⟨⟩⟩ := free _ stood

theorem exists_directory (made : entry.Made tree after)
    (stood : tree.get? there = some (.directory held)) :
    ∃ others, after.get? there = some (.directory others) := by
  obtain ⟨kept, found, same⟩ := made.exists_face stood (made.place_ne_of_directory stood)
  obtain ⟨others, rfl⟩ := Node.face_eq_emptyDirectory same
  exact ⟨others, found⟩

theorem exists_node (made : entry.Made tree after) :
    ∃ new, after.get? entry.place = some new := by
  obtain ⟨parent, name, held, new, same, stands, rfl, _⟩ := made.exists_put
  exact ⟨new, same ▸ (Node.put_spec stands name new).2⟩

theorem ordinary (made : entry.Made tree after) (before : Ordinary place tree) :
    Ordinary place after := by
  obtain ⟨parent, name, held, new, _, stands, rfl, clean, _⟩ := made.exists_put
  exact before.put stands clean

theorem of_directory (made : (Entry.directory place).Made tree after) :
    tree.get? place = none ∧ after.get? place = some .emptyDirectory := by
  generalize shape : Entry.directory place = entry at made
  cases made with
  | @directory parent name held stands absent =>
      cases shape
      exact ⟨absent, (Node.put_spec stands name .emptyDirectory).2⟩
  | file stands free => cases shape

theorem of_file (made : (Entry.file place contents).Made tree after) :
    ∃ flag, after.get? place = some (.file contents flag) := by
  generalize shape : Entry.file place contents = entry at made
  cases made with
  | directory stands absent => cases shape
  | @file parent name held _ executable stands free =>
      cases shape
      exact ⟨executable, (Node.put_spec stands name (.file contents executable)).2⟩

theorem ordinary_of_directory (made : (Entry.directory place).Made tree after) :
    Ordinary place after := by
  rintro other node ⟨rest, rfl⟩ found
  rw [Node.get?_append, made.of_directory.2, Option.bind_some] at found
  exact Ordinary.emptyDirectory rest node List.nil_prefix found

end Entry.Made

namespace Makes

theorem append (first : Makes tree entries middle) {more : List Entry}
    (second : Makes middle more after) : Makes tree (entries ++ more) after := by
  induction first with
  | nil => exact second
  | cons made others ih => exact .cons made (ih second)

/-- What stands where no entry is made keeps its look. -/
theorem exists_face (makes : Makes tree entries after) (stood : tree.get? there = some node)
    (apart : ∀ entry ∈ entries, entry.place ≠ there) :
    ∃ kept, after.get? there = some kept ∧ kept.face = node.face := by
  induction makes generalizing node with
  | nil tree => exact ⟨node, stood, rfl⟩
  | cons made others ih =>
      obtain ⟨later, found, same⟩ := made.exists_face stood (apart _ List.mem_cons_self)
      obtain ⟨kept, still, face⟩ :=
        ih found fun entry member => apart entry (List.mem_cons_of_mem _ member)
      exact ⟨kept, still, face.trans same⟩

theorem exists_directory (makes : Makes tree entries after)
    (stood : tree.get? there = some (.directory held)) :
    ∃ others, after.get? there = some (.directory others) := by
  induction makes generalizing held with
  | nil tree => exact ⟨held, stood⟩
  | cons made others ih =>
      obtain ⟨between, found⟩ := made.exists_directory stood
      exact ih found

/-- A file keeps its contents as long as no entry is made at its place. -/
theorem get?_file (makes : Makes tree entries after)
    (stood : tree.get? there = some (.file contents executable))
    (apart : ∀ entry ∈ entries, entry.place ≠ there) :
    after.get? there = some (.file contents executable) := by
  obtain ⟨kept, found, same⟩ := makes.exists_face stood apart
  rw [found]
  cases kept with
  | directory entries => cases same
  | file other flag => exact congrArg some same
  | program name => cases same
  | device zeros => cases same
  | link target => cases same

theorem ordinary (makes : Makes tree entries after) (before : Ordinary place tree) :
    Ordinary place after := by
  induction makes with
  | nil tree => exact before
  | cons made others ih => exact ih (made.ordinary before)

/-- A directory that was made was not there before, and is there then. -/
theorem of_mem (makes : Makes tree (places.map .directory) after) (member : place ∈ places) :
    tree.get? place = none ∧ ∃ held, after.get? place = some (.directory held) := by
  induction places generalizing tree with
  | nil => cases member
  | cons first places ih =>
      rw [List.map_cons] at makes
      cases makes with
      | cons made others =>
          rcases List.mem_cons.mp member with rfl | member
          · exact ⟨made.of_directory.1, others.exists_directory made.of_directory.2⟩
          · obtain ⟨missing, later⟩ := ih others member
            refine ⟨Option.eq_none_iff_forall_ne_some.mpr fun node stood => ?_, later⟩
            have other : (Entry.directory first).place ≠ place := by
              rintro rfl
              obtain ⟨new, found⟩ := made.exists_node
              rw [missing] at found
              cases found
            obtain ⟨kept, found, _⟩ := made.exists_face stood other
            rw [missing] at found
            cases found

theorem keeps (makes : Makes tree (places.map .directory) after) : Keeps tree after := by
  intro location node stood
  refine makes.exists_face stood fun entry member same => ?_
  obtain ⟨place, among, rfl⟩ := List.mem_map.mp member
  obtain rfl : place = location := same
  rw [(makes.of_mem among).1] at stood
  cases stood

/-- What is made while only a place changes is made at or below that place. -/
theorem prefix_of_mem (makes : Makes tree (places.map .directory) after)
    (only : ChangesOnly place tree after) (member : there ∈ places) : place <+: there := by
  obtain ⟨missing, held, found⟩ := makes.of_mem member
  refine Classical.byContradiction fun outside => ?_
  have same := only.face outside
  rw [missing, found] at same
  cases same

end Makes

/-! ## Making directories -/

/-- A directory that is made is one entry, and the path leads to it then. -/
theorem exists_makes_makeDirectory (made : tree.makeDirectory directory path = .ok after) :
    ∃ place, (Entry.directory place).Made tree after ∧
      after.place? directory path = some place := by
  obtain ⟨parent, name, held, missing, stands, rfl, arrives⟩ := exists_put_of_makeDirectory made
  exact ⟨parent ++ [name], .directory stands missing, place?_eq_some_iff.mpr ⟨[], arrives⟩⟩

/-- **Making the missing directories of some paths makes directories only**, each where one
of the paths leads then. -/
theorem exists_makes_makeChain (tree : Tree) (directory : String) (paths : List String) :
    ∃ places : List Location,
      Makes tree (places.map .directory) (tree.makeChain directory paths).2 ∧
      ∀ place ∈ places, ∃ path ∈ paths,
        (tree.makeChain directory paths).2.place? directory path = some place := by
  induction paths with
  | nil => exact ⟨[], .nil tree, List.forall_mem_nil _⟩
  | cons path parents ih =>
      obtain ⟨places, makes, leads⟩ := ih
      rcases makeChain_cases rfl with made | ⟨_, _, _, same⟩ | ⟨_, same | made⟩
      · obtain ⟨place, one, arrives⟩ := exists_makes_makeDirectory made
        refine ⟨[place], .cons one (.nil _), fun other member => ⟨path, List.mem_cons_self, ?_⟩⟩
        rw [List.mem_singleton.mp member, arrives]
      · rw [same]
        exact ⟨[], .nil tree, List.forall_mem_nil _⟩
      · -- The ancestors were made, and then the path was refused.
        rw [same]
        refine ⟨places, makes, fun place member => ?_⟩
        obtain ⟨other, among, arrives⟩ := leads place member
        exact ⟨other, List.mem_cons_of_mem path among, arrives⟩
      · obtain ⟨place, one, arrives⟩ := exists_makes_makeDirectory made
        have last : Makes _ ([place].map .directory) _ := .cons one (.nil _)
        refine ⟨places ++ [place], ?_, fun other member => ?_⟩
        · rw [List.map_append]
          exact makes.append last
        · rcases List.mem_append.mp member with earlier | latest
          · obtain ⟨ancestor, among, stands⟩ := leads other earlier
            exact ⟨ancestor, List.mem_cons_of_mem path among, place?_of_keeps last.keeps stands⟩
          · refine ⟨path, List.mem_cons_self, ?_⟩
            rw [List.mem_singleton.mp latest, arrives]

/-- Making a directory with its ancestors makes directories only, each where the path or
one of its ancestors leads then. -/
theorem exists_makes_ensureDirectory (tree : Tree) (directory path : String) :
    ∃ places : List Location,
      Makes tree (places.map .directory) (tree.ensureDirectory directory path).2 ∧
      ∀ place ∈ places, ∃ ancestor ∈ path :: (ancestry path).drop 1,
        (tree.ensureDirectory directory path).2.place? directory ancestor = some place := by
  rw [ensureDirectory]
  split
  · exact ⟨[], .nil tree, List.forall_mem_nil _⟩
  · exact exists_makes_makeChain tree directory _

/-! ## Writing a file -/

/-- Writing a file inside of a directory that holds nothing but directories and files
makes the file where its path leads. -/
theorem Prepared.made_write {before : Tree} (prepared : Prepared place before tree)
    (ordinary : Ordinary place tree)
    (within : ∀ there node, tree.Arrives true (stepsOf directory path) there node →
      place <+: there)
    (written : tree.write directory path contents false = .ok after) :
    Admissible path ∧ Path.endsInSlash path = false ∧ ∃ there node,
      tree.Arrives true (stepsOf directory path) there node ∧ place <+: there ∧ there ≠ place ∧
      (Entry.file there contents).Made tree after := by
  obtain ⟨admissible, plain, there, node, arrives, writes⟩ := write_eq_ok written
  have inside := within there node arrives
  obtain ⟨cost, least, leads⟩ := arrives
  have standing := leads.get?_eq
  refine ⟨admissible, plain, there, node, ⟨cost, least, leads⟩, inside, ?_⟩
  cases writes with
  | new =>
      obtain ⟨parent, name, held, rfl, stands⟩ := leads.exists_parent (by simp)
      exact ⟨prepared.ne_of_none standing, .file stands (.inl standing)⟩
  | @old old executable =>
      have other := prepared.ne_of_file standing
      obtain ⟨parent, name, held, rfl, stands⟩ := exists_parent inside other standing
      exact ⟨other, .file stands (.inr ⟨old, standing⟩)⟩
  | @device zeros => cases ordinary there (.device zeros) inside standing
  | @link target => cases ordinary there (.link target) inside standing

end Tree

end Polyglot.Host
