import Polyglot.Host.Tree
import Polyglot.Proofs.Tables

/-!
# Places in a tree

What stands at a location is changed by putting and deleting at that location, and at
the locations below it. Elsewhere nothing changes, and the directories above stay
directories (`ChangesOnly`). The lemmas here are what is used of putting and deleting;
nothing else looks into the tables of entries.

A change that takes place where nothing stood keeps everything else recognisable
(`Keeps`): whatever stood somewhere still stands there, and only directories may have
gained or lost entries.
-/

set_option autoImplicit false

namespace Polyglot

namespace Host

/-! ## What stands at a location -/

namespace Node

/-- A node without the entries of a directory. -/
def face : Node → Node
  | .directory _ => .emptyDirectory
  | node => node

theorem face_eq_emptyDirectory {node : Node} (same : node.face = .emptyDirectory) :
    ∃ entries, node = .directory entries := by
  cases node with
  | directory entries => exact ⟨entries, rfl⟩
  | file contents executable => cases same
  | program name => cases same
  | device zeros => cases same
  | link target => cases same

/-- Only a link looks like a link. -/
theorem face_eq_link {node : Node} {target : String} (same : node.face = .link target) :
    node = .link target := by
  cases node with
  | directory entries => cases same
  | file contents executable => exact same
  | program name => exact same
  | device zeros => exact same
  | link other => exact same

@[simp] theorem get?_nil (node : Node) : node.get? [] = some node := by
  cases node <;> rfl

@[simp] theorem get?_directory_cons (entries : List (String × Node)) (name : String)
    (rest : Location) :
    (directory entries).get? (name :: rest) = (Table.find? name entries).bind (get? rest) := rfl

/-- Nothing stands below a node that has no entries. -/
theorem get?_cons_eq_none {node : Node} (plain : ∀ entries, node ≠ .directory entries)
    {name : String} {rest : Location} : node.get? (name :: rest) = none := by
  cases node with
  | directory entries => exact absurd rfl (plain entries)
  | file contents executable => rfl
  | program name => rfl
  | device zeros => rfl
  | link target => rfl

theorem exists_entries_of_get?_cons {node child : Node} {name : String} {rest : Location}
    (found : node.get? (name :: rest) = some child) :
    ∃ entries, node = .directory entries := by
  refine Classical.byContradiction fun plain => ?_
  rw [get?_cons_eq_none (not_exists.mp plain)] at found
  cases found

theorem get?_append (first second : Location) (node : Node) :
    node.get? (first ++ second) = (node.get? first).bind (get? second) := by
  induction first generalizing node with
  | nil => simp
  | cons name first ih =>
      by_cases stands : ∃ entries, node = .directory entries
      · obtain ⟨entries, rfl⟩ := stands
        simp only [List.cons_append, get?_directory_cons, Option.bind_assoc]
        exact Option.bind_congr fun child _ => ih child
      · have plain := not_exists.mp stands
        rw [List.cons_append, get?_cons_eq_none plain, get?_cons_eq_none plain]
        rfl

/-- An entry of a directory stands below it. -/
theorem get?_concat {node : Node} {location : Location} {entries : List (String × Node)}
    (found : node.get? location = some (.directory entries)) (name : String) :
    node.get? (location ++ [name]) = Table.find? name entries := by
  rw [get?_append, found, Option.bind_some, get?_directory_cons]
  cases Table.find? name entries with
  | none => rfl
  | some child => exact get?_nil child

/-- What stands below a location stands where something stands. -/
theorem get?_eq_none_of_prefix {node : Node} {above below : Location}
    (missing : node.get? above = none) (leads : above <+: below) : node.get? below = none := by
  obtain ⟨rest, rfl⟩ := leads
  rw [get?_append, missing]
  rfl

end Node

/-! ## Changes at and below a location -/

/-- Two trees differ at a location and below it only. -/
structure ChangesOnly (place : Location) (before after : Node) : Prop where
  apart : ∀ other : Location, ¬ place <+: other → ¬ other <+: place →
    after.get? other = before.get? other
  above : ∀ other : Location, other <+: place → other ≠ place →
    (after.get? other).map Node.face = (before.get? other).map Node.face

namespace ChangesOnly

variable {place : Location} {before middle after : Node}

theorem refl (place : Location) (node : Node) : ChangesOnly place node node :=
  ⟨fun _ _ _ => rfl, fun _ _ _ => rfl⟩

theorem trans (first : ChangesOnly place before middle) (second : ChangesOnly place middle after) :
    ChangesOnly place before after where
  apart other below upper := (second.apart other below upper).trans (first.apart other below upper)
  above other upper differs :=
    (second.above other upper differs).trans (first.above other upper differs)

/-- What changes below a location changes below every location above it. -/
theorem mono {above : Location} (leads : above <+: place) (only : ChangesOnly place before after) :
    ChangesOnly above before after where
  apart other below upper := by
    refine only.apart other (fun further => below (leads.trans further)) fun further => ?_
    -- Two locations above one location are above one another.
    rcases List.prefix_or_prefix_of_prefix leads further with first | second
    · exact below first
    · exact upper second
  above other upper differs := by
    refine only.above other (upper.trans leads) ?_
    rintro rfl
    exact differs (upper.eq_of_length_le leads.length_le)

/-- Away from the change, and above it, everything looks the same. -/
theorem face (only : ChangesOnly place before after) {other : Location}
    (below : ¬ place <+: other) :
    (after.get? other).map Node.face = (before.get? other).map Node.face := by
  by_cases upper : other <+: place
  · refine only.above other upper ?_
    rintro rfl
    exact below List.prefix_rfl
  · rw [only.apart other below upper]

/-- The other entries of a directory are as before. -/
theorem sibling {home : Location} {name other : String}
    (only : ChangesOnly (home ++ [name]) before after) (differs : other ≠ name) :
    after.get? (home ++ [other]) = before.get? (home ++ [other]) := by
  refine only.apart _ (fun below => differs ?_) fun above => differs ?_
  · simpa using ((List.prefix_append_right_inj home).mp below).eq_of_length rfl |>.symm
  · simpa using ((List.prefix_append_right_inj home).mp above).eq_of_length rfl

/-- A change inside an entry of a directory. -/
theorem insert {name : String} {rest : Location} {entries : List (String × Node)}
    {child changed : Node} (found : Table.find? name entries = some child)
    (only : ChangesOnly rest child changed) :
    ChangesOnly (name :: rest) (.directory entries)
      (.directory (Table.insert name changed entries)) where
  apart other below upper := by
    cases other with
    | nil => exact absurd (List.nil_prefix) upper
    | cons step other =>
        rw [Node.get?_directory_cons, Node.get?_directory_cons]
        by_cases same : step = name
        · subst same
          rw [Table.find?_insert_self, found, Option.bind_some, Option.bind_some]
          refine only.apart other (fun further => below ?_) fun further => upper ?_
          · exact List.cons_prefix_cons.mpr ⟨rfl, further⟩
          · exact List.cons_prefix_cons.mpr ⟨rfl, further⟩
        · rw [Table.find?_insert_of_ne same]
  above other upper differs := by
    cases other with
    | nil => simp [Node.face]
    | cons step other =>
        obtain ⟨rfl, further⟩ := List.cons_prefix_cons.mp upper
        rw [Node.get?_directory_cons, Node.get?_directory_cons, Table.find?_insert_self, found,
          Option.bind_some, Option.bind_some]
        exact only.above other further fun same => differs (by rw [same])

/-- A change of one entry of a directory. -/
theorem of_entries {name : String} {entries changed : List (String × Node)}
    (others : ∀ step, step ≠ name → Table.find? step changed = Table.find? step entries) :
    ChangesOnly [name] (.directory entries) (.directory changed) where
  apart other below upper := by
    cases other with
    | nil => exact absurd (List.nil_prefix) upper
    | cons step other =>
        rw [Node.get?_directory_cons, Node.get?_directory_cons]
        by_cases same : step = name
        · subst same
          exact absurd (List.cons_prefix_cons.mpr ⟨rfl, List.nil_prefix⟩) below
        · rw [others step same]
  above other upper differs := by
    cases other with
    | nil => simp [Node.face]
    | cons step other =>
        obtain ⟨rfl, further⟩ := List.cons_prefix_cons.mp upper
        exact absurd (by rw [List.prefix_nil.mp further]) differs

end ChangesOnly

namespace Node

/-- Putting changes the place only, and the new node then stands there. -/
theorem put_spec {node : Node} {directory : Location} {entries : List (String × Node)}
    (stands : node.get? directory = some (.directory entries)) (name : String) (new : Node) :
    ChangesOnly (directory ++ [name]) node (node.put (directory ++ [name]) new) ∧
      (node.put (directory ++ [name]) new).get? (directory ++ [name]) = some new := by
  induction directory generalizing node with
  | nil =>
      rw [get?_nil, Option.some.injEq] at stands
      subst stands
      refine ⟨?_, ?_⟩
      · exact .of_entries fun step differs => Table.find?_insert_of_ne differs _ _
      · cases new <;> simp [put, Table.find?_insert_self]
  | cons step directory ih =>
      obtain ⟨outer, rfl⟩ := exists_entries_of_get?_cons stands
      rw [get?_directory_cons] at stands
      cases found : Table.find? step outer with
      | none => simp [found] at stands
      | some child =>
          rw [found, Option.bind_some] at stands
          obtain ⟨only, placed⟩ := ih stands
          rw [List.cons_append, put, found, Option.getD_some]
          refine ⟨only.insert found, ?_⟩
          rw [get?_directory_cons, Table.find?_insert_self, Option.bind_some]
          exact placed

/-- Putting below a place puts into what stands there. -/
theorem get?_put_append {node content : Node} {place : Location}
    (stands : node.get? place = some content) (rest : Location) (new : Node) :
    (node.put (place ++ rest) new).get? place = some (content.put rest new) := by
  induction place generalizing node with
  | nil =>
      rw [get?_nil, Option.some.injEq] at stands
      rw [stands, List.nil_append, get?_nil]
  | cons step place ih =>
      obtain ⟨entries, rfl⟩ := exists_entries_of_get?_cons stands
      rw [get?_directory_cons] at stands
      obtain ⟨child, found, further⟩ := Option.bind_eq_some_iff.mp stands
      rw [List.cons_append, put, found, Option.getD_some, get?_directory_cons,
        Table.find?_insert_self, Option.bind_some]
      exact ih further

/-- Deleting below an entry deletes inside of the entry. -/
theorem delete_cons {name : String} {rest : Location} (deeper : rest ≠ [])
    (entries : List (String × Node)) :
    (directory entries).delete (name :: rest) =
      match Table.find? name entries with
      | some child => .directory (Table.insert name (child.delete rest) entries)
      | none => .directory entries := by
  cases rest with
  | nil => exact absurd rfl deeper
  | cons step rest => rfl

/-- There is nothing to delete below a node that has no entries. -/
theorem delete_eq_self {node : Node} (plain : ∀ entries, node ≠ .directory entries)
    (place : Location) : node.delete place = node := by
  cases node with
  | directory entries => exact absurd rfl (plain entries)
  | file contents executable => rcases place with _ | ⟨_, _ | _⟩ <;> rfl
  | program name => rcases place with _ | ⟨_, _ | _⟩ <;> rfl
  | device zeros => rcases place with _ | ⟨_, _ | _⟩ <;> rfl
  | link target => rcases place with _ | ⟨_, _ | _⟩ <;> rfl

/-- Deleting changes the place only, and nothing stands there then. -/
theorem delete_spec (node : Node) (location : Location) (name : String) :
    ChangesOnly (location ++ [name]) node (node.delete (location ++ [name])) ∧
      (node.delete (location ++ [name])).get? (location ++ [name]) = none := by
  induction location generalizing node with
  | nil =>
      by_cases stands : ∃ entries, node = .directory entries
      · obtain ⟨entries, rfl⟩ := stands
        refine ⟨.of_entries fun step differs => Table.find?_filter_of_ne differs _, ?_⟩
        simp [delete, Table.find?_filter_self]
      · have plain := not_exists.mp stands
        rw [delete_eq_self plain]
        exact ⟨.refl _ _, get?_cons_eq_none plain⟩
  | cons step location ih =>
      by_cases stands : ∃ entries, node = .directory entries
      · obtain ⟨entries, rfl⟩ := stands
        rw [List.cons_append, delete_cons (by simp)]
        cases found : Table.find? step entries with
        | none => exact ⟨.refl _ _, by simp [found]⟩
        | some child =>
            obtain ⟨only, gone⟩ := ih child
            refine ⟨only.insert found, ?_⟩
            rw [get?_directory_cons, Table.find?_insert_self, Option.bind_some]
            exact gone
      · have plain := not_exists.mp stands
        rw [delete_eq_self plain]
        exact ⟨.refl _ _, get?_cons_eq_none plain⟩

end Node

/-! ## Changes that keep what stands -/

/-- What stands somewhere still stands there, but directories may have other entries. -/
def Keeps (before after : Node) : Prop :=
  ∀ (location : Location) (node : Node), before.get? location = some node →
    ∃ kept, after.get? location = some kept ∧ kept.face = node.face

namespace Keeps

variable {before middle after : Node}

/-- A directory stays a directory. -/
theorem directory (keeps : Keeps before after) {location : Location}
    {entries : List (String × Node)} (stands : before.get? location = some (.directory entries)) :
    ∃ others, after.get? location = some (.directory others) := by
  obtain ⟨kept, found, same⟩ := keeps location _ stands
  obtain ⟨others, rfl⟩ := Node.face_eq_emptyDirectory same
  exact ⟨others, found⟩

/-- An entry of a directory stays one of its entries. -/
theorem entry (keeps : Keeps before after) {location : Location} {name : String}
    {entries : List (String × Node)} {child : Node}
    (stands : before.get? location = some (.directory entries))
    (found : Table.find? name entries = some child) :
    ∃ others kept, after.get? location = some (.directory others) ∧
      Table.find? name others = some kept ∧ kept.face = child.face := by
  obtain ⟨others, still⟩ := keeps.directory stands
  obtain ⟨kept, standing, same⟩ := keeps _ child ((Node.get?_concat stands name).trans found)
  exact ⟨others, kept, still, (Node.get?_concat still name).symm.trans standing, same⟩

end Keeps

/-- A change where nothing stood keeps what stands. -/
theorem ChangesOnly.keeps {place : Location} {before after : Node}
    (only : ChangesOnly place before after) (missing : before.get? place = none) :
    Keeps before after := by
  intro location node stands
  have outside : ¬ place <+: location := by
    intro leads
    rw [Node.get?_eq_none_of_prefix missing leads] at stands
    cases stands
  have same := only.face outside
  rw [stands, Option.map_some, Option.map_eq_some_iff] at same
  exact same

/-! ## Places without links -/

/-- There is no link at a location or below it. -/
def Linkless (place : Location) (node : Node) : Prop :=
  ∀ (other : Location) (target : String), place <+: other → node.get? other ≠ some (.link target)

/-- Putting a node without links at or below a place makes no links there. -/
theorem Linkless.put {place : Location} {node : Node} (linkless : Linkless place node)
    {directory : Location} {entries : List (String × Node)}
    (stands : node.get? directory = some (.directory entries)) {name : String} {new : Node}
    (clean : Linkless [] new) : Linkless place (node.put (directory ++ [name]) new) := by
  obtain ⟨only, placed⟩ := Node.put_spec stands name new
  intro other target leads found
  by_cases below : directory ++ [name] <+: other
  · obtain ⟨rest, rfl⟩ := below
    rw [Node.get?_append, placed, Option.bind_some] at found
    exact clean rest target List.nil_prefix found
  · have same := only.face below
    rw [found, Option.map_some, eq_comm, Option.map_eq_some_iff] at same
    obtain ⟨old, stood, looks⟩ := same
    rw [Node.face_eq_link looks] at stood
    exact linkless other target leads stood

theorem linkless_emptyDirectory : Linkless [] .emptyDirectory := by
  intro other target _ found
  cases other with
  | nil => cases found
  | cons name rest => cases found

theorem linkless_file (contents : Text.Bytes) (executable : Bool) :
    Linkless [] (.file contents executable) := by
  intro other target _ found
  cases other with
  | nil => cases found
  | cons name rest => cases found

end Host

end Polyglot
