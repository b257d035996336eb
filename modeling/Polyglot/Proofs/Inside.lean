import Polyglot.Proofs.Making

/-!
# Changes inside of a new directory

A directory that was made for one purpose contains no links. A path that begins with the
path of that directory and does not go upwards ends inside of it (`Leads.under`), and so
does every beginning of such a path that leads to nothing (`Leads.under_of_prefix`).

Hence making directories and writing files along such paths changes nothing but the new
directory (`Prepared.makeChain`, `Prepared.write`).
-/

set_option autoImplicit false

namespace Polyglot.Host.Tree

variable {tree before after : Tree} {directory path : String} {throughLast : Bool}
variable {here there place parent : Location} {name : String} {node : Option Node}
variable {steps beyond : List String} {entries : List (String × Node)} {cost more : Nat}

/-! ## Paths into a directory -/

namespace Leads

/-- Steps that go on from a directory without links, and not upwards, end inside of it. -/
theorem under (front : Leads tree true cost here steps place (some (.directory entries)))
    (linkless : Linkless place tree) (down : ".." ∉ beyond)
    (leads : Leads tree true more here (steps ++ beyond) there node) : place <+: there := by
  by_cases ends : beyond = []
  · subst ends
    rw [List.append_nil] at leads
    exact (front.unique leads).1 ▸ List.prefix_rfl
  · obtain ⟨_, _, between, _, _, reaches, goes_on⟩ := leads.split ends
    obtain ⟨rfl, _⟩ := front.unique reaches
    exact goes_on.inside linkless List.prefix_rfl down

/-- When only the beginning of such steps leads to nothing, that is inside as well. -/
theorem under_of_prefix {beginning : List String}
    (front : Leads tree true cost here steps place (some (.directory entries)))
    (linkless : Linkless place tree) (down : ".." ∉ beyond)
    (begins : beginning <+: steps ++ beyond)
    (missing : Leads tree throughLast more here beginning there none) : place <+: there := by
  have ends := missing.of_none
  rcases List.prefix_or_prefix_of_prefix begins (List.prefix_append steps beyond) with
    outside | ⟨deeper, rfl⟩
  · -- Steps on the way to the directory lead to a directory.
    obtain ⟨rest, rfl⟩ := outside
    by_cases last : rest = []
    · subst last
      rw [List.append_nil] at front
      cases (front.unique ends).2
    · obtain ⟨_, _, _, _, _, reaches, _⟩ := front.split last
      cases (reaches.unique ends).2
  · have further : deeper <+: beyond := (List.prefix_append_right_inj steps).mp begins
    exact front.under linkless (fun up => down (further.subset up)) ends

end Leads

/-! ## A directory that is filled -/

/-- A tree differs from an older one only inside of a directory. -/
structure Within (place : Location) (before after : Tree) : Prop where
  only : ChangesOnly place before after
  stands : ∃ entries, after.get? place = some (.directory entries)

theorem Within.trans {between : Tree} (first : Within place before between)
    (second : Within place between after) : Within place before after :=
  ⟨first.only.trans second.only, second.stands⟩

/-- A tree differs from an older one only inside of a directory, and that holds no links. -/
structure Prepared (place : Location) (before after : Tree) : Prop
    extends Within place before after where
  linkless : Linkless place after

namespace Prepared

theorem put (prepared : Prepared place before tree) (within : place <+: parent ++ [name])
    (other : parent ++ [name] ≠ place) (stands : tree.get? parent = some (.directory entries))
    {new : Node} (clean : Linkless [] new) :
    Prepared place before (tree.put (parent ++ [name]) new) := by
  obtain ⟨only, placed⟩ := Node.put_spec stands name new
  refine ⟨⟨prepared.only.trans (only.mono within), ?_⟩, prepared.linkless.put stands clean⟩
  obtain ⟨held, standing⟩ := prepared.stands
  have looks := only.above place within (Ne.symm other)
  rw [standing, Option.map_some, Option.map_eq_some_iff] at looks
  obtain ⟨later, found, same⟩ := looks
  obtain ⟨others, rfl⟩ := Node.face_eq_emptyDirectory same
  exact ⟨others, found⟩

theorem ne_of_none (prepared : Prepared place before tree) (missing : tree.get? there = none) :
    there ≠ place := by
  rintro rfl
  obtain ⟨entries, standing⟩ := prepared.stands
  rw [standing] at missing
  cases missing

theorem ne_of_file (prepared : Prepared place before tree) {old : Text.Bytes} {executable : Bool}
    (standing : tree.get? there = some (.file old executable)) : there ≠ place := by
  rintro rfl
  obtain ⟨entries, stands⟩ := prepared.stands
  rw [stands] at standing
  cases standing

theorem makeDirectory (prepared : Prepared place before tree)
    (within : ∀ throughLast there,
      tree.Arrives throughLast (stepsOf directory path) there none → place <+: there)
    (made : tree.makeDirectory directory path = .ok after) : Prepared place before after := by
  obtain ⟨_, parent, name, entries, arrives, stands, rfl⟩ := makeDirectory_eq_ok made
  refine prepared.put (within _ _ arrives) (prepared.ne_of_none ?_) stands linkless_emptyDirectory
  obtain ⟨_, _, leads⟩ := arrives
  exact leads.get?_eq

/-- Making missing directories inside keeps the directory prepared. -/
theorem makeChain {paths : List String} (prepared : Prepared place before tree)
    (within : ∀ path ∈ paths, ∀ tree, Prepared place before tree → ∀ throughLast there,
      tree.Arrives throughLast (stepsOf directory path) there none → place <+: there) :
    Prepared place before (tree.makeChain directory paths).2 := by
  induction paths with
  | nil => exact prepared
  | cons path parents ih =>
      have above := ih fun path member => within path (List.mem_cons_of_mem _ member)
      have this := within path List.mem_cons_self
      rcases makeChain_cases rfl with made | ⟨_, _, _, same⟩ | ⟨_, same | made⟩
      · exact prepared.makeDirectory (this _ prepared) made
      · rw [same]
        exact prepared
      · rw [same]
        exact above
      · exact above.makeDirectory (this _ above) made

/-- What stands inside of a directory is an entry of a directory. -/
theorem exists_parent (inside : place <+: there) (other : there ≠ place) {stood : Node}
    (standing : tree.get? there = some stood) :
    ∃ parent name entries, there = parent ++ [name] ∧
      tree.get? parent = some (.directory entries) := by
  obtain ⟨rest, rfl⟩ := inside
  rcases List.eq_nil_or_concat rest with rfl | ⟨front, name, rfl⟩
  · exact absurd (List.append_nil place) other
  · rw [List.concat_eq_append, ← List.append_assoc, Node.get?_append] at standing
    obtain ⟨child, found, below⟩ := Option.bind_eq_some_iff.mp standing
    obtain ⟨entries, rfl⟩ := Node.exists_entries_of_get?_cons below
    exact ⟨place ++ front, name, entries, by simp, found⟩

/-- Writing a file inside keeps the directory prepared. -/
theorem write {contents : Text.Bytes} {atEnd : Bool} (prepared : Prepared place before tree)
    (within : ∀ there node, tree.Arrives true (stepsOf directory path) there node →
      place <+: there)
    (written : tree.write directory path contents atEnd = .ok after) :
    Prepared place before after := by
  obtain ⟨_, _, there, node, arrives, writes⟩ := write_eq_ok written
  have inside := within there node arrives
  obtain ⟨_, _, leads⟩ := arrives
  cases writes with
  | new =>
      have other := prepared.ne_of_none leads.get?_eq
      obtain ⟨parent, name, entries, rfl, stands⟩ := leads.exists_parent (by simp)
      exact prepared.put inside other stands (linkless_file _ _)
  | old =>
      have other := prepared.ne_of_file leads.get?_eq
      obtain ⟨parent, name, entries, rfl, stands⟩ := exists_parent inside other leads.get?_eq
      exact prepared.put inside other stands (linkless_file _ _)
  | device => exact prepared
  | link => exact prepared

end Prepared

end Polyglot.Host.Tree
