import Polyglot.Proofs.Components
import Polyglot.Proofs.Inside

/-!
# Ancestors of a path

The steps of an ancestor of a path are the first steps of the path, single points left
out (`stepsOf_ofComponents`). So making the ancestors of a path that does not go upwards
is making a lineage (`lineage_ancestry`), and making the ancestors of a file inside of a
prepared directory stays inside (`Prepared.ensureParent`).
-/

set_option autoImplicit false

namespace Polyglot.Host.Tree

open Polyglot.Path

variable {tree before : Tree} {directory path file : String} {place : Location}

/-! ## Steps of a path and of its ancestors -/

/-- The steps that come before those of a path. -/
def originOf (directory path : String) : List String :=
  if isAbsolute path then [] else pieces directory

theorem stepsOf_eq (directory path : String) :
    stepsOf directory path = originOf directory path ++ pieces path := by
  unfold stepsOf originOf
  cases absolutePath : isAbsolute path with
  | true => rw [join_of_isAbsolute absolutePath, if_pos rfl, List.nil_append]
  | false => rw [pieces_join absolutePath, if_neg Bool.false_ne_true]

/-- The steps of a joined path are those of its parts. -/
theorem stepsOf_join (relative : isAbsolute file = false) :
    stepsOf directory (join path file) = stepsOf directory path ++ pieces file := by
  rw [stepsOf_eq, stepsOf_eq, pieces_join relative, List.append_assoc]
  congr 1
  by_cases filled : path = ""
  · subst filled
    simp [originOf, join, relative, isAbsolute_empty]
  · rw [originOf, originOf, isAbsolute_join filled, relative, Bool.false_or]

theorem thins_stepsOf (directory path : String) :
    Thins (stepsOf directory path) (originOf directory path ++ names (components path)) := by
  rw [stepsOf_eq]
  exact (Thins.refl _).append (thins_names_components path)

/-- The path of the first components of a path has the first of its steps. -/
theorem stepsOf_ofComponents {front : List Component} (begins : front <+: components path)
    (nonempty : front ≠ []) :
    stepsOf directory (ofComponents front) = originOf directory path ++ names front := by
  have proper := Proper.of_begins (proper_components path) begins
  have sameOrigin : originOf directory (ofComponents front) = originOf directory path := by
    obtain ⟨first, others, rfl⟩ := List.exists_cons_of_ne_nil nonempty
    obtain ⟨rest, whole⟩ := begins
    rw [originOf, originOf, isAbsolute_ofComponents proper, ← head?_components path, ← whole]
    rfl
  rw [stepsOf_eq, sameOrigin, pieces_ofComponents proper]

/-! ## Making ancestors -/

theorem lineage_go {last : Component} {above : List Component}
    (begins : above.reverse ++ [last] <+: components path) (down : .parent ∉ above.reverse ++ [last])
    {longer : String} (filled : longer ≠ "")
    (thins : Thins (stepsOf directory longer)
      (originOf directory path ++ names (above.reverse ++ [last]))) :
    Lineage directory (longer :: ancestry.go above) := by
  induction above generalizing last longer with
  | nil => exact .alone filled
  | cons next above ih =>
      rw [List.reverse_cons] at begins down thins
      have outer : above.reverse ++ [next] <+: components path :=
        (List.prefix_append _ _).trans begins
      have proper := (proper_components path).of_begins begins
      have isStep := proper.isStep_last (by simp)
      have stepsOuter : stepsOf directory (ofComponents (above.reverse ++ [next])) =
          originOf directory path ++ names (above.reverse ++ [next]) :=
        stepsOf_ofComponents outer (by simp)
      have filledOuter : ofComponents (above.reverse ++ [next]) ≠ "" :=
        ofComponents_ne_empty ((proper_components path).of_begins outer) (by simp)
      have downOuter : .parent ∉ above.reverse ++ [next] := fun up =>
        down (List.mem_append_left _ up)
      have downLast : last ≠ .parent := by
        rintro rfl
        exact down (List.mem_append_right _ List.mem_cons_self)
      rw [ancestry_go_cons]
      refine .child filled isStep.text_ne_current (isStep.text_ne_parent downLast) ?_
        (ih outer downOuter filledOuter (stepsOuter ▸ .refl _))
      rw [stepsOuter, List.append_assoc, ← isStep.names_singleton, ← names_append]
      exact thins

/-- The ancestors of a path that does not go upwards are a lineage. -/
theorem lineage_ancestry (filled : path ≠ "") (down : ".." ∉ pieces path) :
    Lineage directory (path :: (ancestry path).drop 1) := by
  have downwards := mt parent_mem_components.mp down
  unfold ancestry
  rcases List.eq_nil_or_concat (components path) with none | ⟨front, last, shape⟩
  · rw [none]
    exact .alone filled
  · rw [List.concat_eq_append] at shape
    have thins := thins_stepsOf directory path
    rw [shape] at thins downwards
    rw [shape, List.reverse_append, List.reverse_singleton, List.singleton_append,
      ancestry_go_cons, List.drop_one, List.tail_cons]
    have begins : front.reverse.reverse ++ [last] <+: components path := by
      simp [shape]
    refine lineage_go begins ?_ filled ?_
    · rw [List.reverse_reverse]
      exact downwards
    · rw [List.reverse_reverse]
      exact thins

/-! ## Ancestors of a file inside of a directory -/

/-- The steps of a file name that stays inside go neither to the root nor upwards. -/
theorem relative_of_isInside (inside : isInside file = true) :
    isAbsolute file = false ∧ ".." ∉ pieces file :=
  let ⟨relative, _, down⟩ := isInside_iff.mp inside
  ⟨relative, down⟩

/-- A path of components comes before its ancestors. -/
theorem cons_ancestors {comps : List Component} (proper : Proper comps) (nonempty : comps ≠ []) :
    ofComponents comps :: (ancestry (ofComponents comps)).drop 1 = ancestry.go comps.reverse := by
  rcases List.eq_nil_or_concat comps with rfl | ⟨front, last, rfl⟩
  · exact absurd rfl nonempty
  · rw [List.concat_eq_append] at proper ⊢
    rw [ancestry, components_ofComponents proper, List.reverse_append, List.reverse_singleton,
      List.singleton_append, ancestry_go_cons, List.drop_one, List.tail_cons,
      List.reverse_reverse]

/-- The ancestors of a path of components are the paths of its first components. -/
theorem mem_ancestors {comps : List Component} (proper : Proper comps) {ancestor : String}
    (filled : ofComponents comps ≠ "")
    (member : ancestor ∈ ofComponents comps :: (ancestry (ofComponents comps)).drop 1) :
    ∃ front, front ≠ [] ∧ front <+: comps ∧ ancestor = ofComponents front := by
  have nonempty : comps ≠ [] := by
    rintro rfl
    exact filled rfl
  rw [cons_ancestors proper nonempty] at member
  simpa using mem_ancestry_go member

/-- Making the ancestors of a file inside of a prepared directory keeps it prepared. -/
theorem Prepared.ensureParent (prepared : Prepared place before tree)
    (filled : path ≠ "") (inside : isInside file = true)
    (front : ∀ tree, Prepared place before tree → ∃ cost entries,
      Leads tree true cost [] (stepsOf directory path) place (some (.directory entries))) :
    Prepared place before
      (tree.ensureDirectory directory (Workspace.parentOf (join path file))).2 := by
  obtain ⟨relative, down⟩ := relative_of_isInside inside
  rw [ensureDirectory]
  split
  · exact prepared
  · rename_i some_parent
    rw [parentOf_eq] at some_parent ⊢
    refine prepared.makeChain fun ancestor member tree prepared throughLast there arrives => ?_
    have begins := List.dropLast_prefix (components (join path file))
    obtain ⟨first, nonempty, leads, rfl⟩ := mem_ancestors
      ((proper_components _).of_begins begins) (by simpa using some_parent) member
    obtain ⟨cost, _, missing⟩ := arrives
    obtain ⟨reach, entries, whole⟩ := front tree prepared
    obtain ⟨less, _, thinner⟩ := whole.thin (thins_stepsOf directory path)
    rw [stepsOf_ofComponents (leads.trans begins) nonempty] at missing
    have below : ".." ∉ (pieces file).filter fun step => step != "." := fun up =>
      down (List.mem_filter.mp up).1
    refine thinner.under_of_prefix prepared.linkless below ?_ missing
    have whole : originOf directory (join path file) ++ names (components (join path file)) =
        originOf directory path ++ names (components path) ++
          (pieces file).filter fun step => step != "." := by
      rw [components_join filled relative, names_append, names_inner, originOf,
        isAbsolute_join filled, relative, Bool.false_or, ← List.append_assoc]
      rfl
    rw [← whole]
    exact (List.prefix_append_right_inj _).mpr (((leads.trans begins).filter _).map _)

end Polyglot.Host.Tree
