import Polyglot.Proofs.Following
import Polyglot.Workspace
import Mathlib.Data.List.Induction

/-!
# Steps and components of a path

A path that is joined to a directory has the steps of the directory and its own, unless
it is absolute (`pieces_join`). A path that is put together again from its components
has the components it was made of (`components_ofComponents`), so its ancestors are the
paths of the beginnings of its components (`mem_ancestry_go`, `parentOf_eq`).
-/

set_option autoImplicit false

namespace Polyglot.Path

/-! ## Pieces between slashes -/

theorem splitSlashes_ne_nil (chars : List Char) : splitSlashes chars ≠ [] := by
  cases chars with
  | nil => exact List.cons_ne_nil _ _
  | cons c rest =>
      rw [splitSlashes]
      split
      · exact List.cons_ne_nil _ _
      · split
        · exact List.cons_ne_nil _ _
        · exact List.cons_ne_nil _ _

/-- A slash separates the pieces before it from those behind it. -/
theorem splitSlashes_append (before behind : List Char) :
    splitSlashes (before ++ '/' :: behind) = splitSlashes before ++ splitSlashes behind := by
  induction before with
  | nil => rfl
  | cons c before ih =>
      obtain ⟨piece, pieces, shape⟩ := List.exists_cons_of_ne_nil (splitSlashes_ne_nil before)
      by_cases slash : c = '/'
      · simp [splitSlashes, slash, ih]
      · simp [splitSlashes, slash, ih, shape]

theorem splitSlashes_of_not_mem {chars : List Char} (plain : '/' ∉ chars) :
    splitSlashes chars = [chars] := by
  induction chars with
  | nil => rfl
  | cons c chars ih =>
      obtain ⟨other, rest⟩ := not_or.mp (mt List.mem_cons.mpr plain)
      simp [splitSlashes, Ne.symm other, ih rest]

/-- Characters without a slash belong to the piece behind them. -/
theorem splitSlashes_plain_append {front rest piece : List Char} {others : List (List Char)}
    (plain : '/' ∉ front) (split : splitSlashes rest = piece :: others) :
    splitSlashes (front ++ rest) = (front ++ piece) :: others := by
  induction front with
  | nil => exact split
  | cons c front ih =>
      obtain ⟨other, behind⟩ := not_or.mp (mt List.mem_cons.mpr plain)
      simp [splitSlashes, Ne.symm other, ih behind]

theorem not_mem_of_mem_splitSlashes {chars piece : List Char} (member : piece ∈ splitSlashes chars) :
    '/' ∉ piece := by
  induction chars generalizing piece with
  | nil =>
      rw [List.mem_singleton.mp member]
      exact List.not_mem_nil
  | cons c chars ih =>
      obtain ⟨first, others, shape⟩ := List.exists_cons_of_ne_nil (splitSlashes_ne_nil chars)
      rw [shape] at ih
      by_cases slash : c = '/'
      · simp only [splitSlashes, slash, if_true, shape, List.mem_cons] at member
        rcases member with rfl | member
        · exact List.not_mem_nil
        · exact ih (List.mem_cons.mpr member)
      · simp only [splitSlashes, slash, if_false, shape, List.mem_cons] at member
        rcases member with rfl | member
        · have rest := ih List.mem_cons_self
          simpa [Ne.symm slash] using rest
        · exact ih (List.mem_cons_of_mem _ member)

@[simp] theorem pieces_empty : pieces "" = [] := rfl

theorem pieces_append (before behind : String) :
    pieces (before ++ "/" ++ behind) = pieces before ++ pieces behind := by
  have chars : (before ++ "/" ++ behind).toList = before.toList ++ '/' :: behind.toList := by
    simp [String.toList_append]
  rw [pieces, chars, splitSlashes_append, List.filter_append, List.map_append]
  rfl

/-- A text without slashes is one piece. -/
theorem pieces_of_plain {text : String} (plain : '/' ∉ text.toList) (nonempty : text ≠ "") :
    pieces text = [text] := by
  have filled : text.toList.isEmpty = false := by
    simpa [String.toList_eq_nil_iff] using nonempty
  simp [pieces, splitSlashes_of_not_mem plain, filled, String.ofList_toList]

theorem mem_pieces {path piece : String} (member : piece ∈ pieces path) :
    piece ≠ "" ∧ '/' ∉ piece.toList := by
  simp only [pieces, List.mem_map, List.mem_filter] at member
  obtain ⟨chars, ⟨split, filled⟩, rfl⟩ := member
  rw [String.toList_ofList]
  refine ⟨?_, not_mem_of_mem_splitSlashes split⟩
  intro empty
  have none : chars = [] := by
    simpa using congrArg String.toList empty
  simp [none] at filled

/-- The pieces of a relative path come behind those of its directory. -/
theorem pieces_join {base path : String} (relative : isAbsolute path = false) :
    pieces (join base path) = pieces base ++ pieces path := by
  by_cases empty : base.isEmpty
  · simp [join, String.isEmpty_iff.mp empty]
  · by_cases slash : base.toList.getLast? = some '/'
    · obtain ⟨front, shape⟩ := List.getLast?_eq_some_iff.mp slash
      have base_eq : base = String.ofList front ++ "/" ++ "" := by
        apply String.toList_injective
        simp [String.toList_append, shape]
      have joined : join base path = String.ofList front ++ "/" ++ path := by
        rw [join, relative, if_neg (by simpa using empty), if_pos slash, base_eq]
        simp [String.append_assoc]
      rw [joined, pieces_append, base_eq, pieces_append]
      simp
    · have joined : join base path = base ++ "/" ++ path := by
        rw [join, relative, if_neg (by simpa using empty), if_neg slash]
      rw [joined, pieces_append]

theorem isAbsolute_empty : isAbsolute "" = false := rfl

/-- A joined path is absolute when its right side or its left side is. -/
theorem isAbsolute_join {base path : String} (filled : base ≠ "") :
    isAbsolute (join base path) = (isAbsolute path || isAbsolute base) := by
  cases absolutePath : isAbsolute path with
  | true => rw [join_of_isAbsolute absolutePath, absolutePath, Bool.true_or]
  | false =>
      obtain ⟨first, rest, shape⟩ := List.exists_cons_of_ne_nil
        (mt String.toList_eq_nil_iff.mp filled)
      have nonempty : base.isEmpty = false := by
        simpa [String.isEmpty_iff] using filled
      rw [join, absolutePath, nonempty, Bool.false_or, Bool.false_or, if_neg Bool.false_ne_true]
      split
      · simp [isAbsolute, String.toList_append, shape]
      · simp [isAbsolute, String.toList_append, shape]

theorem exists_last {path : String} (filled : path ≠ "") : ∃ last, path.toList.getLast? = some last :=
  ⟨_, List.getLast?_eq_some_getLast (mt String.toList_eq_nil_iff.mp filled)⟩

/-- A joined path ends as its right side does. -/
theorem endsInSlash_join {base path : String} (filled : path ≠ "") :
    endsInSlash (join base path) = endsInSlash path := by
  obtain ⟨last, ends⟩ := exists_last filled
  unfold join
  split
  · rfl
  · split
    · simp [endsInSlash, String.toList_append, List.getLast?_append, ends]
    · simp [endsInSlash, String.toList_append, List.getLast?_append, List.getLast?_cons, ends]

/-! ## Components and their names -/

/-- The components of the pieces behind the front of a path. -/
def inner (steps : List String) : List Component :=
  (steps.filter fun step => step != ".").map componentOf

/-- The texts of the components that are steps of a path. -/
def names (comps : List Component) : List String :=
  (comps.filter fun comp => comp != .root).map Component.text

@[simp] theorem components_empty : components "" = [] := rfl

theorem components_of_isAbsolute {path : String} (absolutePath : isAbsolute path = true) :
    components path = .root :: inner (pieces path) := by
  simp [components, absolutePath, inner]

theorem components_of_point {path : String} {rest : List String}
    (relative : isAbsolute path = false) (point : pieces path = "." :: rest) :
    components path = .current :: inner rest := by
  simp [components, relative, point, inner]

theorem components_of_relative {path : String} (relative : isAbsolute path = false)
    (plain : ∀ rest, pieces path ≠ "." :: rest) : components path = inner (pieces path) := by
  rw [components, relative, if_neg Bool.false_ne_true]
  split
  · rename_i rest point
    exact absurd point (plain rest)
  · rfl

/-- The components of a path begin with the root, with a single point, or with a step. -/
theorem components_cases (path : String) :
    (isAbsolute path = true ∧ components path = .root :: inner (pieces path)) ∨
    (isAbsolute path = false ∧
      ∃ rest, pieces path = "." :: rest ∧ components path = .current :: inner rest) ∨
    (isAbsolute path = false ∧ components path = inner (pieces path)) := by
  cases absolutePath : isAbsolute path with
  | true => exact .inl ⟨rfl, components_of_isAbsolute absolutePath⟩
  | false =>
      by_cases point : ∃ rest, pieces path = "." :: rest
      · obtain ⟨rest, shape⟩ := point
        exact .inr (.inl ⟨rfl, rest, shape, components_of_point absolutePath shape⟩)
      · exact .inr (.inr ⟨rfl, components_of_relative absolutePath (not_exists.mp point)⟩)

theorem inner_append (first second : List String) :
    inner (first ++ second) = inner first ++ inner second := by
  rw [inner, List.filter_append, List.map_append]
  rfl

theorem names_append (first second : List Component) :
    names (first ++ second) = names first ++ names second := by
  rw [names, List.filter_append, List.map_append]
  rfl

theorem text_componentOf (piece : String) : (componentOf piece).text = piece := by
  unfold componentOf
  split
  · rename_i parent
    exact parent.symm
  · rfl

theorem names_inner (steps : List String) :
    names (inner steps) = steps.filter fun step => step != "." := by
  have others : ∀ step, (componentOf step != .root) = true := by
    intro step
    unfold componentOf
    split
    · rfl
    · rfl
  simp [names, inner, List.filter_map, Function.comp_def, others, text_componentOf]

/-- The names of the components are the pieces without the single points inside. -/
theorem thins_names_components (path : String) :
    Host.Tree.Thins (pieces path) (names (components path)) := by
  rcases components_cases path with ⟨_, shape⟩ | ⟨_, rest, point, shape⟩ | ⟨_, shape⟩
  · rw [shape]
    exact names_inner (pieces path) ▸ .filter (pieces path)
  · have kept : names (.current :: inner rest) = "." :: names (inner rest) := rfl
    rw [shape, point, kept, names_inner]
    exact .keep "." (.filter rest)
  · rw [shape, names_inner]
    exact .filter (pieces path)

theorem parent_mem_inner {steps : List String} : .parent ∈ inner steps ↔ ".." ∈ steps := by
  simp only [inner, List.mem_map, List.mem_filter]
  constructor
  · rintro ⟨step, ⟨member, _⟩, upwards⟩
    rw [← text_componentOf step, upwards] at member
    exact member
  · intro member
    exact ⟨"..", ⟨member, by decide⟩, by decide⟩

/-- A path goes upwards when one of its components does. -/
theorem parent_mem_components {path : String} : .parent ∈ components path ↔ ".." ∈ pieces path := by
  rcases components_cases path with ⟨_, shape⟩ | ⟨_, rest, point, shape⟩ | ⟨_, shape⟩
  · simp [shape, parent_mem_inner]
  · simp [shape, point, parent_mem_inner]
  · rw [shape, parent_mem_inner]

/-- Behind the front, every component is a name unless the path goes upwards. -/
theorem exists_normal_of_mem_inner {steps : List String} (down : ".." ∉ steps) {comp : Component}
    (member : comp ∈ inner steps) : ∃ name, comp = .normal name := by
  simp only [inner, List.mem_map, List.mem_filter] at member
  obtain ⟨step, ⟨among, _⟩, rfl⟩ := member
  have other : step ≠ ".." := fun up => down (up ▸ among)
  exact ⟨step, if_neg other⟩

/-- **A path stays inside when it neither starts at the root or with a single point, nor
goes upwards.** -/
theorem isInside_iff {path : String} :
    isInside path = true ↔
      isAbsolute path = false ∧ (pieces path).head? ≠ some "." ∧ ".." ∉ pieces path := by
  constructor
  · intro inside
    have named : ∀ comp ∈ components path, ∃ name, comp = .normal name := by
      intro comp member
      have isNormal := List.all_eq_true.mp inside comp member
      cases comp with
      | normal name => exact ⟨name, rfl⟩
      | root => cases isNormal
      | current => cases isNormal
      | parent => cases isNormal
    have relative : isAbsolute path = false := by
      refine Bool.eq_false_iff.mpr fun absolutePath => ?_
      rw [components_of_isAbsolute absolutePath] at named
      obtain ⟨_, ⟨⟩⟩ := named _ List.mem_cons_self
    refine ⟨relative, fun point => ?_, fun up => ?_⟩
    · obtain ⟨rest, shape⟩ := List.head?_eq_some_iff.mp point
      rw [components_of_point relative shape] at named
      obtain ⟨_, ⟨⟩⟩ := named _ List.mem_cons_self
    · obtain ⟨_, ⟨⟩⟩ := named _ (parent_mem_components.mpr up)
  · rintro ⟨relative, front, down⟩
    have plain : ∀ rest, pieces path ≠ "." :: rest := by
      intro rest shape
      exact front (by rw [shape, List.head?_cons])
    rw [isInside, components_of_relative relative plain, List.all_eq_true]
    intro comp member
    obtain ⟨name, rfl⟩ := exists_normal_of_mem_inner down member
    rfl

/-- The components of a path that stays inside are its steps without single points. -/
theorem components_of_isInside {path : String} (inside : isInside path = true) :
    components path = inner (pieces path) := by
  obtain ⟨relative, front, _⟩ := isInside_iff.mp inside
  refine components_of_relative relative fun rest shape => front ?_
  rw [shape, List.head?_cons]

/-- A path is absolute when the root is its first component. -/
theorem head?_components (path : String) :
    ((components path).head? == some .root) = isAbsolute path := by
  have others (steps : List String) : ((inner steps).head? == some .root) = false := by
    refine beq_eq_false_iff_ne.mpr fun first => ?_
    have member := List.mem_of_mem_head? first
    simp only [inner, List.mem_map, componentOf] at member
    obtain ⟨step, _, same⟩ := member
    split at same
    · cases same
    · cases same
  rcases components_cases path with ⟨absolutePath, shape⟩ | ⟨relative, rest, _, shape⟩ |
    ⟨relative, shape⟩
  · rw [shape, absolutePath]
    rfl
  · rw [shape, relative]
    rfl
  · rw [shape, relative]
    exact others (pieces path)

/-- A relative path that is not empty has a piece. -/
theorem pieces_ne_nil {path : String} (relative : isAbsolute path = false) (filled : path ≠ "") :
    pieces path ≠ [] := by
  obtain ⟨first, rest, shape⟩ := List.exists_cons_of_ne_nil (mt String.toList_eq_nil_iff.mp filled)
  have other : first ≠ '/' := by
    simpa [isAbsolute, shape] using relative
  obtain ⟨piece, others, split⟩ := List.exists_cons_of_ne_nil (splitSlashes_ne_nil rest)
  simp [pieces, shape, splitSlashes, other, split]

/-- A file that stays inside has a component, unless it has no name. -/
theorem inner_pieces_ne_nil {file : String} (inside : isInside file = true) (filled : file ≠ "") :
    inner (pieces file) ≠ [] := by
  obtain ⟨relative, front, _⟩ := isInside_iff.mp inside
  obtain ⟨piece, rest, shape⟩ := List.exists_cons_of_ne_nil (pieces_ne_nil relative filled)
  have other : piece ≠ "." := by
    rintro rfl
    exact front (by rw [shape, List.head?_cons])
  simp [inner, shape, other]

/-- The components of a relative path come behind those of its directory. -/
theorem components_join {base path : String} (filled : base ≠ "")
    (relative : isAbsolute path = false) :
    components (join base path) = components base ++ inner (pieces path) := by
  have absoluteBoth : isAbsolute (join base path) = isAbsolute base := by
    rw [isAbsolute_join filled, relative, Bool.false_or]
  cases absolutePath : isAbsolute base with
  | true =>
      rw [components_of_isAbsolute (absoluteBoth.trans absolutePath), pieces_join relative,
        inner_append, components_of_isAbsolute absolutePath, List.cons_append]
  | false =>
      obtain ⟨piece, rest, shape⟩ := List.exists_cons_of_ne_nil (pieces_ne_nil absolutePath filled)
      have joined : pieces (join base path) = piece :: (rest ++ pieces path) := by
        rw [pieces_join relative, shape, List.cons_append]
      by_cases point : piece = "."
      · subst point
        rw [components_of_point (absoluteBoth.trans absolutePath) joined, inner_append,
          components_of_point absolutePath shape, List.cons_append]
      · rw [components_of_relative (absoluteBoth.trans absolutePath) (by simp [joined, point]),
          components_of_relative absolutePath (by simp [shape, point]), joined, shape,
          ← List.cons_append, inner_append]

/-! ## Paths of components -/

/-- The path of some components. -/
def ofComponents (comps : List Component) : String :=
  comps.foldl (fun path comp => join path comp.text) ""

/-- A component that may stand behind another one. -/
def Component.IsStep : Component → Prop
  | .parent => True
  | .normal name => name ≠ "" ∧ '/' ∉ name.toList ∧ name ≠ "." ∧ name ≠ ".."
  | _ => False

/-- Components in the order in which a path may have them. -/
inductive Proper : List Component → Prop where
  | nil : Proper []
  | root : Proper [.root]
  | current : Proper [.current]
  | step {comps : List Component} {last : Component} (front : Proper comps)
      (isStep : last.IsStep) : Proper (comps ++ [last])

/-- The first of such components are such components. -/
theorem Proper.of_begins {comps front : List Component} (proper : Proper comps)
    (begins : front <+: comps) : Proper front := by
  induction proper with
  | nil => exact List.prefix_nil.mp begins ▸ .nil
  | root =>
      rcases List.prefix_cons_iff.mp begins with rfl | ⟨rest, rfl, ends⟩
      · exact .nil
      · exact List.prefix_nil.mp ends ▸ .root
  | current =>
      rcases List.prefix_cons_iff.mp begins with rfl | ⟨rest, rfl, ends⟩
      · exact .nil
      · exact List.prefix_nil.mp ends ▸ .current
  | step proper isStep ih =>
      rcases List.prefix_concat_iff.mp begins with rfl | earlier
      · exact .step proper isStep
      · exact ih earlier

/-- A component behind another one is a step. -/
theorem Proper.isStep_last {front : List Component} {last : Component}
    (proper : Proper (front ++ [last])) (behind : front ≠ []) : last.IsStep := by
  generalize whole : front ++ [last] = comps at proper
  cases proper with
  | nil => simp at whole
  | root => simp [List.append_eq_singleton_iff, behind] at whole
  | current => simp [List.append_eq_singleton_iff, behind] at whole
  | step proper isStep =>
      obtain ⟨_, same⟩ := List.append_inj' whole rfl
      exact List.singleton_inj.mp same ▸ isStep

theorem isStep_componentOf {piece : String} (filled : piece ≠ "") (plain : '/' ∉ piece.toList)
    (other : piece ≠ ".") : (componentOf piece).IsStep := by
  unfold componentOf
  split
  · trivial
  · rename_i name
    exact ⟨filled, plain, other, name⟩

theorem Proper.append_inner {comps : List Component} (proper : Proper comps) {steps : List String}
    (plain : ∀ piece ∈ steps, piece ≠ "" ∧ '/' ∉ piece.toList) : Proper (comps ++ inner steps) := by
  induction steps generalizing comps with
  | nil => simpa [inner] using proper
  | cons piece rest ih =>
      have others := fun other member => plain other (List.mem_cons_of_mem piece member)
      rw [← List.singleton_append, inner_append, ← List.append_assoc]
      refine ih ?_ others
      by_cases point : piece = "."
      · simpa [inner, point] using proper
      · obtain ⟨filled, noSlash⟩ := plain piece List.mem_cons_self
        simpa [inner, point] using proper.step (isStep_componentOf filled noSlash point)

theorem proper_components (path : String) : Proper (components path) := by
  have plain : ∀ piece ∈ pieces path, piece ≠ "" ∧ '/' ∉ piece.toList := fun _ => mem_pieces
  rcases components_cases path with ⟨_, shape⟩ | ⟨_, rest, point, shape⟩ | ⟨_, shape⟩
  · rw [shape]
    exact Proper.root.append_inner plain
  · rw [shape]
    refine Proper.current.append_inner fun piece member => plain piece ?_
    exact point ▸ List.mem_cons_of_mem "." member
  · rw [shape]
    exact Proper.nil.append_inner plain

theorem ofComponents_concat (comps : List Component) (last : Component) :
    ofComponents (comps ++ [last]) = join (ofComponents comps) last.text := by
  simp [ofComponents, List.foldl_append]

section Step

variable {comp : Component}

theorem Component.IsStep.text_ne_empty (isStep : comp.IsStep) : comp.text ≠ "" := by
  cases comp with
  | parent => decide
  | normal name => exact isStep.1
  | root => cases isStep
  | current => cases isStep

theorem Component.IsStep.text_ne_current (isStep : comp.IsStep) : comp.text ≠ "." := by
  cases comp with
  | parent => decide
  | normal name => exact isStep.2.2.1
  | root => cases isStep
  | current => cases isStep

/-- Only the step upwards has its text. -/
theorem Component.IsStep.text_ne_parent (isStep : comp.IsStep) (down : comp ≠ .parent) :
    comp.text ≠ ".." := by
  cases comp with
  | parent => exact absurd rfl down
  | normal name => exact isStep.2.2.2
  | root => cases isStep
  | current => cases isStep

theorem Component.IsStep.pieces_text (isStep : comp.IsStep) : pieces comp.text = [comp.text] := by
  cases comp with
  | parent => decide
  | normal name => exact pieces_of_plain isStep.2.1 isStep.1
  | root => cases isStep
  | current => cases isStep

theorem isAbsolute_of_plain {text : String} (plain : '/' ∉ text.toList) :
    isAbsolute text = false := by
  cases shape : text.toList with
  | nil => simp [isAbsolute, shape]
  | cons first rest =>
      rw [shape] at plain
      simpa [isAbsolute, shape] using Ne.symm (not_or.mp (mt List.mem_cons.mpr plain)).1

theorem Component.IsStep.isAbsolute_text (isStep : comp.IsStep) :
    isAbsolute comp.text = false := by
  cases comp with
  | parent => decide
  | normal name => exact isAbsolute_of_plain isStep.2.1
  | root => cases isStep
  | current => cases isStep

theorem Component.IsStep.inner_text (isStep : comp.IsStep) : inner [comp.text] = [comp] := by
  cases comp with
  | parent => decide
  | normal name => simp [inner, componentOf, Component.text, isStep.2.2.1, isStep.2.2.2]
  | root => cases isStep
  | current => cases isStep

theorem Component.IsStep.ne_root (isStep : comp.IsStep) : comp ≠ .root := by
  rintro rfl
  cases isStep

theorem Component.IsStep.names_singleton (isStep : comp.IsStep) : names [comp] = [comp.text] := by
  simp [names, isStep.ne_root]

end Step

section Proper

variable {comps : List Component}

theorem ofComponents_ne_empty (proper : Proper comps) (nonempty : comps ≠ []) :
    ofComponents comps ≠ "" := by
  cases proper with
  | nil => exact absurd rfl nonempty
  | root => decide
  | current => decide
  | @step front last proper isStep =>
      rw [ofComponents_concat]
      intro empty
      have chars := congrArg String.toList empty
      unfold join at chars
      split at chars
      · exact isStep.text_ne_empty (String.toList_injective chars)
      · split at chars
        · simp [String.toList_append, isStep.text_ne_empty] at chars
        · simp [String.toList_append] at chars

theorem isAbsolute_ofComponents (proper : Proper comps) :
    isAbsolute (ofComponents comps) = (comps.head? == some .root) := by
  induction proper with
  | nil => rfl
  | root => decide
  | current => decide
  | @step front last proper isStep ih =>
      rw [ofComponents_concat]
      by_cases nonempty : front = []
      · subst nonempty
        have other : (last == Component.root) = false := beq_eq_false_iff_ne.mpr isStep.ne_root
        simpa [ofComponents, join, other] using isStep.isAbsolute_text
      · obtain ⟨first, rest, rfl⟩ := List.exists_cons_of_ne_nil nonempty
        rw [isAbsolute_join (ofComponents_ne_empty proper nonempty), isStep.isAbsolute_text,
          Bool.false_or, ih, List.cons_append, List.head?_cons, List.head?_cons]

/-- The pieces of a path of components are the names of these. -/
theorem pieces_ofComponents (proper : Proper comps) :
    pieces (ofComponents comps) = names comps := by
  induction proper with
  | nil => rfl
  | root => decide
  | current => decide
  | step proper isStep ih =>
      rw [ofComponents_concat, pieces_join isStep.isAbsolute_text, isStep.pieces_text, ih,
        names_append, isStep.names_singleton]

/-- **A path of components has these components.** -/
theorem components_ofComponents (proper : Proper comps) :
    components (ofComponents comps) = comps := by
  induction proper with
  | nil => rfl
  | root => decide
  | current => decide
  | @step front last proper isStep ih =>
      rw [ofComponents_concat]
      by_cases nonempty : front = []
      · subst nonempty
        have alone : join (ofComponents []) last.text = last.text := by
          simp [ofComponents, join]
        have plain : ∀ rest, pieces last.text ≠ "." :: rest := by
          intro rest same
          rw [isStep.pieces_text, List.cons.injEq] at same
          have gone := isStep.inner_text
          rw [same.1] at gone
          cases gone
        rw [alone, components_of_relative isStep.isAbsolute_text plain, isStep.pieces_text,
          isStep.inner_text]
        rfl
      · rw [components_join (ofComponents_ne_empty proper nonempty) isStep.isAbsolute_text, ih,
          isStep.pieces_text, isStep.inner_text]

end Proper

/-! ## Absolute paths -/

/-- What the steps of a path are joined to when the path is made absolute. -/
def absoluteStart (processDirectory path : String) : String :=
  if isAbsolute path = false then processDirectory
  else if path.toList.take 2 = ['/', '/'] ∧ path.toList.take 3 ≠ ['/', '/', '/'] then "//"
  else "/"

/-- The steps of a path are its components without a point and without the root. -/
theorem filter_components (path : String) :
    ((components path).filter fun step => step != .current).filter (fun step => step != .root) =
      inner (pieces path) := by
  have steps : ∀ pieces : List String, ((inner pieces).filter fun step => step != .current).filter
      (fun step => step != .root) = inner pieces := by
    intro pieces
    rw [List.filter_filter, List.filter_eq_self]
    intro comp member
    obtain ⟨step, _, rfl⟩ := List.mem_map.mp member
    unfold componentOf
    split
    · rfl
    · rfl
  rcases components_cases path with ⟨_, shape⟩ | ⟨_, rest, point, shape⟩ | ⟨_, shape⟩
  · rw [shape]
    exact steps (pieces path)
  · rw [shape, point]
    exact steps rest
  · rw [shape, steps]

/-- An absolute path is joined from the pieces that are no single points. -/
theorem absolute_eq (processDirectory path : String) :
    absolute processDirectory path =
      let whole := ((pieces path).filter fun step => step != ".").foldl join
        (absoluteStart processDirectory path)
      if endsInSlash path && !endsInSlash whole then whole ++ "/" else whole := by
  have start : (if !isAbsolute path then processDirectory
      else if path.toList.take 2 = ['/', '/'] ∧ path.toList.take 3 ≠ ['/', '/', '/'] then "//"
      else "/") = absoluteStart processDirectory path := by
    simp only [absoluteStart, Bool.not_eq_true']
  simp only [absolute, start, filter_components, inner, List.foldl_map, text_componentOf]

/-! ## Ancestors -/

open Host.Tree (ancestry)

theorem ancestry_go_cons (last : Component) (above : List Component) :
    ancestry.go (last :: above) =
      ofComponents (above.reverse ++ [last]) :: ancestry.go above := by
  rw [ancestry.go, List.reverse_cons]
  rfl

/-- The ancestors are the paths of the beginnings of the components. -/
theorem mem_ancestry_go {comps : List Component} {ancestor : String}
    (member : ancestor ∈ ancestry.go comps) :
    ∃ front, front ≠ [] ∧ front <+: comps.reverse ∧ ancestor = ofComponents front := by
  induction comps with
  | nil => exact absurd member List.not_mem_nil
  | cons last above ih =>
      rw [ancestry_go_cons, List.mem_cons] at member
      rw [List.reverse_cons]
      rcases member with rfl | member
      · exact ⟨above.reverse ++ [last], by simp, List.prefix_rfl, rfl⟩
      · obtain ⟨front, nonempty, leads, rfl⟩ := ih member
        exact ⟨front, nonempty, leads.trans (List.prefix_append _ _), rfl⟩

theorem parentOf_eq (path : String) :
    Workspace.parentOf path = ofComponents (components path).dropLast := by
  unfold Workspace.parentOf ancestry
  rcases List.eq_nil_or_concat (components path) with none | ⟨front, last, shape⟩
  · rw [none]
    rfl
  · rw [shape, List.concat_eq_append, List.reverse_append, List.reverse_singleton,
      List.singleton_append, ancestry_go_cons, List.drop_one, List.tail_cons,
      List.dropLast_concat]
    rcases List.eq_nil_or_concat front with rfl | ⟨outer, inmost, rfl⟩
    · rfl
    · rw [List.concat_eq_append, List.reverse_append, List.reverse_singleton,
        List.singleton_append, ancestry_go_cons, List.reverse_reverse]
      rfl

end Polyglot.Path
