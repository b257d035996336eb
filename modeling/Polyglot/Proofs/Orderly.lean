import Polyglot.Proofs.Components

/-!
# Orderly paths

A path is made absolute by walking its steps down from the root, or from where the service
runs (`absolute_eq_walk`). It keeps its components (`components_absolute`) and its slash at
the end, and it loses its single points and doubled slashes.

The result is orderly, unless it goes from a directory that is not (`Orderly.absolute`). An
orderly path is its root with its steps behind it (`walk_eq`), and stays as it is when it is
made absolute once more (`Orderly.absolute_eq`).
-/

set_option autoImplicit false

namespace Polyglot.Path

/-! ## Ends of paths -/

section Ends

variable {base path : String}

/-- A path without a step is made of slashes. -/
theorem eq_slash_of_mem (none : pieces path = []) {c : Char} (member : c ∈ path.toList) :
    c = '/' := by
  simp only [pieces, List.map_eq_nil_iff] at none
  generalize path.toList = chars at none member
  induction chars with
  | nil => cases member
  | cons first rest ih =>
      obtain ⟨piece, others, shape⟩ := List.exists_cons_of_ne_nil (splitSlashes_ne_nil rest)
      by_cases slash : first = '/'
      · rcases List.mem_cons.mp member with rfl | behind
        · exact slash
        · exact ih (by simpa [splitSlashes, slash] using none) behind
      · simp [splitSlashes, slash, shape] at none

theorem endsInSlash_of_pieces_eq_nil (filled : path ≠ "") (none : pieces path = []) :
    endsInSlash path = true := by
  obtain ⟨last, ends⟩ := exists_last filled
  rw [endsInSlash, ends, eq_slash_of_mem none (List.mem_of_getLast? ends), beq_self_eq_true]

/-- The path with a slash at its end. -/
def closed (path : String) : String :=
  if endsInSlash path then path else path ++ "/"

theorem endsInSlash_closed (path : String) : endsInSlash (closed path) = true := by
  unfold closed
  split
  · assumption
  · simp [endsInSlash, String.toList_append]

theorem closed_of_endsInSlash (ends : endsInSlash path = true) : closed path = path :=
  if_pos ends

theorem isAbsolute_closed (absolutePath : isAbsolute path = true) :
    isAbsolute (closed path) = true := by
  unfold closed
  split
  · exact absolutePath
  · simp only [isAbsolute, beq_iff_eq] at absolutePath ⊢
    simp [String.toList_append, List.head?_append, absolutePath]

theorem pieces_closed (path : String) : pieces (closed path) = pieces path := by
  unfold closed
  split
  · rfl
  · have behind := pieces_append path ""
    rwa [pieces_empty, List.append_nil, String.append_empty] at behind

/-- A path is joined to a directory in the same way when this is spelled with a slash. -/
theorem join_closed (filled : base ≠ "") (relative : isAbsolute path = false) :
    join (closed base) path = join base path := by
  unfold closed
  split
  · rfl
  · rename_i unclosed
    have nonempty : base.isEmpty = false := by simpa using filled
    have last : base.toList.getLast? ≠ some '/' := by simpa [endsInSlash] using unclosed
    have whole : (base ++ "/").isEmpty = false := by simp
    rw [join, join, relative, nonempty, whole, Bool.or_false, if_neg Bool.false_ne_true,
      if_neg Bool.false_ne_true, if_neg last, if_pos (by simp [String.toList_append])]

end Ends

/-! ## Walking down from a directory -/

/-- A step of a path that is no single point. -/
structure IsProperStep (step : String) : Prop where
  filled : step ≠ ""
  noSlash : '/' ∉ step.toList
  other : step ≠ "."

instance (step : String) : Decidable (IsProperStep step) :=
  decidable_of_iff (step ≠ "" ∧ '/' ∉ step.toList ∧ step ≠ ".")
    ⟨fun ⟨filled, noSlash, other⟩ => ⟨filled, noSlash, other⟩,
      fun isProper => ⟨isProper.filled, isProper.noSlash, isProper.other⟩⟩

/-- The path to which some steps lead from another one. -/
def walk (start : String) (steps : List String) : String :=
  steps.foldl join start

section Walk

variable {start : String} {steps : List String}

/-- The steps of a path without single points are proper. -/
theorem proper_pieces (path : String) :
    ∀ step ∈ (pieces path).filter fun step => step != ".", IsProperStep step := by
  intro step member
  obtain ⟨among, other⟩ := List.mem_filter.mp member
  obtain ⟨filled, noSlash⟩ := mem_pieces among
  exact ⟨filled, noSlash, by simpa using other⟩

theorem walk_concat (start : String) (front : List String) (last : String) :
    walk start (front ++ [last]) = join (walk start front) last :=
  List.foldl_append

theorem pieces_walk (proper : ∀ step ∈ steps, IsProperStep step) :
    pieces (walk start steps) = pieces start ++ steps := by
  induction steps generalizing start with
  | nil => exact (List.append_nil _).symm
  | cons step rest ih =>
      obtain ⟨isProper, others⟩ := List.forall_mem_cons.mp proper
      have joined : pieces (join start step) = pieces start ++ pieces step :=
        pieces_join (isAbsolute_of_plain isProper.noSlash)
      rw [pieces_of_plain isProper.noSlash isProper.filled] at joined
      rw [walk, List.foldl_cons, ← walk, ih others, joined, List.append_assoc]
      rfl

theorem isAbsolute_walk (absoluteStart : isAbsolute start = true) (steps : List String) :
    isAbsolute (walk start steps) = true := by
  induction steps generalizing start with
  | nil => exact absoluteStart
  | cons step rest ih =>
      have filled : start ≠ "" := by
        rintro rfl
        cases absoluteStart
      exact ih (by rw [isAbsolute_join filled, absoluteStart, Bool.or_true])

/-- A walk ends in a slash only where it starts. -/
theorem endsInSlash_walk (proper : ∀ step ∈ steps, IsProperStep step) :
    endsInSlash (walk start steps) = (steps.isEmpty && endsInSlash start) := by
  rcases List.eq_nil_or_concat steps with rfl | ⟨front, last, rfl⟩
  · rfl
  · have isProper : IsProperStep last := proper last (by simp)
    have plain : endsInSlash last = false := by
      refine Bool.eq_false_iff.mpr fun ends => isProper.noSlash ?_
      exact List.mem_of_getLast? (beq_iff_eq.mp ends)
    rw [List.concat_eq_append, walk_concat, endsInSlash_join isProper.filled, plain]
    simp

end Walk

/-- A path is made absolute by walking its steps, and keeps a slash at its end. -/
theorem absolute_eq_walk (processDirectory path : String) :
    absolute processDirectory path =
      let whole := walk (absoluteStart processDirectory path)
        ((pieces path).filter fun step => step != ".")
      if endsInSlash path then closed whole else whole := by
  have ends (whole : String) :
      (if endsInSlash path && !endsInSlash whole then whole ++ "/" else whole) =
        if endsInSlash path then closed whole else whole := by
    rw [closed]
    cases endsInSlash path with
    | false => rfl
    | true =>
        cases endsInSlash whole with
        | false => rfl
        | true => rfl
  rw [absolute_eq]
  exact ends _

/-! ## Orderly paths -/

/-- The root, spelled with one slash or with two. -/
def IsRoot (path : String) : Prop :=
  path = "/" ∨ path = "//"

/--
A path whose slashes and points are in order: it goes from the root by proper steps, and may
have a slash at its end. The operating system spells the directory of a process so.
-/
def Orderly (path : String) : Prop :=
  ∃ root steps, IsRoot root ∧ (∀ step ∈ steps, IsProperStep step) ∧
    (path = walk root steps ∨ path = closed (walk root steps))

section Orderly

variable {root path step : String} {steps : List String}

theorem IsRoot.isAbsolute (isRoot : IsRoot root) : isAbsolute root = true := by
  rcases isRoot with rfl | rfl
  · decide
  · decide

theorem IsRoot.endsInSlash (isRoot : IsRoot root) : endsInSlash root = true := by
  rcases isRoot with rfl | rfl
  · decide
  · decide

theorem IsRoot.pieces_eq_nil (isRoot : IsRoot root) : pieces root = [] := by
  rcases isRoot with rfl | rfl
  · decide
  · decide

/-- From a slash, a walk is the text of its steps with single slashes between them. -/
theorem walk_eq (ends : endsInSlash root = true) (proper : ∀ step ∈ steps, IsProperStep step) :
    walk root steps = root ++ "/".intercalate steps := by
  have filled : root.isEmpty = false := by
    refine Bool.eq_false_iff.mpr fun empty => ?_
    rw [String.isEmpty_iff.mp empty] at ends
    cases ends
  induction steps using List.reverseRecOn with
  | nil => exact String.append_empty.symm
  | append_singleton front last ih =>
      have isProper : IsProperStep last := proper last (by simp)
      have before : ∀ step ∈ front, IsProperStep step :=
        fun step member => proper step (List.mem_append_left _ member)
      have relative := isAbsolute_of_plain isProper.noSlash
      rw [walk_concat]
      by_cases none : front = []
      · subst none
        have slash : root.toList.getLast? = some '/' := by simpa [Path.endsInSlash] using ends
        simp [walk, join, relative, filled, slash]
      · have still : endsInSlash (walk root front) = (front.isEmpty && endsInSlash root) :=
          endsInSlash_walk before
        rw [List.isEmpty_eq_false_iff.mpr none, Bool.false_and] at still
        have slash : (walk root front).toList.getLast? ≠ some '/' := by
          simpa [Path.endsInSlash] using still
        have whole : (walk root front).isEmpty = false := by
          rw [ih before]
          simpa using fun empty => absurd empty (by simpa using filled)
        rw [join, relative, whole, Bool.or_false, if_neg Bool.false_ne_true, if_neg slash, ih before,
          String.intercalate_append_of_ne_nil none (List.cons_ne_nil _ _)]
        simp [String.append_assoc]

/-- Behind the root of a walk stands no slash. -/
theorem head?_intercalate (proper : ∀ step ∈ steps, IsProperStep step) :
    ("/".intercalate steps).toList.head? ≠ some '/' := by
  cases steps with
  | nil => simp
  | cons first rest =>
      have isProper := proper first List.mem_cons_self
      obtain ⟨c, chars, shape⟩ := List.exists_cons_of_ne_nil
        (mt String.toList_eq_nil_iff.mp isProper.filled)
      have other : c ≠ '/' := by
        rintro rfl
        exact isProper.noSlash (shape ▸ List.mem_cons_self)
      by_cases last : rest = []
      · simpa [last, shape] using other
      · rw [String.intercalate_cons_of_ne_nil last]
        simpa [String.toList_append, shape] using other

/-- A path keeps its root when it is made absolute. -/
theorem absoluteStart_of_isRoot (isRoot : IsRoot root) {rest : List Char}
    (shape : path.toList = root.toList ++ rest) (plain : rest.head? ≠ some '/')
    (processDirectory : String) : absoluteStart processDirectory path = root := by
  rcases isRoot with rfl | rfl
  · cases rest with
    | nil => simp [absoluteStart, Path.isAbsolute, shape]
    | cons c rest =>
        have other : c ≠ '/' := by simpa using plain
        simp [absoluteStart, Path.isAbsolute, shape, other]
  · cases rest with
    | nil => simp [absoluteStart, Path.isAbsolute, shape]
    | cons c rest =>
        have other : c ≠ '/' := by simpa using plain
        simp [absoluteStart, Path.isAbsolute, shape, other]

section Root

variable (isRoot : IsRoot root) (proper : ∀ step ∈ steps, IsProperStep step)
variable (processDirectory : String)

include isRoot proper

theorem toList_walk :
    (walk root steps).toList = root.toList ++ ("/".intercalate steps).toList := by
  rw [walk_eq isRoot.endsInSlash proper, String.toList_append]

theorem pieces_walk_root : pieces (walk root steps) = steps := by
  rw [pieces_walk proper, isRoot.pieces_eq_nil, List.nil_append]

theorem absoluteStart_walk : absoluteStart processDirectory (walk root steps) = root :=
  absoluteStart_of_isRoot isRoot (toList_walk isRoot proper) (head?_intercalate proper)
    processDirectory

theorem absoluteStart_closed_walk :
    absoluteStart processDirectory (closed (walk root steps)) = root := by
  by_cases ends : endsInSlash (walk root steps) = true
  · rw [closed_of_endsInSlash ends]
    exact absoluteStart_walk isRoot proper processDirectory
  · have chars := toList_walk isRoot proper
    have more : ("/".intercalate steps).toList ≠ [] := by
      intro none
      refine ends ?_
      rw [endsInSlash, chars, none, List.append_nil]
      exact isRoot.endsInSlash
    have behind : (closed (walk root steps)).toList =
        root.toList ++ (("/".intercalate steps).toList ++ ['/']) := by
      rw [closed, if_neg ends, String.toList_append, chars, List.append_assoc]
      rfl
    have plain : (("/".intercalate steps).toList ++ ['/']).head? ≠ some '/' := by
      obtain ⟨c, rest, shape⟩ := List.exists_cons_of_ne_nil more
      have first := head?_intercalate proper
      rw [shape] at first ⊢
      exact first
    exact absoluteStart_of_isRoot isRoot behind plain processDirectory

end Root

namespace Orderly

protected theorem isAbsolute (orderly : Orderly path) : isAbsolute path = true := by
  obtain ⟨root, steps, isRoot, _, rfl | rfl⟩ := orderly
  · exact isAbsolute_walk isRoot.isAbsolute steps
  · exact isAbsolute_closed (isAbsolute_walk isRoot.isAbsolute steps)

protected theorem closed (orderly : Orderly path) : Orderly (closed path) := by
  obtain ⟨root, steps, isRoot, proper, rfl | rfl⟩ := orderly
  · exact ⟨root, steps, isRoot, proper, .inr rfl⟩
  · exact ⟨root, steps, isRoot, proper, .inr (closed_of_endsInSlash (endsInSlash_closed _))⟩

protected theorem join (orderly : Orderly path) (isProper : IsProperStep step) :
    Orderly (join path step) := by
  obtain ⟨root, steps, isRoot, proper, shape⟩ := orderly
  have more : ∀ other ∈ steps ++ [step], IsProperStep other := by
    simpa [or_imp, forall_and] using ⟨proper, isProper⟩
  have filled : walk root steps ≠ "" := by
    intro empty
    have absolutePath := isAbsolute_walk isRoot.isAbsolute steps
    rw [empty] at absolutePath
    cases absolutePath
  have joined : join path step = walk root (steps ++ [step]) := by
    rw [walk_concat]
    rcases shape with rfl | rfl
    · rfl
    · exact join_closed filled (isAbsolute_of_plain isProper.noSlash)
  exact ⟨root, steps ++ [step], isRoot, more, .inl joined⟩

/-- A walk from an orderly directory is orderly. -/
protected theorem walk (orderly : Orderly path) (proper : ∀ step ∈ steps, IsProperStep step) :
    Orderly (walk path steps) := by
  induction steps generalizing path with
  | nil => exact orderly
  | cons step rest ih =>
      obtain ⟨isProper, others⟩ := List.forall_mem_cons.mp proper
      exact ih (orderly.join isProper) others

/-- **An orderly path stays as it is when it is made absolute.** -/
theorem absolute_eq (orderly : Orderly path) (processDirectory : String) :
    absolute processDirectory path = path := by
  obtain ⟨root, steps, isRoot, proper, shape⟩ := orderly
  have kept : (steps.filter fun step => step != ".") = steps :=
    List.filter_eq_self.mpr fun step member => by simpa using (proper step member).other
  rw [absolute_eq_walk]
  rcases shape with rfl | rfl
  · rw [absoluteStart_walk isRoot proper, pieces_walk_root isRoot proper, kept]
    dsimp only
    split
    · rename_i ends
      exact closed_of_endsInSlash ends
    · rfl
  · rw [absoluteStart_closed_walk isRoot proper, pieces_closed, pieces_walk_root isRoot proper,
      kept, endsInSlash_closed, if_pos rfl]

/-- A path is orderly once it is made absolute, from an orderly directory or by itself. -/
theorem absolute {processDirectory : String}
    (absolutePath : isAbsolute path = true ∨ Orderly processDirectory) :
    Orderly (absolute processDirectory path) := by
  have start : Orderly (absoluteStart processDirectory path) := by
    unfold absoluteStart
    split
    · rename_i relative
      exact absolutePath.resolve_left (by simp [relative])
    · split
      · exact ⟨"//", [], .inr rfl, nofun, .inl rfl⟩
      · exact ⟨"/", [], .inl rfl, nofun, .inl rfl⟩
  have whole := start.walk (proper_pieces path)
  rw [absolute_eq_walk]
  dsimp only
  split
  · exact whole.closed
  · exact whole

end Orderly

section Place

variable {place : Host.Location}

theorem pathOf_eq_walk (proper : ∀ name ∈ place, IsProperStep name) :
    Host.Tree.pathOf place = walk "/" place :=
  (walk_eq (by decide) proper).symm

/-- The path of a place in a tree is orderly. -/
theorem orderly_pathOf (proper : ∀ name ∈ place, IsProperStep name) :
    Orderly (Host.Tree.pathOf place) :=
  ⟨"/", place, .inl rfl, proper, .inl (pathOf_eq_walk proper)⟩

/-- The pieces of the path of a place are its names. -/
theorem pieces_pathOf (proper : ∀ name ∈ place, IsProperStep name) :
    pieces (Host.Tree.pathOf place) = place := by
  rw [pathOf_eq_walk proper, pieces_walk_root (.inl rfl) proper]

end Place

end Orderly

/-! ## Components of absolute paths -/

section Absolute

variable {processDirectory path : String}

/-- The steps of a path that was made absolute are those it had, without single points. -/
theorem pieces_absolute (processDirectory path : String) :
    pieces (absolute processDirectory path) =
      (if isAbsolute path then [] else pieces processDirectory) ++
        (pieces path).filter fun step => step != "." := by
  have start : pieces (absoluteStart processDirectory path) =
      if isAbsolute path then [] else pieces processDirectory := by
    unfold absoluteStart
    cases isAbsolute path with
    | false => rfl
    | true =>
        rw [if_neg (by simp), if_pos rfl]
        split
        · exact IsRoot.pieces_eq_nil (.inr rfl)
        · exact IsRoot.pieces_eq_nil (.inl rfl)
  rw [← start, ← pieces_walk (proper_pieces path), absolute_eq_walk]
  dsimp only
  split
  · exact pieces_closed _
  · rfl

/-- The process directory does not matter to an absolute path. -/
theorem absolute_of_isAbsolute (absolutePath : isAbsolute path = true) (one other : String) :
    absolute one path = absolute other path := by
  have start : absoluteStart one path = absoluteStart other path := by
    simp [absoluteStart, absolutePath]
  rw [absolute_eq, absolute_eq, start]

/-- A slash at the end is kept. -/
theorem endsInSlash_absolute (ends : endsInSlash path = true) :
    endsInSlash (absolute processDirectory path) = true := by
  rw [absolute_eq_walk]
  simp only [ends, if_true]
  exact endsInSlash_closed _

/-- A slash at the end was there, unless no steps are left. -/
theorem endsInSlash_of_absolute (ends : endsInSlash (absolute processDirectory path) = true) :
    endsInSlash path = true ∨ ∀ step ∈ pieces path, step = "." := by
  rw [absolute_eq_walk] at ends
  dsimp only at ends
  split at ends
  · rename_i slash
    exact .inl slash
  · rw [endsInSlash_walk (proper_pieces path), Bool.and_eq_true, List.isEmpty_iff,
      List.filter_eq_nil_iff] at ends
    exact .inr (by simpa using ends.1)

variable (home : isAbsolute processDirectory = true)

include home

theorem isAbsolute_absolute (path : String) :
    isAbsolute (absolute processDirectory path) = true := by
  have start : isAbsolute (absoluteStart processDirectory path) = true := by
    unfold absoluteStart
    split
    · exact home
    · split
      · exact IsRoot.isAbsolute (.inr rfl)
      · exact IsRoot.isAbsolute (.inl rfl)
  have whole := isAbsolute_walk start ((pieces path).filter fun step => step != ".")
  rw [absolute_eq_walk]
  dsimp only
  split
  · exact isAbsolute_closed whole
  · exact whole

/-- A path that is made absolute has the components that it has in the process directory. -/
theorem components_absolute (path : String) :
    components (absolute processDirectory path) = components (join processDirectory path) := by
  have filled : processDirectory ≠ "" := by
    rintro rfl
    cases home
  have joined : isAbsolute (join processDirectory path) = true := by
    rw [isAbsolute_join filled, home, Bool.or_true]
  have thinned : inner ((pieces path).filter fun step => step != ".") = inner (pieces path) := by
    simp [inner, List.filter_filter]
  rw [components_of_isAbsolute (isAbsolute_absolute home path), components_of_isAbsolute joined,
    pieces_absolute, inner_append, thinned, ← inner_append]
  cases absolutePath : isAbsolute path with
  | false => rw [pieces_join absolutePath, if_neg Bool.false_ne_true]
  | true => rw [join_of_isAbsolute absolutePath, if_pos rfl, List.nil_append]

end Absolute

end Polyglot.Path
