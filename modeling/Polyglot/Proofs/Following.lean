import Polyglot.Proofs.Places

/-!
# Following a path

A path is followed step by step, and every step costs one, also one that a link has put
in. The relation `Leads` says where the steps lead and at which cost; following with a
bound succeeds exactly when the cost is within the bound (`follow_eq_ok_iff`).

Steps lead to one place only (`Leads.unique`), and the steps of a joined path lead on
from where the first part leads (`Leads.append`, `Leads.split`). A change that keeps what
stands does not lead elsewhere (`Leads.keeps`), leaving out single points does not either
(`Leads.thin`), and below a place without links no step leads out unless it goes upwards
(`Leads.inside`).
-/

set_option autoImplicit false

namespace Polyglot.Host.Tree

/-! ## Where steps lead -/

/-- A step that names an entry of a directory. -/
structure IsName (step : String) : Prop where
  current : step ≠ "."
  parent : step ≠ ".."
  short : step.utf8ByteSize ≤ nameLimit

/-- Steps lead from one place to another, where something stands or nothing, at a cost. -/
inductive Leads (tree : Tree) (throughLast : Bool) :
    Nat → Location → List String → Location → Option Node → Prop where
  | here (here : Location) : Leads tree throughLast 0 here [] here (tree.get? here)
  | current {cost : Nat} {here there : Location} {rest : List String} {node : Option Node}
      {entries : List (String × Node)} (stands : tree.get? here = some (.directory entries))
      (further : Leads tree throughLast cost here rest there node) :
      Leads tree throughLast (cost + 1) here ("." :: rest) there node
  | parent {cost : Nat} {here there : Location} {rest : List String} {node : Option Node}
      {entries : List (String × Node)} (stands : tree.get? here = some (.directory entries))
      (further : Leads tree throughLast cost here.dropLast rest there node) :
      Leads tree throughLast (cost + 1) here (".." :: rest) there node
  | missing {here : Location} {step : String} {entries : List (String × Node)}
      (stands : tree.get? here = some (.directory entries)) (name : IsName step)
      (absent : Table.find? step entries = none) :
      Leads tree throughLast 1 here [step] (here ++ [step]) none
  | link {here : Location} {step target : String} {entries : List (String × Node)}
      (stands : tree.get? here = some (.directory entries)) (name : IsName step)
      (found : Table.find? step entries = some (.link target)) (last : throughLast = false) :
      Leads tree throughLast 1 here [step] (here ++ [step]) (some (.link target))
  | through {cost : Nat} {here there : Location} {step target : String} {rest : List String}
      {node : Option Node} {entries : List (String × Node)}
      (stands : tree.get? here = some (.directory entries)) (name : IsName step)
      (found : Table.find? step entries = some (.link target))
      (goes_on : rest ≠ [] ∨ throughLast = true)
      (further : Leads tree throughLast cost (if Path.isAbsolute target then [] else here)
        (Path.pieces target ++ rest) there node) :
      Leads tree throughLast (cost + 1) here (step :: rest) there node
  | enter {cost : Nat} {here there : Location} {step : String} {rest : List String}
      {node : Option Node} {entries : List (String × Node)} {child : Node}
      (stands : tree.get? here = some (.directory entries)) (name : IsName step)
      (found : Table.find? step entries = some child) (plain : ∀ target, child ≠ .link target)
      (further : Leads tree throughLast cost (here ++ [step]) rest there node) :
      Leads tree throughLast (cost + 1) here (step :: rest) there node

section Follow

variable {tree : Tree} {throughLast : Bool} {bound : Nat} {here there : Location}
variable {step : String} {rest steps : List String} {node : Option Node}
variable {entries : List (String × Node)}

@[simp] theorem follow_nil (tree : Tree) (throughLast : Bool) (bound : Nat) (here : Location) :
    tree.follow throughLast bound here [] = .ok (here, tree.get? here) := by
  cases bound <;> rfl

theorem follow_current (stands : tree.get? here = some (.directory entries)) :
    tree.follow throughLast (bound + 1) here ("." :: rest) =
      tree.follow throughLast bound here rest := by
  simp [follow, stands]

theorem follow_parent (stands : tree.get? here = some (.directory entries)) :
    tree.follow throughLast (bound + 1) here (".." :: rest) =
      tree.follow throughLast bound here.dropLast rest := by
  simp [follow, stands]

/-- A name leads to the entry of that name, or on from the place that a link names. -/
theorem follow_name (stands : tree.get? here = some (.directory entries)) (name : IsName step) :
    tree.follow throughLast (bound + 1) here (step :: rest) =
      match Table.find? step entries with
      | none => if rest.isEmpty then .ok (here ++ [step], none) else .error .notFound
      | some (.link target) =>
        if rest.isEmpty && !throughLast then .ok (here ++ [step], some (.link target))
        else tree.follow throughLast bound (if Path.isAbsolute target then [] else here)
          (Path.pieces target ++ rest)
      | some _ => tree.follow throughLast bound (here ++ [step]) rest := by
  rw [follow, stands]
  exact (if_neg name.current).trans
    ((if_neg name.parent).trans (if_neg (Nat.not_lt.mpr name.short)))

/-- A name that is too long leads nowhere. -/
theorem follow_long (stands : tree.get? here = some (.directory entries)) (current : step ≠ ".")
    (parent : step ≠ "..") (long : nameLimit < step.utf8ByteSize) :
    tree.follow throughLast (bound + 1) here (step :: rest) = .error .nameTooLong := by
  rw [follow, stands]
  exact (if_neg current).trans ((if_neg parent).trans (if_pos long))

/-- A link that is followed leads on from the place that it names. -/
theorem follow_through {target : String} (stands : tree.get? here = some (.directory entries))
    (name : IsName step) (found : Table.find? step entries = some (.link target))
    (goes_on : rest ≠ [] ∨ throughLast = true) :
    tree.follow throughLast (bound + 1) here (step :: rest) =
      tree.follow throughLast bound (if Path.isAbsolute target then [] else here)
        (Path.pieces target ++ rest) := by
  have on : (rest.isEmpty && !throughLast) = false := by
    rcases goes_on with more | last
    · simp [more]
    · simp [last]
  rw [follow_name stands name, found]
  simp only [on, Bool.false_eq_true, if_false]

/-- The name of an entry that is no link leads to the entry. -/
theorem follow_enter {child : Node} (stands : tree.get? here = some (.directory entries))
    (name : IsName step) (found : Table.find? step entries = some child)
    (plain : ∀ target, child ≠ .link target) :
    tree.follow throughLast (bound + 1) here (step :: rest) =
      tree.follow throughLast bound (here ++ [step]) rest := by
  rw [follow_name stands name, found]
  cases child with
  | link target => exact absurd rfl (plain target)
  | directory entries => rfl
  | file contents executable => rfl
  | program name => rfl
  | device zeros => rfl

theorem follow_nowhere (absent : tree.get? here = none) :
    tree.follow throughLast (bound + 1) here (step :: rest) = .error .notFound := by
  rw [follow, absent]

/-- No step is taken in what is no directory. -/
theorem follow_plain {stood : Node} (stands : tree.get? here = some stood)
    (plain : ∀ entries, stood ≠ .directory entries) :
    tree.follow throughLast (bound + 1) here (step :: rest) = .error .notDirectory := by
  cases stood with
  | directory entries => exact absurd rfl (plain entries)
  | _ => rw [follow, stands]

/-- A step is taken in a directory, and leads to it, out of it or to one of its entries. -/
theorem exists_of_follow_cons {result : Location × Option Node}
    (followed : tree.follow throughLast bound here (step :: rest) = .ok result) :
    ∃ less entries, bound = less + 1 ∧ tree.get? here = some (.directory entries) ∧
      (step = "." ∨ step = ".." ∨ IsName step) := by
  cases bound with
  | zero => cases followed
  | succ less =>
      rw [follow] at followed
      split at followed
      · rename_i entries stands
        refine ⟨less, entries, rfl, stands, ?_⟩
        by_cases current : step = "."
        · exact .inl current
        · by_cases parent : step = ".."
          · exact .inr (.inl parent)
          · by_cases long : nameLimit < step.utf8ByteSize
            · simp [current, parent, long] at followed
            · exact .inr (.inr ⟨current, parent, Nat.le_of_not_lt long⟩)
      · cases followed
      · cases followed

/-- Where steps are followed to, they lead within the bound. -/
theorem exists_leads_of_follow
    (followed : tree.follow throughLast bound here steps = .ok (there, node)) :
    ∃ cost ≤ bound, Leads tree throughLast cost here steps there node := by
  induction bound generalizing here steps with
  | zero =>
      cases steps with
      | nil =>
          rw [follow_nil] at followed
          cases followed
          exact ⟨0, Nat.le_refl 0, .here _⟩
      | cons step rest => cases followed
  | succ bound ih =>
      cases steps with
      | nil =>
          rw [follow_nil] at followed
          cases followed
          exact ⟨0, Nat.zero_le _, .here _⟩
      | cons step rest =>
          obtain ⟨less, entries, same, stands, kind⟩ := exists_of_follow_cons followed
          obtain rfl : bound = less := Nat.succ.inj same
          rcases kind with rfl | rfl | name
          · rw [follow_current stands] at followed
            obtain ⟨cost, within, further⟩ := ih followed
            exact ⟨cost + 1, Nat.succ_le_succ within, .current stands further⟩
          · rw [follow_parent stands] at followed
            obtain ⟨cost, within, further⟩ := ih followed
            exact ⟨cost + 1, Nat.succ_le_succ within, .parent stands further⟩
          · rw [follow_name stands name] at followed
            split at followed
            · rename_i absent
              split at followed
              · rename_i last
                cases followed
                rw [List.isEmpty_iff.mp last]
                exact ⟨1, Nat.le_add_left 1 bound, .missing stands name absent⟩
              · cases followed
            · rename_i target found
              split at followed
              · rename_i last
                cases followed
                simp only [Bool.and_eq_true, List.isEmpty_iff, Bool.not_eq_true'] at last
                rw [last.1]
                exact ⟨1, Nat.le_add_left 1 bound, .link stands name found last.2⟩
              · rename_i goes_on
                obtain ⟨cost, within, further⟩ := ih followed
                refine ⟨cost + 1, Nat.succ_le_succ within,
                  .through stands name found ?_ further⟩
                simpa [Decidable.imp_iff_not_or] using goes_on
            · rename_i child plain found
              obtain ⟨cost, within, further⟩ := ih followed
              refine ⟨cost + 1, Nat.succ_le_succ within, .enter stands name found ?_ further⟩
              rintro target rfl
              exact plain target rfl

/-- Steps are followed to where they lead, when the bound allows it. -/
theorem Leads.follow_eq {cost : Nat} (leads : Leads tree throughLast cost here steps there node)
    (within : cost ≤ bound) :
    tree.follow throughLast bound here steps = .ok (there, node) := by
  induction leads generalizing bound with
  | here place => exact follow_nil tree throughLast bound place
  | current stands further ih =>
      obtain ⟨less, rfl⟩ := Nat.exists_eq_add_of_le' (Nat.le_of_add_left_le within)
      rw [follow_current stands]
      exact ih (Nat.le_of_succ_le_succ within)
  | parent stands further ih =>
      obtain ⟨less, rfl⟩ := Nat.exists_eq_add_of_le' (Nat.le_of_add_left_le within)
      rw [follow_parent stands]
      exact ih (Nat.le_of_succ_le_succ within)
  | missing stands name absent =>
      obtain ⟨less, rfl⟩ := Nat.exists_eq_add_of_le' within
      simp [follow_name stands name, absent]
  | link stands name found last =>
      obtain ⟨less, rfl⟩ := Nat.exists_eq_add_of_le' within
      simp [follow_name stands name, found, last]
  | through stands name found goes_on further ih =>
      obtain ⟨less, rfl⟩ := Nat.exists_eq_add_of_le' (Nat.le_of_add_left_le within)
      rw [follow_through stands name found goes_on]
      exact ih (Nat.le_of_succ_le_succ within)
  | enter stands name found plain further ih =>
      obtain ⟨less, rfl⟩ := Nat.exists_eq_add_of_le' (Nat.le_of_add_left_le within)
      rw [follow_enter stands name found plain]
      exact ih (Nat.le_of_succ_le_succ within)

/-- Following stops where the steps cost more than the bound allows. -/
theorem Leads.follow_eq_error {cost : Nat}
    (leads : Leads tree throughLast cost here steps there node) (short : bound < cost) :
    tree.follow throughLast bound here steps = .error .tooManyLinks := by
  induction leads generalizing bound with
  | here place => exact absurd short (Nat.not_lt_zero bound)
  | current stands further ih =>
      cases bound with
      | zero => rfl
      | succ bound =>
          rw [follow_current stands]
          exact ih (Nat.lt_of_succ_lt_succ short)
  | parent stands further ih =>
      cases bound with
      | zero => rfl
      | succ bound =>
          rw [follow_parent stands]
          exact ih (Nat.lt_of_succ_lt_succ short)
  | missing stands name absent =>
      obtain rfl := Nat.lt_one_iff.mp short
      rfl
  | link stands name found last =>
      obtain rfl := Nat.lt_one_iff.mp short
      rfl
  | through stands name found goes_on further ih =>
      cases bound with
      | zero => rfl
      | succ bound =>
          rw [follow_through stands name found goes_on]
          exact ih (Nat.lt_of_succ_lt_succ short)
  | enter stands name found plain further ih =>
      cases bound with
      | zero => rfl
      | succ bound =>
          rw [follow_enter stands name found plain]
          exact ih (Nat.lt_of_succ_lt_succ short)

/-- Following succeeds exactly when the steps lead somewhere within the bound. -/
theorem follow_eq_ok_iff :
    tree.follow throughLast bound here steps = .ok (there, node) ↔
      ∃ cost ≤ bound, Leads tree throughLast cost here steps there node :=
  ⟨exists_leads_of_follow, fun ⟨_, within, leads⟩ => leads.follow_eq within⟩

end Follow

/-! ## Steps lead to one place -/

/-- Some steps without some of their single points. -/
inductive Thins : List String → List String → Prop where
  | nil : Thins [] []
  | keep {steps fewer : List String} (step : String) (rest : Thins steps fewer) :
      Thins (step :: steps) (step :: fewer)
  | drop {steps fewer : List String} (rest : Thins steps fewer) : Thins ("." :: steps) fewer

namespace Thins

theorem refl (steps : List String) : Thins steps steps := by
  induction steps with
  | nil => exact .nil
  | cons step rest ih => exact .keep step ih

theorem append {first fewerFirst second fewerSecond : List String}
    (front : Thins first fewerFirst) (back : Thins second fewerSecond) :
    Thins (first ++ second) (fewerFirst ++ fewerSecond) := by
  induction front with
  | nil => exact back
  | keep step rest ih => exact .keep step ih
  | drop rest ih => exact .drop ih

/-- A step that is no single point is kept. -/
theorem of_cons {step : String} {rest fewer : List String} (other : step ≠ ".")
    (thins : Thins (step :: rest) fewer) : ∃ kept, fewer = step :: kept ∧ Thins rest kept := by
  generalize whole : step :: rest = steps at thins
  cases thins with
  | nil => cases whole
  | keep _ behind =>
      obtain ⟨rfl, rfl⟩ := List.cons.inj whole
      exact ⟨_, rfl, behind⟩
  | drop behind => exact absurd (List.cons.inj whole).1 other

theorem filter (steps : List String) : Thins steps (steps.filter fun step => step != ".") := by
  induction steps with
  | nil => exact .nil
  | cons step rest ih =>
      by_cases point : step = "."
      · subst point
        exact .drop ih
      · rw [List.filter_cons_of_pos (by simpa using point)]
        exact .keep step ih

end Thins

namespace Leads

variable {tree : Tree} {throughLast : Bool} {cost : Nat} {here there : Location}
variable {steps : List String} {node : Option Node}

theorem unique {other : Nat} {elsewhere : Location} {another : Option Node}
    (first : Leads tree throughLast cost here steps there node)
    (second : Leads tree throughLast other here steps elsewhere another) :
    there = elsewhere ∧ node = another := by
  have one := follow_eq_ok_iff.mpr ⟨cost, Nat.le_max_left cost other, first⟩
  have two := follow_eq_ok_iff.mpr ⟨other, Nat.le_max_right cost other, second⟩
  rw [one, Except.ok.injEq, Prod.mk.injEq] at two
  exact two

/-- What stands at the end is what the tree holds there. -/
theorem get?_eq (leads : Leads tree throughLast cost here steps there node) :
    tree.get? there = node := by
  induction leads with
  | here place => rfl
  | current stands further ih => exact ih
  | parent stands further ih => exact ih
  | missing stands name absent => rw [Node.get?_concat stands, absent]
  | link stands name found last => rw [Node.get?_concat stands, found]
  | through stands name found goes_on further ih => exact ih
  | enter stands name found plain further ih => exact ih

/-- A step is taken in a directory. -/
theorem exists_entries {step : String} {rest : List String}
    (leads : Leads tree throughLast cost here (step :: rest) there node) :
    ∃ entries, tree.get? here = some (.directory entries) := by
  cases leads with
  | current stands => exact ⟨_, stands⟩
  | parent stands => exact ⟨_, stands⟩
  | missing stands => exact ⟨_, stands⟩
  | link stands => exact ⟨_, stands⟩
  | through stands => exact ⟨_, stands⟩
  | enter stands => exact ⟨_, stands⟩

/-- A name leads to the entry of that name, unless that is a link that is followed. -/
theorem of_name {entries : List (String × Node)} {name : String}
    (stands : tree.get? here = some (.directory entries)) (isName : IsName name)
    (stays : throughLast = false ∨ ∀ target, Table.find? name entries ≠ some (.link target)) :
    Leads tree throughLast 1 here [name] (here ++ [name]) (Table.find? name entries) := by
  cases found : Table.find? name entries with
  | none => exact .missing stands isName found
  | some child =>
      by_cases isLink : ∃ target, child = .link target
      · obtain ⟨target, rfl⟩ := isLink
        exact .link stands isName found (stays.resolve_right fun plain => plain target found)
      · have plain := not_exists.mp isLink
        have last : Leads tree throughLast 0 (here ++ [name]) [] (here ++ [name]) (some child) := by
          rw [← found, ← Node.get?_concat stands name]
          exact .here _
        exact .enter stands isName found plain last

/-- Steps that lead to something lead on from there. -/
theorem append {between : Location} {middle : Node} {first second : List String} {more : Nat}
    (front : Leads tree true cost here first between (some middle))
    (back : Leads tree throughLast more between second there node) (nonempty : second ≠ []) :
    Leads tree throughLast (cost + more) here (first ++ second) there node := by
  generalize reached : some middle = something at front
  induction front with
  | here place => simpa using back
  | current stands further ih =>
      rw [Nat.add_right_comm]
      exact .current stands (ih back reached)
  | parent stands further ih =>
      rw [Nat.add_right_comm]
      exact .parent stands (ih back reached)
  | missing stands name absent => cases reached
  | link stands name found last => cases last
  | through stands name found goes_on further ih =>
      rw [Nat.add_right_comm, List.cons_append]
      refine .through stands name found (.inl (by simp [nonempty])) ?_
      rw [← List.append_assoc]
      exact ih back reached
  | enter stands name found plain further ih =>
      rw [Nat.add_right_comm]
      exact .enter stands name found plain (ih back reached)

/-- Steps behind others are followed from where the others lead, with what is left. -/
theorem follow_append {between : Location} {middle : Node} {first second : List String} {more : Nat}
    (front : Leads tree true cost here first between (some middle)) (nonempty : second ≠ []) :
    tree.follow throughLast (cost + more) here (first ++ second) =
      tree.follow throughLast more between second := by
  generalize reached : some middle = something at front
  induction front with
  | here place => rw [Nat.zero_add, List.nil_append]
  | current stands further ih =>
      rw [Nat.add_right_comm, List.cons_append, follow_current stands]
      exact ih reached
  | parent stands further ih =>
      rw [Nat.add_right_comm, List.cons_append, follow_parent stands]
      exact ih reached
  | missing stands name absent => cases reached
  | link stands name found last => cases last
  | through stands name found goes_on further ih =>
      rw [Nat.add_right_comm, List.cons_append,
        follow_through stands name found (.inl (by simp [nonempty])), ← List.append_assoc]
      exact ih reached
  | enter stands name found plain further ih =>
      rw [Nat.add_right_comm, List.cons_append, follow_enter stands name found plain]
      exact ih reached

/-- Steps that go on after no others go on where they are. -/
theorem split_nil {second : List String}
    (leads : Leads tree throughLast cost here second there node) (nonempty : second ≠ []) :
    ∃ less more between entries, cost = less + more ∧
      Leads tree true less here [] between (some (.directory entries)) ∧
      Leads tree throughLast more between second there node := by
  obtain ⟨step, rest, rfl⟩ := List.exists_cons_of_ne_nil nonempty
  obtain ⟨entries, stands⟩ := leads.exists_entries
  exact ⟨0, cost, here, entries, (Nat.zero_add cost).symm, stands ▸ .here here, leads⟩

/-- Steps that go on after some others go on in a directory. -/
theorem split {first second : List String}
    (leads : Leads tree throughLast cost here (first ++ second) there node)
    (nonempty : second ≠ []) :
    ∃ less more between entries, cost = less + more ∧
      Leads tree true less here first between (some (.directory entries)) ∧
      Leads tree throughLast more between second there node := by
  -- The induction is on the cost, since a link puts the steps of its target in front.
  induction cost generalizing here first with
  | zero =>
      cases first with
      | nil => exact split_nil leads nonempty
      | cons step first => cases leads
  | succ cost ih =>
      cases first with
      | nil => exact split_nil leads nonempty
      | cons step first =>
          rw [List.cons_append] at leads
          generalize whole : first ++ second = rest at leads
          cases leads with
          | current stands further =>
              subst whole
              obtain ⟨less, more, between, others, rfl, front, back⟩ := ih further
              exact ⟨less + 1, more, between, others, Nat.add_right_comm _ _ _,
                .current stands front, back⟩
          | parent stands further =>
              subst whole
              obtain ⟨less, more, between, others, rfl, front, back⟩ := ih further
              exact ⟨less + 1, more, between, others, Nat.add_right_comm _ _ _,
                .parent stands front, back⟩
          | missing => exact absurd (List.append_eq_nil_iff.mp whole).2 nonempty
          | link => exact absurd (List.append_eq_nil_iff.mp whole).2 nonempty
          | through stands name found goes_on further =>
              subst whole
              rw [← List.append_assoc] at further
              obtain ⟨less, more, between, others, rfl, front, back⟩ := ih further
              exact ⟨less + 1, more, between, others, Nat.add_right_comm _ _ _,
                .through stands name found (.inr rfl) front, back⟩
          | enter stands name found plain further =>
              subst whole
              obtain ⟨less, more, between, others, rfl, front, back⟩ := ih further
              exact ⟨less + 1, more, between, others, Nat.add_right_comm _ _ _,
                .enter stands name found plain front, back⟩

/-- Leaving out single points saves their cost and nothing else. -/
theorem thin {fewer : List String} (leads : Leads tree true cost here steps there node)
    (thins : Thins steps fewer) :
    ∃ less, less + steps.length = cost + fewer.length ∧
      Leads tree true less here fewer there node := by
  induction leads generalizing fewer with
  | here place =>
      cases thins
      exact ⟨0, rfl, .here place⟩
  | @current cost here there rest node entries stands further ih =>
      cases thins with
      | keep _ others =>
          obtain ⟨less, saved, thinner⟩ := ih others
          refine ⟨less + 1, ?_, .current stands thinner⟩
          simp only [List.length_cons]
          omega
      | drop others =>
          obtain ⟨less, saved, thinner⟩ := ih others
          refine ⟨less, ?_, thinner⟩
          simp only [List.length_cons]
          omega
  | parent stands further ih =>
      obtain ⟨kept, rfl, others⟩ := thins.of_cons (by decide)
      obtain ⟨less, saved, thinner⟩ := ih others
      refine ⟨less + 1, ?_, .parent stands thinner⟩
      simp only [List.length_cons]
      omega
  | missing stands name absent =>
      obtain ⟨kept, rfl, others⟩ := thins.of_cons name.current
      cases others
      exact ⟨1, rfl, .missing stands name absent⟩
  | link stands name found last => cases last
  | through stands name found goes_on further ih =>
      obtain ⟨kept, rfl, others⟩ := thins.of_cons name.current
      obtain ⟨less, saved, thinner⟩ := ih ((Thins.refl _).append others)
      refine ⟨less + 1, ?_, .through stands name found (.inr rfl) thinner⟩
      simp only [List.length_append, List.length_cons] at saved ⊢
      omega
  | enter stands name found plain further ih =>
      obtain ⟨kept, rfl, others⟩ := thins.of_cons name.current
      obtain ⟨less, saved, thinner⟩ := ih others
      refine ⟨less + 1, ?_, .enter stands name found plain thinner⟩
      simp only [List.length_cons]
      omega

/-- A change that keeps what stands, and puts no link at the end, does not lead elsewhere. -/
theorem keeps {after : Tree} (leads : Leads tree throughLast cost here steps there node)
    (kept : Keeps tree after)
    (ends : node = none → ∀ target, after.get? there ≠ some (.link target)) :
    Leads after throughLast cost here steps there (after.get? there) := by
  induction leads with
  | here place => exact .here place
  | current stands further ih =>
      obtain ⟨others, still⟩ := kept.directory stands
      exact .current still (ih ends)
  | parent stands further ih =>
      obtain ⟨others, still⟩ := kept.directory stands
      exact .parent still (ih ends)
  | missing stands name absent =>
      obtain ⟨others, still⟩ := kept.directory stands
      rw [Node.get?_concat still]
      refine .of_name still name (.inr ?_)
      simpa only [Node.get?_concat still] using ends rfl
  | link stands name found last =>
      obtain ⟨others, child, still, held, looks⟩ := kept.entry stands found
      obtain rfl := Node.face_eq_link looks
      rw [Node.get?_concat still, held]
      exact .link still name held last
  | through stands name found goes_on further ih =>
      obtain ⟨others, child, still, held, looks⟩ := kept.entry stands found
      obtain rfl := Node.face_eq_link looks
      exact .through still name held goes_on (ih ends)
  | enter stands name found plain further ih =>
      obtain ⟨others, child, still, held, looks⟩ := kept.entry stands found
      refine .enter still name held ?_ (ih ends)
      rintro target rfl
      exact plain target (Node.face_eq_link looks.symm)

/-- Below a place without links, steps that do not go upwards do not lead out. -/
theorem inside {place : Location} (leads : Leads tree throughLast cost here steps there node)
    (linkless : Linkless place tree) (within : place <+: here) (down : ".." ∉ steps) :
    place <+: there := by
  induction leads with
  | here here => exact within
  | current stands further ih => exact ih within fun up => down (List.mem_cons_of_mem _ up)
  | parent stands further ih => exact absurd List.mem_cons_self down
  | missing stands name absent => exact within.trans (List.prefix_append _ _)
  | link stands name found last => exact within.trans (List.prefix_append _ _)
  | through stands name found goes_on further ih =>
      rw [← Node.get?_concat stands] at found
      exact absurd found (linkless _ _ (within.trans (List.prefix_append _ _)))
  | enter stands name found plain further ih =>
      exact ih (within.trans (List.prefix_append _ _)) fun up => down (List.mem_cons_of_mem _ up)

/-- Steps to something still lead to something when a last link is not followed. -/
theorem exists_last {stood : Node} (leads : Leads tree true cost here steps there (some stood)) :
    ∃ less ≤ cost, ∃ last found, Leads tree false less here steps last (some found) := by
  generalize reached : some stood = node at leads
  induction leads with
  | here place => exact ⟨0, Nat.le_refl 0, place, stood, reached ▸ .here place⟩
  | current stands further ih =>
      obtain ⟨less, within, last, found, shorter⟩ := ih reached
      exact ⟨less + 1, Nat.succ_le_succ within, last, found, .current stands shorter⟩
  | parent stands further ih =>
      obtain ⟨less, within, last, found, shorter⟩ := ih reached
      exact ⟨less + 1, Nat.succ_le_succ within, last, found, .parent stands shorter⟩
  | missing stands name absent => cases reached
  | link stands name found last => cases last
  | @through cost here there step target rest node entries stands name found goes_on further ih =>
      by_cases more : rest = []
      · subst more
        exact ⟨1, Nat.le_add_left 1 cost, _, _, .link stands name found rfl⟩
      · obtain ⟨less, within, last, seen, shorter⟩ := ih reached
        exact ⟨less + 1, Nat.succ_le_succ within, last, seen,
          .through stands name found (.inl more) shorter⟩
  | enter stands name found plain further ih =>
      obtain ⟨less, within, last, seen, shorter⟩ := ih reached
      exact ⟨less + 1, Nat.succ_le_succ within, last, seen,
        .enter stands name found plain shorter⟩

/-- Where nothing stands, a last link makes no difference. -/
theorem of_none (leads : Leads tree throughLast cost here steps there none) :
    Leads tree true cost here steps there none := by
  generalize reached : none = node at leads
  induction leads with
  | here place => exact .here place
  | current stands further ih => exact .current stands (ih reached)
  | parent stands further ih => exact .parent stands (ih reached)
  | missing stands name absent => exact .missing stands name absent
  | link stands name found last => cases reached
  | through stands name found goes_on further ih =>
      exact .through stands name found (.inr rfl) (ih reached)
  | enter stands name found plain further ih => exact .enter stands name found plain (ih reached)

end Leads

/-- Below a place without links, steps that do not go upwards are followed in what stands at
the place as in the whole tree. -/
theorem follow_inside {tree content : Tree} {place : Location} {throughLast : Bool}
    (linkless : Linkless place tree) (stands : tree.get? place = some content) (bound : Nat)
    (here : Location) {steps : List String} (down : ".." ∉ steps) :
    tree.follow throughLast bound (place ++ here) steps =
      (content.follow throughLast bound here steps).map fun found =>
        (place ++ found.1, found.2) := by
  have inside : ∀ there, tree.get? (place ++ there) = content.get? there := by
    intro there
    rw [Node.get?_append, stands, Option.bind_some]
  induction bound generalizing here steps with
  | zero =>
      cases steps with
      | nil => rw [follow_nil, follow_nil, inside]; rfl
      | cons step rest => rfl
  | succ bound ih =>
      cases steps with
      | nil => rw [follow_nil, follow_nil, inside]; rfl
      | cons step rest =>
          have behind : ".." ∉ rest := fun up => down (List.mem_cons_of_mem _ up)
          have above := inside here
          cases standing : content.get? here with
          | none =>
              rw [follow_nowhere (above.trans standing), follow_nowhere standing]
              rfl
          | some node =>
              rw [standing] at above
              by_cases directory : ∃ entries, node = .directory entries
              · obtain ⟨entries, rfl⟩ := directory
                by_cases current : step = "."
                · subst current
                  rw [follow_current above, follow_current standing]
                  exact ih here behind
                · have parent : step ≠ ".." := fun up => down (up ▸ List.mem_cons_self)
                  by_cases long : nameLimit < step.utf8ByteSize
                  · rw [follow_long above current parent long,
                      follow_long standing current parent long]
                    rfl
                  · have name : IsName step := ⟨current, parent, Nat.le_of_not_lt long⟩
                    cases found : Table.find? step entries with
                    | none =>
                        rw [follow_name above name, follow_name standing name, found]
                        cases rest.isEmpty with
                        | true =>
                            rw [List.append_assoc]
                            rfl
                        | false => rfl
                    | some child =>
                        have plain : ∀ target, child ≠ .link target := by
                          rintro target rfl
                          rw [← Node.get?_concat above, List.append_assoc] at found
                          exact linkless _ _ (List.prefix_append _ _) found
                        rw [follow_enter above name found plain,
                          follow_enter standing name found plain, List.append_assoc]
                        exact ih (here ++ [step]) behind
              · have plain := not_exists.mp directory
                rw [follow_plain above plain, follow_plain standing plain]
                rfl

end Polyglot.Host.Tree
