import Mathlib.Logic.Function.Basic
import Polyglot.Proofs.Trees

/-!
# What objects and arrays give to fields

A field takes some values and no others (`Shape.take`). The fields of a record are filled by an
object or by an array. An object fills a field when it has exactly one member with the name of
the field and the field takes its value; it leaves the field empty when it has none, and
otherwise it fills nothing at all. Members with other names change nothing
(`gather_eq_some_iff`). An array fills the fields in their order (`lineUp`).
-/

set_option autoImplicit false

namespace Polyglot.Json

open Polyglot.Text (Bytes)

/-! ## What fields take -/

/-- What a field of a shape holds when it is given a value, unless it does not take the value. -/
def Shape.take : Shape → Tree → Option Datum
  | .text, .text value => some (.text value)
  | .optionalText, .null => some .absent
  | .optionalText, .text value => some (.text value)
  | .optionalNatural, .null => some .absent
  | .optionalNatural, .number numeral => numeral.natural?.map .natural
  | _, _ => none

/-- What a field of a shape holds when it is given some values: nothing of none and what it takes
of one; two are too many. -/
def Shape.takeOne : Shape → List Tree → Option (Option Datum)
  | _, [] => some none
  | shape, [tree] => (shape.take tree).map some
  | _, _ => none

/-- Some values are what a shape takes, each as some datum. -/
def Shape.Takes {α : Type} (shape : Shape) (tree : α → Tree) (datum : α → Datum) : Prop :=
  ∀ given held, shape.take given = some held ↔ ∃ value, given = tree value ∧ held = datum value

/-- A field for a text takes a text and nothing else. -/
theorem Shape.takes_text : Shape.text.Takes Tree.text Datum.text := by
  intro given held
  cases given with
  | text value => simp [take, eq_comm]
  | _ => simp [take]

/-- A text, or a null for nothing. -/
def Tree.ofText? : Option String → Tree
  | some value => .text value
  | none => .null

/-- What a field holds that was given a text, or a null for nothing. -/
def Datum.ofText? : Option String → Datum
  | some value => .text value
  | none => .absent

/-- A field for a text that may be missing takes a text or a null. -/
theorem Shape.takes_optionalText : Shape.optionalText.Takes Tree.ofText? Datum.ofText? := by
  intro given held
  cases given with
  | null => simp [take, Option.exists, Tree.ofText?, Datum.ofText?, eq_comm]
  | text value => simp [take, Option.exists, Tree.ofText?, Datum.ofText?, eq_comm]
  | _ => simp [take, Option.exists, Tree.ofText?]

theorem Shape.Takes.takeOne_eq_some_iff {α : Type} {shape : Shape} {tree : α → Tree}
    {datum : α → Datum} (takes : shape.Takes tree datum) {values : List Tree}
    {cell : Option Datum} :
    shape.takeOne values = some cell ↔
      ∃ value : Option α, values = value.toList.map tree ∧ cell = value.map datum := by
  constructor
  · intro taken
    match values, taken with
    | [], taken => exact ⟨none, rfl, (Option.some.inj taken).symm⟩
    | [given], taken =>
        obtain ⟨held, accepted, rfl⟩ := Option.map_eq_some_iff.mp taken
        obtain ⟨value, rfl, rfl⟩ := (takes given held).mp accepted
        exact ⟨some value, rfl, rfl⟩
  · rintro ⟨value, rfl, rfl⟩
    cases value with
    | none => rfl
    | some value =>
        have accepted := (takes (tree value) (datum value)).mpr ⟨value, rfl, rfl⟩
        simp [takeOne, accepted]

/-! ## What an object gives -/

/-- The values of all members with a name, in their order. -/
def valuesOf (name : String) (members : List (String × Tree)) : List Tree :=
  (members.filter fun member => member.1 == name).map (·.2)

/-- What fields hold, by their names. -/
abbrev Cells := String → Option Datum

/-- The cells after a member: a member with the name of a field fills a cell that is free with
what the field takes, and a member with another name changes nothing. -/
def enter (shapes : String → Option Shape) (cells : Cells) (name : String) (tree : Tree) :
    Option Cells :=
  match shapes name, cells name with
  | none, _ => some cells
  | some shape, none =>
    (shape.take tree).map fun datum => Function.update cells name (some datum)
  | some _, some _ => none

/-- The cells after some members. -/
def gather (shapes : String → Option Shape) : Cells → List (String × Tree) → Option Cells
  | cells, [] => some cells
  | cells, (name, tree) :: members =>
    (enter shapes cells name tree).bind fun cells => gather shapes cells members

/-- The members with a name settle its cell: there is none and the cell stays, or the cell is
free, there is one, and the cell holds what the field takes of it. -/
def Settles (shape : Shape) (members : List (String × Tree)) (name : String)
    (before after : Option Datum) : Prop :=
  valuesOf name members = [] ∧ after = before ∨
    before = none ∧ ∃ tree datum, valuesOf name members = [tree] ∧ shape.take tree = some datum ∧
      after = some datum

@[simp] theorem valuesOf_cons_self (name : String) (tree : Tree) (members : List (String × Tree)) :
    valuesOf name ((name, tree) :: members) = tree :: valuesOf name members := by
  simp [valuesOf]

theorem valuesOf_cons_of_ne {name other : String} (different : name ≠ other) (tree : Tree)
    (members : List (String × Tree)) :
    valuesOf other ((name, tree) :: members) = valuesOf other members := by
  simp [valuesOf, different]

theorem valuesOf_append (name : String) (members others : List (String × Tree)) :
    valuesOf name (members ++ others) = valuesOf name members ++ valuesOf name others := by
  rw [valuesOf, List.filter_append, List.map_append, valuesOf, valuesOf]

/-- The order of the members matters only to those with one name. -/
theorem perm_valuesOf {members others : List (String × Tree)} (perm : members.Perm others)
    (name : String) : (valuesOf name members).Perm (valuesOf name others) :=
  (perm.filter _).map _

/-- Members with other names are passed over. -/
theorem valuesOf_eq_nil {name : String} {members : List (String × Tree)}
    (different : ∀ entry ∈ members, entry.1 ≠ name) : valuesOf name members = [] := by
  rw [valuesOf, List.map_eq_nil_iff, List.filter_eq_nil_iff]
  exact fun entry member same => different entry member (beq_iff_eq.mp same)

/-- The members that count under a name are among the members that count. -/
theorem valuesOf_filter {counts : String → Bool} {name : String} (known : counts name = true)
    (members : List (String × Tree)) :
    valuesOf name (members.filter fun member => counts member.1) = valuesOf name members := by
  rw [valuesOf, List.filter_filter, valuesOf]
  refine congrArg _ (List.filter_congr fun member _ => ?_)
  by_cases named : member.1 = name
  · simp [named, known]
  · simp [named]

/-- Members that count keep their values in another order, and among other members. -/
theorem perm_valuesOf_of_filter {counts : String → Bool} {members others : List (String × Tree)}
    (same : (members.filter fun member => counts member.1).Perm
      (others.filter fun member => counts member.1))
    {name : String} (known : counts name = true) :
    (valuesOf name members).Perm (valuesOf name others) := by
  rw [← valuesOf_filter known members, ← valuesOf_filter known others]
  exact perm_valuesOf same name

/-- Members with another name may be left out. -/
theorem valuesOf_filter_of_ne {name other : String} (different : name ≠ other)
    (members : List (String × Tree)) :
    valuesOf name (members.filter fun entry => entry.1 != other) = valuesOf name members :=
  @valuesOf_filter (· != other) name (bne_iff_ne.mpr different) members

theorem valuesOf_filter_self (name : String) (members : List (String × Tree)) :
    valuesOf name (members.filter fun entry => entry.1 != name) = [] :=
  valuesOf_eq_nil fun _ member => bne_iff_ne.mp (List.mem_filter.mp member).2

/-! ## What members hold -/

/-- A number that is a natural of 64 bits. -/
inductive Tree.IsNatural : Tree → Nat → Prop where
  | number {numeral : Numeral} {value : Nat} (natural : numeral.natural? = some value) :
      IsNatural (.number numeral) value

/-- A value that holds something, or a null for nothing. -/
inductive Tree.Maybe {α : Type} (holds : Tree → α → Prop) : Tree → Option α → Prop where
  | null : Maybe holds .null none
  | value {tree : Tree} {value : α} (held : holds tree value) : Maybe holds tree (some value)

/-- The members hold something under a name, or nothing: there is no member with the name, or there
is one that holds it or, for nothing, is null. -/
def MayHold {α : Type} (holds : Tree → α → Prop) (members : List (String × Tree)) (name : String)
    (value : Option α) : Prop :=
  valuesOf name members = [] ∧ value = none ∨
    ∃ tree, valuesOf name members = [tree] ∧ tree.Maybe holds value

/-- What is held under a name does not depend on the order of the values. -/
theorem mayHold_congr {α : Type} {holds : Tree → α → Prop} {members others : List (String × Tree)}
    {name : String} (perm : (valuesOf name members).Perm (valuesOf name others))
    {value : Option α} :
    MayHold holds members name value ↔ MayHold holds others name value := by
  simp only [MayHold, ← List.perm_nil, ← List.perm_singleton, perm.congr_left]

variable {shape : Shape}

theorem settles_nil {name : String} {before after : Option Datum} :
    Settles shape [] name before after ↔ after = before := by
  simp [Settles, valuesOf]

theorem settles_cons_of_ne {name other : String} (different : name ≠ other) {tree : Tree}
    {members : List (String × Tree)} {before after : Option Datum} :
    Settles shape ((name, tree) :: members) other before after ↔
      Settles shape members other before after := by
  simp only [Settles, valuesOf_cons_of_ne different]

/-- The first member with a name settles its cell, and no other may follow. -/
theorem settles_cons_self {name : String} {tree : Tree} {members : List (String × Tree)}
    {before after : Option Datum} : Settles shape ((name, tree) :: members) name before after ↔
      before = none ∧ ∃ datum, shape.take tree = some datum ∧
        Settles shape members name (some datum) after := by
  simp only [Settles, valuesOf_cons_self, List.cons_ne_nil, false_and, false_or, List.cons.injEq,
    reduceCtorEq, or_false]
  constructor
  · rintro ⟨free, _, datum, ⟨rfl, alone⟩, takes, rfl⟩
    exact ⟨free, datum, takes, alone, rfl⟩
  · rintro ⟨free, datum, takes, alone, rfl⟩
    exact ⟨free, tree, datum, ⟨rfl, alone⟩, takes, rfl⟩

/-- Members settle an empty cell with what its field takes of their values. -/
theorem settles_none_iff {members : List (String × Tree)} {name : String} {cell : Option Datum} :
    Settles shape members name none cell ↔ shape.takeOne (valuesOf name members) = some cell := by
  unfold Settles
  match valuesOf name members with
  | [] => simp [Shape.takeOne, eq_comm]
  | [tree] =>
      cases takes : shape.take tree with
      | none => simp [Shape.takeOne, takes]
      | some datum => simp [Shape.takeOne, takes, eq_comm]
  | _ :: _ :: _ => simp [Shape.takeOne]

/-- A value that a field takes fills its free cell. -/
theorem enter_of_take {shapes : String → Option Shape} {cells : Cells} {name : String} {tree : Tree}
    {datum : Datum} (known : shapes name = some shape) (free : cells name = none)
    (takes : shape.take tree = some datum) :
    enter shapes cells name tree = some (Function.update cells name (some datum)) := by
  simp [enter, known, free, takes]

/-- Under the name of a field nothing is taken but what the field takes, and only when the cell is
free. -/
theorem enter_eq_none {shapes : String → Option Shape} {cells : Cells} {name : String} {tree : Tree}
    (known : shapes name = some shape)
    (stuck : ¬ (cells name = none ∧ ∃ datum, shape.take tree = some datum)) :
    enter shapes cells name tree = none := by
  unfold enter
  cases held : cells name with
  | some datum => simp [known]
  | none =>
      cases takes : shape.take tree with
      | none => simp [known, takes]
      | some datum => exact absurd ⟨held, datum, takes⟩ stuck

/-- A member that fills its cell leaves the other cells to the members behind it. -/
theorem settles_update {shapes : String → Option Shape} {cells : Cells} {name other : String}
    {shape otherShape : Shape} {tree : Tree} {datum : Datum} {members : List (String × Tree)}
    {after : Option Datum} (known : shapes name = some shape)
    (knownOther : shapes other = some otherShape) (free : cells name = none)
    (takes : shape.take tree = some datum) :
    Settles otherShape members other (Function.update cells name (some datum) other) after ↔
      Settles otherShape ((name, tree) :: members) other (cells other) after := by
  by_cases same : name = other
  · subst same
    obtain rfl := Option.some.inj (known.symm.trans knownOther)
    simp [settles_cons_self, free, takes]
  · rw [Function.update_of_ne (Ne.symm same), settles_cons_of_ne same]

/-- **The members give exactly the cells that they settle**, name by name. -/
theorem gather_eq_some_iff {shapes : String → Option Shape} {cells after : Cells}
    {members : List (String × Tree)} : gather shapes cells members = some after ↔
      (∀ name shape, shapes name = some shape →
        Settles shape members name (cells name) (after name)) ∧
      ∀ name, shapes name = none → after name = cells name := by
  induction members generalizing cells with
  | nil =>
      simp only [gather, Option.some.injEq, settles_nil]
      constructor
      · rintro rfl
        exact ⟨fun _ _ _ => rfl, fun _ _ => rfl⟩
      · rintro ⟨settled, kept⟩
        funext name
        cases known : shapes name with
        | some shape => exact (settled name shape known).symm
        | none => exact (kept name known).symm
  | cons member members ih =>
      obtain ⟨name, tree⟩ := member
      have apart {one other : String} {shape : Shape} (known : shapes one = some shape)
          (unknown : shapes other = none) : one ≠ other := by
        rintro rfl
        exact absurd (known.symm.trans unknown) (Option.some_ne_none shape)
      simp only [gather, Option.bind_eq_some_iff, ih]
      cases isKnown : shapes name with
      | none =>
          have passed : enter shapes cells name tree = some cells := by simp [enter, isKnown]
          simp only [passed, Option.some.injEq, exists_eq_left']
          refine and_congr_left' (forall₃_congr fun other shape known => ?_)
          exact (settles_cons_of_ne (apart known isKnown).symm).symm
      | some shape =>
          by_cases fills : cells name = none ∧ ∃ datum, shape.take tree = some datum
          · obtain ⟨free, datum, takes⟩ := fills
            simp only [enter_of_take isKnown free takes, Option.some.injEq, exists_eq_left']
            refine and_congr
              (forall₃_congr fun other shape known => settles_update isKnown known free takes)
              (forall₂_congr fun other unknown => ?_)
            rw [Function.update_of_ne (apart isKnown unknown).symm]
          · simp only [enter_eq_none isKnown fills, reduceCtorEq, false_and, exists_false,
              false_iff]
            rintro ⟨settled, _⟩
            obtain ⟨free, datum, takes, _⟩ := settles_cons_self.mp (settled name shape isKnown)
            exact fills ⟨free, datum, takes⟩

/-! ## Rows of cells -/

/-- The row that cells are. -/
def rowOf (fields : List Field) (cells : Cells) : Row :=
  fields.map fun field => cells field.name

theorem filled_rowOf {fields : List Field} {name : String} (known : name ∈ fields.map (·.name))
    (cells : Cells) : filled name fields (rowOf fields cells) = (cells name).isSome := by
  induction fields with
  | nil => cases known
  | cons field fields ih =>
      simp only [rowOf, List.map_cons, filled]
      by_cases same : field.name = name
      · rw [if_pos same, same]
      · rw [if_neg same]
        exact ih ((List.mem_cons.mp known).resolve_left (Ne.symm same))

/-- Filling the field of a name updates its cell, when no other field has the name. -/
theorem fill_rowOf {fields : List Field} (apart : (fields.map (·.name)).Nodup) {name : String}
    (known : name ∈ fields.map (·.name)) (cells : Cells) (datum : Datum) :
    fill name datum fields (rowOf fields cells) =
      rowOf fields (Function.update cells name (some datum)) := by
  induction fields with
  | nil => cases known
  | cons field fields ih =>
      simp only [List.map_cons, List.nodup_cons] at apart
      simp only [rowOf, List.map_cons, fill]
      by_cases same : field.name = name
      · subst same
        rw [if_pos rfl, Function.update_self]
        refine congrArg _ (List.map_congr_left fun other member => ?_)
        have different : other.name ≠ field.name := fun same =>
          apart.1 (same ▸ List.mem_map_of_mem member)
        rw [Function.update_of_ne different]
      · rw [if_neg same, Function.update_of_ne same]
        exact congrArg _ (ih apart.2 ((List.mem_cons.mp known).resolve_left (Ne.symm same)))

/-! ## What an array gives -/

/-- The row that some values give to some fields in their order: every field takes its value, there
are not too many values, and only fields that an array may leave out are left out. -/
def lineUp : List Field → List Tree → Option Row
  | [], [] => some []
  | [], _ :: _ => none
  | field :: fields, [] => if field.inArray then none else (lineUp fields []).map (none :: ·)
  | field :: fields, tree :: trees =>
    (field.shape.take tree).bind fun datum => (lineUp fields trees).map (some datum :: ·)

/-- No value lines up with fields that an array may leave out. -/
theorem lineUp_nil_eq_some_iff {fields : List Field} {row : Row} : lineUp fields [] = some row ↔
    (∀ field ∈ fields, field.inArray = false) ∧ row = List.replicate fields.length none := by
  induction fields generalizing row with
  | nil =>
      simp only [lineUp, Option.some.injEq, List.not_mem_nil, false_implies, implies_true, true_and,
        List.length_nil, List.replicate_zero]
      exact eq_comm
  | cons field fields ih =>
      rw [lineUp, List.forall_mem_cons]
      cases required : field.inArray with
      | true => simp
      | false =>
          simp only [Bool.false_eq_true, if_false, Option.map_eq_some_iff, ih, true_and,
            List.length_cons, List.replicate_succ]
          constructor
          · rintro ⟨_, ⟨optional, rfl⟩, rfl⟩
            exact ⟨optional, rfl⟩
          · rintro ⟨optional, rfl⟩
            exact ⟨_, ⟨optional, rfl⟩, rfl⟩

/-- A field that an array may not leave out takes the first of the values. -/
theorem lineUp_cons_eq_some_iff {field : Field} (required : field.inArray = true)
    {fields : List Field} {trees : List Tree} {row : Row} :
    lineUp (field :: fields) trees = some row ↔ ∃ tree more datum cells, trees = tree :: more ∧
      field.shape.take tree = some datum ∧ lineUp fields more = some cells ∧
      row = some datum :: cells := by
  constructor
  · intro lined
    cases trees with
    | nil => simp [lineUp, required] at lined
    | cons tree more =>
        obtain ⟨datum, takes, others⟩ := Option.bind_eq_some_iff.mp lined
        obtain ⟨cells, rest, rfl⟩ := Option.map_eq_some_iff.mp others
        exact ⟨tree, more, datum, cells, rfl, takes, rest, rfl⟩
  · rintro ⟨tree, more, datum, cells, rfl, takes, rest, rfl⟩
    rw [lineUp, takes, rest]
    rfl

/-- Nothing is left for no fields. -/
theorem lineUp_no_fields_eq_some_iff {trees : List Tree} {row : Row} :
    lineUp [] trees = some row ↔ trees = [] ∧ row = [] := by
  cases trees with
  | nil => simp [lineUp, eq_comm]
  | cons tree trees => simp [lineUp]

/-- Values line up with fields of one shape when the shape takes them, and they are not too many
and not too few. -/
theorem Shape.Takes.lineUp_eq_some_iff {α : Type} {shape : Shape} {tree : α → Tree}
    {datum : α → Datum} (takes : shape.Takes tree datum) {fields : List Field}
    (alike : ∀ field ∈ fields, field.shape = shape) {trees : List Tree} {row : Row} :
    lineUp fields trees = some row ↔ ∃ values : List α, trees = values.map tree ∧
      values.length ≤ fields.length ∧
      (∀ field ∈ fields.drop values.length, field.inArray = false) ∧
      row = values.map (some ∘ datum) ++ List.replicate (fields.length - values.length) none := by
  induction trees generalizing fields row with
  | nil =>
      rw [lineUp_nil_eq_some_iff]
      constructor
      · rintro ⟨optional, rfl⟩
        exact ⟨[], rfl, Nat.zero_le _, optional, rfl⟩
      · rintro ⟨values, none, _, optional, rfl⟩
        obtain rfl := List.map_eq_nil_iff.mp none.symm
        exact ⟨optional, rfl⟩
  | cons given trees ih =>
      cases fields with
      | nil =>
          simp only [lineUp, reduceCtorEq, false_iff]
          rintro ⟨values, same, most, _⟩
          obtain rfl := List.length_eq_zero_iff.mp (Nat.le_zero.mp most)
          cases same
      | cons field fields =>
          obtain ⟨same, others⟩ := List.forall_mem_cons.mp alike
          rw [lineUp, same]
          constructor
          · intro lined
            obtain ⟨held, accepted, more⟩ := Option.bind_eq_some_iff.mp lined
            obtain ⟨value, rfl, rfl⟩ := (takes given held).mp accepted
            obtain ⟨cells, rest, rfl⟩ := Option.map_eq_some_iff.mp more
            obtain ⟨values, rfl, most, optional, rfl⟩ := (ih others).mp rest
            refine ⟨value :: values, rfl, Nat.succ_le_succ most, optional, ?_⟩
            simp
          · rintro ⟨values, same, most, optional, rfl⟩
            obtain ⟨value, values, rfl⟩ := List.exists_cons_of_ne_nil (l := values) (by
              rintro rfl
              cases same)
            obtain ⟨rfl, rfl⟩ := List.cons.inj same
            have accepted := (takes (tree value) (datum value)).mpr ⟨value, rfl, rfl⟩
            have rest := (ih others).mpr ⟨values, rfl, Nat.le_of_succ_le_succ most, optional, rfl⟩
            simp [accepted, rest]

end Polyglot.Json
