import Polyglot.Proofs.Cells

/-!
# The two forms of a record

A record is read from every text of a value, and from the values alone it depends whether it is
read and as which row: from an object as what its fields take of the members with their names
(`Schema.read_object_iff`), from an array as what its fields take of the elements
(`Schema.read_list_iff`), and from no other value (`Schema.read_other`).

A reader that meets a fault stops there, so what stands behind the fault does not matter. The
statements about what is read therefore speak of answers that bring no row (`Refuses`), not of
the fault or its place.
-/

set_option autoImplicit false

namespace Polyglot.Json

open Polyglot.Text (Bytes)

/-! ## Values of fields -/

/-- A reading in two parts succeeds when both parts do. -/
theorem bind_eq_ok_iff {ε α β : Type} {first : Except ε α} {next : α → Except ε β} {result : β} :
    (first >>= next) = .ok result ↔ ∃ value, first = .ok value ∧ next value = .ok result := by
  cases first with
  | error fault => simp [bind, Except.bind]
  | ok value => simp [bind, Except.bind]

/-- A reading succeeds with what becomes of a value when the value is read. -/
theorem map_eq_ok_iff {ε α β : Type} {first : Except ε α} {become : α → β} {result : β} :
    first.map become = .ok result ↔ ∃ value, first = .ok value ∧ become value = result := by
  cases first with
  | error fault => simp [Except.map]
  | ok value => simp [Except.map]

/-- A reading that brings no row. -/
def Refuses {α : Type} (answer : Except Fault (Except Mismatch α × Cursor)) : Prop :=
  ∀ value cursor, answer ≠ .ok (.ok value, cursor)

theorem refuses_fault {α : Type} (fault : Fault) :
    Refuses (.error fault : Except Fault (Except Mismatch α × Cursor)) := by
  intro value there same
  cases same

theorem refuses_mismatch {α : Type} (what : Mismatch) (cursor : Cursor) :
    Refuses (.ok (.error what, cursor) : Except Fault (Except Mismatch α × Cursor)) := by
  intro value there same
  cases same

/-- A complaint about the kind of a value is a fault, whatever the value is. -/
theorem wrongKind_eq_error {α : Type} (expected : String) (cursor : Cursor) :
    ∃ fault, (wrongKind expected cursor : Except Fault α) = .error fault := by
  have bound {β : Type} (first : Except Fault β) {next : β → Except Fault α}
      (fails : ∀ value, ∃ fault, next value = .error fault) :
      ∃ fault, (first >>= next) = .error fault := by
    cases first with
    | error fault => exact ⟨fault, rfl⟩
    | ok value => exact fails value
  unfold wrongKind
  split
  · exact ⟨_, rfl⟩
  · repeat' split
    · exact bound _ fun _ => ⟨_, rfl⟩
    · exact bound _ fun _ => ⟨_, rfl⟩
    · exact bound _ fun _ => ⟨_, rfl⟩
    · exact bound _ fun _ => ⟨_, rfl⟩
    · exact bound _ fun _ => ⟨_, rfl⟩
    · exact ⟨_, rfl⟩
    · exact ⟨_, rfl⟩
    · exact ⟨_, rfl⟩

/-- Only a string is read as a text. -/
theorem readTextValue_of_renders {bytes : Bytes} {tree : Tree}
    (renders : Renders bytes (.value tree)) (noText : ∀ value, tree ≠ .text value) {gap : Bytes}
    (isGap : IsGap gap) (rest : Bytes) (here : Position) : ∃ fault, readTextValue ⟨gap ++ (bytes ++ rest), here⟩ = .error fault := by
  obtain ⟨byte, more, rfl, begins⟩ := renders.begins
  obtain ⟨there, skipped⟩ := skipSpace_of_isGap isGap begins.part.1 (more ++ rest) here
  have noQuote : byte ≠ 0x22 := by
    rintro rfl
    obtain ⟨value, same⟩ := begins.quote
    exact noText value same
  obtain ⟨fault, failed⟩ := wrongKind_eq_error (α := Datum × Cursor) "a string"
    ⟨byte :: (more ++ rest), there⟩
  refine ⟨fault, ?_⟩
  simp only [readTextValue, List.cons_append, skipped, Cursor.peek?_mk_cons, if_neg noQuote, failed]

/-- Only a number that is a natural is read as one. -/
theorem readNaturalValue_of_renders {bytes : Bytes} {tree : Tree}
    (renders : Renders bytes (.value tree))
    (noNatural : ∀ numeral, tree = .number numeral → numeral.natural? = none) {gap : Bytes}
    (isGap : IsGap gap) {rest : Bytes} (delimited : Delimited rest) (here : Position) :
    ∃ fault, readNaturalValue ⟨gap ++ (bytes ++ rest), here⟩ = .error fault := by
  obtain ⟨byte, more, shape, begins⟩ := renders.begins
  obtain ⟨there, skipped⟩ := skipSpace_of_isGap isGap begins.part.1 (more ++ rest) here
  simp only [shape, readNaturalValue, List.cons_append, skipped, Cursor.peek?_mk_cons,
    Bool.or_eq_true, decide_eq_true_eq]
  by_cases first : byte = 0x2D ∨ (digit? byte).isSome = true
  · obtain ⟨numeral, rfl⟩ := begins.number first
    have spelt : bytes = numeral.spelling := by cases renders; rfl
    rw [if_pos first, ← List.cons_append, ← shape, spelt]
    cases read : readNumber ⟨numeral.spelling ++ rest, there⟩ with
    | error fault => exact ⟨fault, rfl⟩
    | ok answer =>
        obtain ⟨number, cursor⟩ := answer
        cases number with
        | float negative magnitude => exact ⟨_, rfl⟩
        | integer value =>
            have below := Numeral.negative_of_readNumber (noNatural numeral rfl) delimited read
            simp only [bind, Except.bind, if_neg (Int.not_le.mpr below)]
            exact ⟨_, rfl⟩
  · rw [if_neg first]
    exact wrongKind_eq_error _ _

namespace Shape

variable {shape : Shape} {tree : Tree} {bytes gap : Bytes}

/-- A value is read as what a field takes of it. -/
theorem reads_of_take {datum : Datum} (takes : shape.take tree = some datum)
    (renders : Renders bytes (.value tree)) (isGap : IsGap gap) :
    Reads Delimited shape.read (gap ++ bytes) datum := by
  cases shape with
  | text =>
      obtain ⟨value, rfl, rfl⟩ := (takes_text tree datum).mp takes
      cases renders with
      | text spelt => exact reads_readTextValue spelt isGap
  | optionalText =>
      cases renders with
      | null =>
          obtain rfl := Option.some.inj takes
          exact reads_null _ isGap
      | text spelt =>
          obtain rfl := Option.some.inj takes
          exact (reads_readTextValue spelt isGap_nil).optional isGap rfl (by decide)
      | _ => cases takes
  | optionalNatural =>
      cases renders with
      | null =>
          obtain rfl := Option.some.inj takes
          exact reads_null _ isGap
      | number numeral =>
          obtain ⟨value, natural, rfl⟩ := Option.map_eq_some_iff.mp takes
          exact reads_optionalNatural natural isGap
      | _ => cases takes

/-- What a field does not take is not read. -/
theorem read_of_take_eq_none (refuses : shape.take tree = none)
    (renders : Renders bytes (.value tree)) (isGap : IsGap gap) {rest : Bytes}
    (delimited : Delimited rest) (here : Position) :
    ∃ fault, shape.read ⟨gap ++ (bytes ++ rest), here⟩ = .error fault := by
  -- A field that may be null takes a null, so what it refuses is left to its other reader.
  have optional (reader : Cursor → Except Fault (Datum × Cursor)) (noNull : tree ≠ .null)
      (fails : ∀ there, ∃ fault, reader ⟨[] ++ (bytes ++ rest), there⟩ = .error fault) :
      ∃ fault, readOptional reader ⟨gap ++ (bytes ++ rest), here⟩ = .error fault := by
    obtain ⟨byte, more, rfl, begins⟩ := renders.begins
    have other : byte ≠ 0x6E := by
      rintro rfl
      exact noNull begins.letter
    obtain ⟨there, left⟩ := readOptional_of_ne reader isGap begins.part.1 other (more ++ rest) here
    rw [List.cons_append, left]
    exact fails there
  cases shape with
  | text =>
      refine readTextValue_of_renders renders ?_ isGap rest here
      rintro value rfl
      cases refuses
  | optionalText =>
      refine optional _ ?_ fun there => readTextValue_of_renders renders ?_ isGap_nil rest there
      · rintro rfl
        cases refuses
      · rintro value rfl
        cases refuses
  | optionalNatural =>
      refine optional _ ?_ fun there =>
        readNaturalValue_of_renders renders ?_ isGap_nil delimited there
      · rintro rfl
        cases refuses
      · rintro numeral rfl
        exact Option.map_eq_none_iff.mp refuses

end Shape

/-- A reading brings the row of the cells that are given, in front of what comes next, or it
brings no row when none are given. -/
def Brings (fields : List Field) (given : Option Cells) (rest : Bytes)
    (answer : Except Fault (Except Mismatch Row × Cursor)) : Prop :=
  match given with
  | some after => ∃ there, answer = .ok (.ok (rowOf fields after), ⟨rest, there⟩)
  | none => Refuses answer

/-- Behind the bracket that closes a record nothing may follow but a gap. -/
theorem finish_eq_ok_iff {outcome : Except Mismatch Row} {close : Except Fault Cursor × Cursor}
    {behind : Bytes} {there : Position} (closed : close.1 = .ok ⟨behind, there⟩)
    (isGap : IsGap behind) {row : Row} :
    (finish outcome close >>= expectEnd) = .ok row ↔ outcome = .ok row := by
  obtain ⟨last, ended⟩ := skipSpace_of_isGap_end isGap there
  cases outcome with
  | error what => exact ⟨nofun, nofun⟩
  | ok filled =>
      simp [finish, closed, Except.map, bind, Except.bind, expectEnd, ended, Cursor.peek?]

theorem closeObject_brace (behind : Bytes) (here : Position) : ∃ there,
    (closeObject ⟨0x7D :: behind, here⟩).1 = .ok ⟨behind, there⟩ := by
  have brace : Cursor.isSpace 0x7D = false := rfl
  obtain ⟨there, skipped⟩ := skipSpace_of_isGap isGap_nil brace behind here
  rw [List.nil_append] at skipped
  refine ⟨there.after 0x7D, ?_⟩
  simp only [closeObject, skipped, Cursor.peek?_mk_cons, if_true, Cursor.advance_mk_cons]

/-- A record is not read when no row comes of its parts. -/
theorem finish_of_refuses {answer : Except Fault (Except Mismatch Row × Cursor)}
    (refuses : Refuses answer) {judge : Except Mismatch Row → Except Mismatch Row}
    (keeps : ∀ what, judge (.error what) = .error what)
    (close : Cursor → Except Fault Cursor × Cursor) (row : Row) :
    ((answer >>= fun answer => finish (judge answer.1) (close answer.2)) >>= expectEnd) ≠
      .ok row := by
  cases answer with
  | error fault =>
      intro read
      cases read
  | ok answer =>
      obtain ⟨outcome, cursor⟩ := answer
      cases outcome with
      | error what =>
          simp only [bind, Except.bind, keeps]
          intro read
          cases read
      | ok filled => exact absurd rfl (refuses filled cursor)

/-- A reading that does what a member does to the cells, and then what the members behind it do,
brings what they give together. -/
theorem brings_cons {fields : List Field} {shapes : String → Option Shape} {cells : Cells}
    {name : String} {tree : Tree} {members : List (String × Tree)} {rest : Bytes}
    {answer : Except Fault (Except Mismatch Row × Cursor)}
    {further : Cells → Position → Except Fault (Except Mismatch Row × Cursor)}
    (step : (∀ after, enter shapes cells name tree = some after →
        ∃ there, answer = further after there) ∧
      (enter shapes cells name tree = none → Refuses answer))
    (more : ∀ after there, Brings fields (gather shapes after members) rest (further after there)) :
    Brings fields (gather shapes cells ((name, tree) :: members)) rest answer := by
  rw [gather]
  cases entered : enter shapes cells name tree with
  | none => exact step.2 entered
  | some after =>
      obtain ⟨there, same⟩ := step.1 after entered
      rw [same]
      exact more after there

namespace Schema

variable {schema : Schema}

/-! ## Reading an object -/

/-- Whether a name is one of a field. -/
def knows (schema : Schema) (name : String) : Bool :=
  schema.fields.any fun field => field.name == name

/-- The shape of the field with a name. -/
def shapes (schema : Schema) (name : String) : Option Shape :=
  (schema.fields.find? fun field => field.name == name).map (·.shape)

/-- A name with a shape is the name of a field of the shape. -/
theorem find?_of_shapes {name : String} {shape : Shape} (known : schema.shapes name = some shape) :
    ∃ field ∈ schema.fields, (schema.fields.find? fun field => field.name == name) = some field ∧
      field.name = name ∧ field.shape = shape := by
  obtain ⟨field, found, same⟩ := Option.map_eq_some_iff.mp known
  exact ⟨field, List.mem_of_find?_eq_some found, found,
    beq_iff_eq.mp (List.find?_some found :), same⟩

/-- The shape of a field is found under its name, when no other field has the name. -/
theorem shapes_of_mem (apart : (schema.fields.map (·.name)).Nodup) {field : Field}
    (member : field ∈ schema.fields) : schema.shapes field.name = some field.shape := by
  obtain ⟨before, behind, split⟩ := List.append_of_mem member
  rw [split, List.map_append, List.map_cons, List.nodup_append] at apart
  have new : field.name ∉ before.map (·.name) := fun among =>
    apart.2.2 _ among _ List.mem_cons_self rfl
  rw [shapes, split, find?_append new]
  rfl

section Members

variable (apart : (schema.fields.map (·.name)).Nodup)

include apart

/-- One step of the reading does what the member does to the cells. -/
theorem readMembers_renders_member {bytes : Bytes} {name : String} {tree : Tree}
    (renders : Renders bytes (.member name tree)) {rest : Bytes} (delimited : Delimited rest)
    {first : Bool} {cursor : Cursor} {start : Position}
    (comes : nextMember first cursor = .ok (true, ⟨bytes ++ rest, start⟩)) (cells : Cells)
    (fuel : Nat) :
    (∀ after, enter schema.shapes cells name tree = some after → ∃ there,
      schema.readMembers (fuel + 1) first (rowOf schema.fields cells) cursor =
        schema.readMembers fuel false (rowOf schema.fields after) ⟨rest, there⟩) ∧
    (enter schema.shapes cells name tree = none →
      Refuses (schema.readMembers (fuel + 1) first (rowOf schema.fields cells) cursor)) := by
  cases renders with
  | @member key before behind bytes chars tree named isGapBefore isGapBehind value =>
      simp only [List.cons_append, List.append_assoc] at comes
      obtain ⟨atValue, behindName, readName, colon⟩ :=
        reads_readName named isGapBefore (behind ++ (bytes ++ rest)) (start.after 0x22)
      rw [readMembers, comes]
      simp only [bind, Except.bind, if_true, Cursor.advance_mk_cons, readName]
      cases known : schema.shapes (String.ofList chars) with
      | none =>
          obtain ⟨there, passed⟩ := value.skipValue isGapBehind delimited atValue
          have unknown := Option.map_eq_none_iff.mp known
          have kept : enter schema.shapes cells (String.ofList chars) tree = some cells := by
            simp [enter, known]
          simp only [unknown, colon, passed, kept]
          exact ⟨fun after same => ⟨there, by rw [Option.some.inj same]⟩,
            fun absent => absurd absent (Option.some_ne_none cells)⟩
      | some shape =>
          obtain ⟨field, member, found, named, rfl⟩ := find?_of_shapes known
          have among : String.ofList chars ∈ schema.fields.map (·.name) :=
            named ▸ List.mem_map_of_mem member
          simp only [found, filled_rowOf among, colon]
          cases free : cells (String.ofList chars) with
          | some datum =>
              have stuck : ¬ (cells (String.ofList chars) = none ∧
                  ∃ datum, field.shape.take tree = some datum) := by
                simp [free]
              simp only [enter_eq_none known stuck, Option.isSome_some, if_true]
              exact ⟨fun after absent => absurd absent.symm (Option.some_ne_none after),
                fun _ => refuses_mismatch _ _⟩
          | none =>
              cases takes : field.shape.take tree with
              | some datum =>
                  obtain ⟨there, read⟩ := Shape.reads_of_take takes value isGapBehind rest atValue
                    delimited
                  rw [List.append_assoc] at read
                  simp only [enter_of_take known free takes, read, fill_rowOf apart among]
                  exact ⟨fun after same => ⟨there, by rw [Option.some.inj same]; rfl⟩,
                    fun absent => absurd absent (Option.some_ne_none _)⟩
              | none =>
                  obtain ⟨fault, failed⟩ := Shape.read_of_take_eq_none takes value isGapBehind
                    delimited atValue
                  have stuck : ¬ (cells (String.ofList chars) = none ∧
                      ∃ datum, field.shape.take tree = some datum) := by
                    simp [takes]
                  simp only [enter_eq_none known stuck, failed]
                  exact ⟨fun after absent => absurd absent.symm (Option.some_ne_none after),
                    fun _ => refuses_fault fault⟩

/-- The members behind the first one bring the cells that they give. -/
theorem readMembers_renders_members {members : List (String × Tree)} {bytes : Bytes}
    (renders : Renders bytes (.members members)) (cells : Cells) (rest : Bytes) (here : Position)
    (fuel : Nat) (enough : members.length < fuel) :
    Brings schema.fields (gather schema.shapes cells members) (0x7D :: rest)
      (schema.readMembers fuel false (rowOf schema.fields cells) ⟨bytes ++ 0x7D :: rest, here⟩) := by
  induction members generalizing bytes cells here fuel with
  | nil =>
      cases renders with
      | lastMember isGap => exact readMembers_end isGap false _ rest here enough
  | cons member members ih =>
      obtain ⟨fuel, rfl⟩ := Nat.exists_eq_add_one_of_ne_zero (Nat.ne_zero_of_lt enough)
      cases renders with
      | @nextMember before behind next more name tree _ isGapBefore isGapBehind member others =>
          have closes : Closes .object more := others.walked
          obtain ⟨start, comes⟩ := nextMember_more isGapBefore isGapBehind member.quoted
            (more ++ 0x7D :: rest) here
          have step := readMembers_renders_member apart member (closes.delimited rest) comes cells
            fuel
          simp only [List.append_assoc, List.cons_append]
          exact brings_cons step fun after there =>
            ih others after there fuel (Nat.lt_of_succ_lt_succ enough)

/-- The members of an object bring the cells that they give. -/
theorem readMembers_renders_object {members : List (String × Tree)} {bytes : Bytes}
    (renders : Renders bytes (.value (.object members))) (cells : Cells) : ∃ inside,
    bytes = 0x7B :: inside ∧ members.length ≤ inside.length ∧
    ∀ rest here fuel, members.length < fuel →
      Brings schema.fields (gather schema.shapes cells members) (0x7D :: rest)
        (schema.readMembers fuel true (rowOf schema.fields cells) ⟨inside ++ rest, here⟩) := by
  cases renders with
  | @emptyObject gap isGap =>
      refine ⟨gap ++ [0x7D], rfl, Nat.zero_le _, fun rest here fuel enough => ?_⟩
      rw [List.append_assoc, List.singleton_append]
      exact readMembers_end isGap true _ rest here enough
  | @object gap first more name tree members isGap member others =>
      have closes : Closes .object more := others.walked
      refine ⟨gap ++ (first ++ (more ++ [0x7D])), rfl, ?_, fun rest here fuel enough => ?_⟩
      · have least := others.length_le_members
        simp only [List.length_append, List.length_cons, List.length_nil]
        omega
      · obtain ⟨fuel, rfl⟩ := Nat.exists_eq_add_one_of_ne_zero (Nat.ne_zero_of_lt enough)
        obtain ⟨start, comes⟩ := nextMember_first isGap member.quoted (more ++ 0x7D :: rest) here
        have step := readMembers_renders_member apart member (closes.delimited rest) comes cells
          fuel
        simp only [List.append_assoc, List.singleton_append]
        exact brings_cons step fun after there => readMembers_renders_members apart others after
          rest there fuel (Nat.lt_of_succ_lt_succ enough)

/-- An object is read when its members give cells and none that must be filled is empty. -/
theorem read_object_iff_gather {members : List (String × Tree)} {bytes front behind : Bytes}
    (renders : Renders bytes (.value (.object members))) (isGapFront : IsGap front)
    (isGapBehind : IsGap behind) {row : Row} : schema.read (front ++ bytes ++ behind) = .ok row ↔
      ∃ after, gather schema.shapes (fun _ => none) members = some after ∧
        firstMissing? schema.fields (rowOf schema.fields after) = none ∧
        rowOf schema.fields after = row := by
  obtain ⟨inside, rfl, least, brings⟩ := readMembers_renders_object apart renders fun _ => none
  have opening : Cursor.isSpace 0x7B = false := rfl
  obtain ⟨start, skipped⟩ := skipSpace_of_isGap isGapFront opening (inside ++ behind) ⟨1, 0⟩
  have given := brings behind (start.after 0x7B) ((0x7B :: (inside ++ behind)).length + 1) (by
    simp only [List.length_cons, List.length_append]
    omega)
  rw [List.append_assoc, List.cons_append, Schema.read, Cursor.start, readFrom]
  simp only [skipped, Cursor.peek?_mk_cons, Cursor.advance_mk_cons]
  rw [if_neg (by decide)]
  simp only [if_true]
  cases gathered : gather schema.shapes (fun _ => none) members with
  | none =>
      rw [gathered] at given
      simp only [reduceCtorEq, false_and, exists_false, iff_false]
      exact @finish_of_refuses _ given (fun outcome => outcome.bind _) (fun _ => rfl) closeObject row
  | some after =>
      rw [gathered] at given
      obtain ⟨there, answered⟩ := given
      obtain ⟨last, closed⟩ := closeObject_brace behind there
      rw [rowOf] at answered
      simp only [answered, Option.some.injEq, exists_eq_left']
      refine (finish_eq_ok_iff closed isGapBehind).trans ?_
      cases missing : firstMissing? schema.fields (rowOf schema.fields after) with
      | some name => simp [Except.bind, missing]
      | none => simp [Except.bind, missing]

/-- The members give cells exactly when every field takes what comes with its name. -/
theorem gather_rowOf_iff {members : List (String × Tree)} {row : Row} :
    (∃ after, gather schema.shapes (fun _ => none) members = some after ∧
      rowOf schema.fields after = row) ↔
    List.Forall₂ (fun field cell => field.shape.takeOne (valuesOf field.name members) = some cell)
      schema.fields row := by
  simp only [gather_eq_some_iff, settles_none_iff]
  constructor
  · rintro ⟨after, ⟨taken, _⟩, rfl⟩
    rw [rowOf, List.forall₂_map_right_iff, List.forall₂_same]
    exact fun field member => taken field.name field.shape (shapes_of_mem apart member)
  · intro taken
    have cells : (schema.fields.map fun field => field.shape.takeOne (valuesOf field.name members)) =
        row.map some := by
      rwa [← List.forall₂_eq_eq_eq, List.forall₂_map_left_iff, List.forall₂_map_right_iff]
    let after : Cells := fun name =>
      (schema.shapes name).bind fun shape => (shape.takeOne (valuesOf name members)).join
    have held {field : Field} (member : field ∈ schema.fields) :
        field.shape.takeOne (valuesOf field.name members) = some (after field.name) := by
      have among := List.mem_map_of_mem (f := fun field : Field =>
        field.shape.takeOne (valuesOf field.name members)) member
      rw [cells] at among
      obtain ⟨cell, _, takes⟩ := List.mem_map.mp among
      simp [after, shapes_of_mem apart member, ← takes]
    refine ⟨after, ⟨fun name shape known => ?_, fun name unknown => ?_⟩, ?_⟩
    · obtain ⟨field, member, _, rfl, rfl⟩ := find?_of_shapes known
      exact held member
    · simp [after, unknown]
    · refine List.map_injective_iff.mpr (fun _ _ => Option.some.inj) ?_
      rw [← cells, rowOf, List.map_map]
      exact List.map_congr_left fun field member => (held member).symm

/-- **An object is read exactly when every field takes what comes with its name** and none that an
object must have is missing. -/
theorem read_object_iff {members : List (String × Tree)} {bytes front behind : Bytes}
    (renders : Renders bytes (.value (.object members))) (isGapFront : IsGap front)
    (isGapBehind : IsGap behind) {row : Row} : schema.read (front ++ bytes ++ behind) = .ok row ↔
      List.Forall₂ (fun field cell => field.shape.takeOne (valuesOf field.name members) = some cell)
        schema.fields row ∧ firstMissing? schema.fields row = none := by
  rw [read_object_iff_gather apart renders isGapFront isGapBehind, ← gather_rowOf_iff apart]
  constructor
  · rintro ⟨after, gathered, whole, rfl⟩
    exact ⟨⟨after, gathered, rfl⟩, whole⟩
  · rintro ⟨⟨after, gathered, rfl⟩, whole⟩
    exact ⟨after, gathered, whole, rfl⟩

end Members

end Schema

/-! ## Reading an array -/

theorem nextElement_end {gap : Bytes} (isGap : IsGap gap) (first : Bool) (rest : Bytes)
    (here : Position) : ∃ there,
    nextElement first ⟨gap ++ 0x5D :: rest, here⟩ = .ok (false, ⟨0x5D :: rest, there⟩) := by
  have close : Cursor.isSpace 0x5D = false := rfl
  obtain ⟨there, skipped⟩ := skipSpace_of_isGap isGap close rest here
  refine ⟨there, ?_⟩
  simp only [nextElement, skipped, Cursor.peek?_mk_cons, if_true]

theorem nextElement_first {gap : Bytes} (isGap : IsGap gap) {byte : UInt8}
    (part : Cursor.isSpace byte = false) (inside : byte ≠ 0x5D) (rest : Bytes) (here : Position) :
    ∃ there, nextElement true ⟨gap ++ byte :: rest, here⟩ = .ok (true, ⟨byte :: rest, there⟩) := by
  obtain ⟨there, skipped⟩ := skipSpace_of_isGap isGap part rest here
  refine ⟨there, ?_⟩
  simp only [nextElement, skipped, Cursor.peek?_mk_cons, if_neg inside, if_true]

theorem nextElement_more {before behind : Bytes} (isGapBefore : IsGap before)
    (isGapBehind : IsGap behind) {byte : UInt8} (part : Cursor.isSpace byte = false)
    (inside : byte ≠ 0x5D) (rest : Bytes) (here : Position) : ∃ there,
    nextElement false ⟨before ++ 0x2C :: (behind ++ byte :: rest), here⟩ =
      .ok (true, ⟨byte :: rest, there⟩) := by
  have comma : Cursor.isSpace 0x2C = false := rfl
  obtain ⟨atComma, skipped⟩ := skipSpace_of_isGap isGapBefore comma (behind ++ byte :: rest) here
  obtain ⟨there, skippedToo⟩ := skipSpace_of_isGap isGapBehind part rest (atComma.after 0x2C)
  refine ⟨there, ?_⟩
  simp only [nextElement, skipped, Cursor.peek?_mk_cons, Cursor.advance_mk_cons, skippedToo,
    if_neg inside]
  rfl

theorem closeArray_bracket {gap : Bytes} (isGap : IsGap gap) (behind : Bytes) (here : Position) :
    ∃ there, (closeArray ⟨gap ++ 0x5D :: behind, here⟩).1 = .ok ⟨behind, there⟩ := by
  have bracket : Cursor.isSpace 0x5D = false := rfl
  obtain ⟨there, skipped⟩ := skipSpace_of_isGap isGap bracket behind here
  refine ⟨there.after 0x5D, ?_⟩
  simp only [closeArray, skipped, Cursor.peek?_mk_cons, if_true, Cursor.advance_mk_cons]

/-- An array is not closed by anything but its bracket. -/
theorem closeArray_other {gap : Bytes} (isGap : IsGap gap) {byte : UInt8}
    (part : Cursor.isSpace byte = false) (inside : byte ≠ 0x5D) (rest : Bytes) (here : Position) :
    ∃ fault, (closeArray ⟨gap ++ byte :: rest, here⟩).1 = .error fault := by
  obtain ⟨there, skipped⟩ := skipSpace_of_isGap isGap part rest here
  simp only [closeArray, skipped, Cursor.peek?_mk_cons, if_neg inside]
  repeat' split
  · exact ⟨_, rfl⟩
  · exact ⟨_, rfl⟩
  · exact ⟨_, rfl⟩

/-- What comes of the elements of an array when it is closed and the text ends. -/
def closeList (answer : Except Fault (Except Mismatch Row × Cursor)) : Except Fault Row :=
  (answer >>= fun answer => finish answer.1 (closeArray answer.2)) >>= expectEnd

namespace Schema

variable {schema : Schema}

/-- More elements than fields are not read. -/
theorem closeList_of_error {cursor : Cursor} {fault : Fault}
    (failed : (closeArray cursor).1 = .error fault) (index : Nat) (held row : Row) :
    closeList (schema.readElements [] index held cursor) ≠ .ok row := by
  have answered : closeList (schema.readElements [] index held cursor) =
      (finish (.ok held.reverse) (closeArray cursor) >>= expectEnd) := rfl
  rw [answered, finish, failed]
  intro read
  cases read

/-- An element is read when its field takes it, and then the elements behind it are. -/
theorem closeList_element {field : Field} {fields : List Field} {bytes : Bytes} {tree : Tree}
    {trees : List Tree} (renders : Renders bytes (.value tree)) {rest : Bytes}
    (delimited : Delimited rest) {index : Nat} {cursor : Cursor} {start : Position}
    (comes : nextElement (index == 0) cursor = .ok (true, ⟨bytes ++ rest, start⟩)) {held row : Row}
    (further : ∀ cell there,
      closeList (schema.readElements fields (index + 1) (some cell :: held) ⟨rest, there⟩) =
          .ok row ↔
        ∃ cells, lineUp fields trees = some cells ∧ (some cell :: held).reverse ++ cells = row) :
    closeList (schema.readElements (field :: fields) index held cursor) = .ok row ↔
      ∃ cells, lineUp (field :: fields) (tree :: trees) = some cells ∧
        held.reverse ++ cells = row := by
  simp only [readElements, comes, bind, Except.bind, if_true]
  cases takes : field.shape.take tree with
  | some datum =>
      obtain ⟨there, read⟩ := Shape.reads_of_take takes renders isGap_nil rest start delimited
      rw [List.nil_append] at read
      simp only [read, further, lineUp, takes, Option.bind_some, Option.map_eq_some_iff]
      simp
  | none =>
      obtain ⟨fault, failed⟩ := Shape.read_of_take_eq_none takes renders isGap_nil delimited start
      rw [List.nil_append] at failed
      simp only [failed, lineUp, takes, Option.bind_none, reduceCtorEq, false_and, exists_false,
        iff_false]
      intro read
      cases read

section List

variable {behind : Bytes} (isGap : IsGap behind)

include isGap

/-- At the end of an array all fields that are left must be ones that it may leave out. -/
theorem closeList_end (fields : List Field) {gap : Bytes} (isGapInside : IsGap gap) (index : Nat)
    (held : Row) (here : Position) {row : Row} :
    closeList (schema.readElements fields index held ⟨gap ++ 0x5D :: behind, here⟩) = .ok row ↔
      ∃ cells, lineUp fields [] = some cells ∧ held.reverse ++ cells = row := by
  induction fields generalizing index held gap here with
  | nil =>
      obtain ⟨there, closed⟩ := closeArray_bracket isGapInside behind here
      have ended := @finish_eq_ok_iff (.ok held.reverse) _ _ _ closed isGap row
      simp only [lineUp, Option.some.injEq, exists_eq_left', List.append_nil]
      exact ended.trans (iff_of_eq (Except.ok.injEq _ _))
  | cons field fields ih =>
      obtain ⟨there, ends⟩ := nextElement_end isGapInside (index == 0) behind here
      simp only [readElements, ends, bind, Except.bind, Bool.false_eq_true, if_false]
      by_cases required : field.inArray = true
      · simp only [lineUp, if_pos required, reduceCtorEq, false_and, exists_false, iff_false]
        intro read
        cases read
      · have rest := ih isGap_nil (index + 1) (none :: held) there
        simp only [List.nil_append] at rest
        simp only [lineUp, if_neg required, rest, Option.map_eq_some_iff]
        simp

/-- The elements behind the first one are lined up with the fields that are left. -/
theorem closeList_items {fields : List Field} {trees : List Tree} {bytes : Bytes}
    (renders : Renders bytes (.items trees)) (index : Nat) (held : Row) (here : Position)
    {row : Row} :
    closeList (schema.readElements fields (index + 1) held ⟨bytes ++ 0x5D :: behind, here⟩) =
        .ok row ↔
      ∃ cells, lineUp fields trees = some cells ∧ held.reverse ++ cells = row := by
  induction trees generalizing fields bytes index held here with
  | nil =>
      cases renders with
      | lastItem isGapInside => exact closeList_end isGap fields isGapInside (index + 1) held here
  | cons tree trees ih =>
      cases renders with
      | @nextItem before gap next more _ _ isGapBefore isGapBehind item others =>
          have closes : Closes .list more := others.walked
          simp only [List.append_assoc, List.cons_append]
          cases fields with
          | nil =>
              have comma : Cursor.isSpace 0x2C = false := rfl
              have open' : (0x2C : UInt8) ≠ 0x5D := by decide
              obtain ⟨fault, failed⟩ := closeArray_other isGapBefore comma open'
                (gap ++ (next ++ (more ++ 0x5D :: behind))) here
              simp only [lineUp, reduceCtorEq, false_and, exists_false, iff_false]
              exact closeList_of_error failed (index + 1) held row
          | cons field fields =>
              obtain ⟨byte, inside, rfl, begins⟩ := item.begins
              obtain ⟨start, comes⟩ := nextElement_more isGapBefore isGapBehind begins.part.1
                begins.part.2.1 (inside ++ (more ++ 0x5D :: behind)) here
              have further : nextElement (index + 1 == 0) _ = _ := comes
              exact closeList_element item (closes.delimited behind) further
                fun cell there => ih others (index + 1) _ there

/-- An array is read when its elements line up with the fields. -/
theorem read_list_iff {trees : List Tree} {bytes front : Bytes}
    (renders : Renders bytes (.value (.list trees))) (isGapFront : IsGap front) {row : Row} :
    schema.read (front ++ bytes ++ behind) = .ok row ↔
      lineUp schema.fields trees = some row := by
  have opening : Cursor.isSpace 0x5B = false := rfl
  have begun (inside : Bytes) : ∃ start, schema.read (front ++ 0x5B :: (inside ++ behind)) =
      closeList (schema.readElements schema.fields 0 [] ⟨inside ++ behind, start⟩) := by
    obtain ⟨start, skipped⟩ := skipSpace_of_isGap isGapFront opening (inside ++ behind) ⟨1, 0⟩
    refine ⟨start.after 0x5B, ?_⟩
    rw [Schema.read, Cursor.start, readFrom]
    simp only [skipped, Cursor.peek?_mk_cons, Cursor.advance_mk_cons, if_true]
    rfl
  cases renders with
  | @emptyList gap isGapInside =>
      obtain ⟨start, same⟩ := begun (gap ++ [0x5D])
      simp only [List.append_assoc, List.cons_append, List.nil_append] at same ⊢
      rw [same, closeList_end isGap schema.fields isGapInside 0 [] start]
      simp
  | @list gap first more tree trees isGapInside item others =>
      obtain ⟨start, same⟩ := begun (gap ++ (first ++ (more ++ [0x5D])))
      have closes : Closes .list more := others.walked
      obtain ⟨byte, inside, rfl, begins⟩ := item.begins
      simp only [List.append_assoc, List.cons_append, List.nil_append] at same ⊢
      rw [same]
      cases fields : schema.fields with
      | nil =>
          obtain ⟨fault, failed⟩ := closeArray_other isGapInside begins.part.1 begins.part.2.1
            (inside ++ (more ++ 0x5D :: behind)) start
          simp only [lineUp, reduceCtorEq, iff_false]
          exact closeList_of_error failed 0 [] row
      | cons field others' =>
          obtain ⟨middle, comes⟩ := nextElement_first isGapInside begins.part.1 begins.part.2.1
            (inside ++ (more ++ 0x5D :: behind)) start
          have comesFirst : nextElement ((0 : Nat) == 0) _ = _ := comes
          refine (closeList_element item (closes.delimited behind) comesFirst
            fun cell there => closeList_items isGap others 0 _ there).trans ?_
          simp

end List

/-- Nothing but an object or an array is read. -/
theorem read_other {tree : Tree} {bytes front behind : Bytes}
    (renders : Renders bytes (.value tree)) (noList : ∀ items, tree ≠ .list items)
    (noObject : ∀ members, tree ≠ .object members) (isGapFront : IsGap front) (row : Row) :
    schema.read (front ++ bytes ++ behind) ≠ .ok row := by
  obtain ⟨byte, more, rfl, begins⟩ := renders.begins
  have noBracket : byte ≠ 0x5B := by
    rintro rfl
    obtain ⟨items, same⟩ := begins.bracket
    exact noList items same
  have noBrace : byte ≠ 0x7B := by
    rintro rfl
    obtain ⟨members, same⟩ := begins.brace
    exact noObject members same
  obtain ⟨start, skipped⟩ := skipSpace_of_isGap isGapFront begins.part.1 (more ++ behind) ⟨1, 0⟩
  obtain ⟨fault, failed⟩ := wrongKind_eq_error (α := Row × Cursor) schema.label
    ⟨byte :: (more ++ behind), start⟩
  rw [List.append_assoc, List.cons_append, Schema.read, Cursor.start, readFrom]
  simp only [skipped, Cursor.peek?_mk_cons, if_neg noBracket, if_neg noBrace, failed]
  intro read
  cases read

end Schema

end Polyglot.Json
