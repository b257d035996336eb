import Mathlib.Data.List.Forall2
import Polyglot.Json.Record
import Polyglot.Proofs.Numbers

/-!
# Records that are written as objects

An object that holds members of a record under their names, with any gaps between its parts
and in any order, is read as the row with these fields filled (`Schema.read_of_spells`),
when no member comes twice and none that must be there is missing. What is written here is
such an object, without gaps (`spellsObject_object`), so a row that is written in the order of
its fields is read back (`Schema.read_object`).
-/

set_option autoImplicit false

namespace Polyglot.Json

open Polyglot.Text (Bytes)

/-! ## Gaps -/

/-- Bytes that may stand between the parts of an object. -/
def IsGap (bytes : Bytes) : Prop :=
  ∀ byte ∈ bytes, Cursor.isSpace byte = true

theorem isGap_nil : IsGap [] := nofun

/-- A gap is passed over, whatever comes behind it. -/
theorem skipSpace_append {gap : Bytes} (isGap : IsGap gap) (rest : Bytes) (here : Position) :
    ∃ there, Cursor.skipSpace ⟨gap ++ rest, here⟩ = Cursor.skipSpace ⟨rest, there⟩ := by
  unfold Cursor.skipSpace
  induction gap generalizing here with
  | nil => exact ⟨here, rfl⟩
  | cons first gap ih =>
      obtain ⟨blank, others⟩ := List.forall_mem_cons.mp isGap
      obtain ⟨there, skipped⟩ := ih others (here.after first)
      refine ⟨there, ?_⟩
      simpa [Cursor.skipSpace.go, blank] using skipped

/-- A gap is passed over up to a part of the object. -/
theorem skipSpace_of_isGap {gap : Bytes} (isGap : IsGap gap) {byte : UInt8}
    (part : Cursor.isSpace byte = false) (rest : Bytes) (here : Position) : ∃ there,
    Cursor.skipSpace ⟨gap ++ byte :: rest, here⟩ = ⟨byte :: rest, there⟩ := by
  obtain ⟨there, skipped⟩ := skipSpace_append isGap (byte :: rest) here
  refine ⟨there, skipped.trans ?_⟩
  simp [Cursor.skipSpace, Cursor.skipSpace.go, part]

/-- A gap at the end of a text is passed over. -/
theorem skipSpace_of_isGap_end {gap : Bytes} (isGap : IsGap gap) (here : Position) : ∃ there,
    Cursor.skipSpace ⟨gap, here⟩ = ⟨[], there⟩ := by
  obtain ⟨there, skipped⟩ := skipSpace_append isGap [] here
  rw [List.append_nil] at skipped
  exact ⟨there, skipped⟩

/-! ## Values -/

/-- A number that is a natural is read as the natural, wherever it stands behind a gap. -/
theorem reads_readNaturalValue {numeral : Numeral} {n : Nat} (natural : numeral.natural? = some n)
    {gap : Bytes} (isGap : IsGap gap) :
    Reads Delimited readNaturalValue (gap ++ numeral.spelling) (.natural n) := by
  intro rest here delimited
  obtain ⟨byte, more, shape, begins⟩ := numeral.spelling_eq_cons
  have part : Cursor.isSpace byte = false := by
    rcases begins with rfl | digit
    · rfl
    · exact (digit?_eq_some (Option.eq_some_of_isSome digit)).1
  obtain ⟨start, skipped⟩ := skipSpace_of_isGap isGap part (more ++ rest) here
  obtain ⟨there, read⟩ := Numeral.reads_of_natural? natural rest start delimited
  refine ⟨there, ?_⟩
  rw [shape, List.cons_append] at read
  rw [shape, List.append_assoc, List.cons_append, readNaturalValue]
  simp only [skipped, Cursor.peek?_mk_cons, Bool.or_eq_true, decide_eq_true_eq, begins, if_true,
    read, bind, Except.bind]
  rfl

/-- Bytes and the value that they spell. -/
inductive SpellsValue : Bytes → Datum → Prop where
  | text {inside : Bytes} {chars : List Char} (spelt : Spells inside chars) :
      SpellsValue (0x22 :: (inside ++ [0x22])) (.text (String.ofList chars))
  | null : SpellsValue (0x6E :: nullRest) .absent
  | natural {n : Nat} (fits : n ≤ significandLimit) :
      SpellsValue (Text.utf8 (toString n)) (.natural n)

/-- Whether a field of a shape may hold a value. -/
def Shape.admits : Shape → Datum → Bool
  | .text, .text _ => true
  | .optionalText, .absent => true
  | .optionalText, .text _ => true
  | .optionalNatural, .absent => true
  | .optionalNatural, .natural _ => true
  | _, _ => false

theorem reads_readTextValue {inside : Bytes} {chars : List Char} (spelt : Spells inside chars)
    {gap : Bytes} (isGap : IsGap gap) :
    Reads Delimited readTextValue (gap ++ 0x22 :: (inside ++ [0x22]))
      (.text (String.ofList chars)) := by
  intro rest here _
  have part : Cursor.isSpace 0x22 = false := rfl
  obtain ⟨start, skipped⟩ := skipSpace_of_isGap isGap part (inside ++ [0x22] ++ rest) here
  obtain ⟨there, read⟩ := reads_readText spelt rest (start.after 0x22) trivial
  refine ⟨there, ?_⟩
  rw [List.append_assoc, List.cons_append, readTextValue]
  simp only [skipped, Cursor.peek?_mk_cons, Cursor.advance_mk_cons, if_true, read, bind, Except.bind]

/-- A null is read whatever else may stand in its place. -/
theorem reads_null (reader : Cursor → Except Fault (Datum × Cursor)) {gap : Bytes}
    (isGap : IsGap gap) :
    Reads Delimited (readOptional reader) (gap ++ 0x6E :: nullRest) .absent := by
  intro rest here _
  have part : Cursor.isSpace 0x6E = false := rfl
  obtain ⟨start, skipped⟩ := skipSpace_of_isGap isGap part (nullRest ++ rest) here
  refine ⟨(((start.after 0x6E).after 0x75).after 0x6C).after 0x6C, ?_⟩
  rw [List.append_assoc, List.cons_append, readOptional]
  simp only [skipped, Cursor.peek?_mk_cons, Cursor.advance_mk_cons]
  rfl

/-- What does not begin like a null is left to the other reader. -/
theorem readOptional_of_ne (reader : Cursor → Except Fault (Datum × Cursor)) {gap : Bytes}
    (isGap : IsGap gap) {byte : UInt8} (part : Cursor.isSpace byte = false) (other : byte ≠ 0x6E)
    (more : Bytes) (here : Position) : ∃ there,
    readOptional reader ⟨gap ++ byte :: more, here⟩ = reader ⟨byte :: more, there⟩ := by
  obtain ⟨there, skipped⟩ := skipSpace_of_isGap isGap part more here
  refine ⟨there, ?_⟩
  simp only [readOptional, skipped, Cursor.peek?_mk_cons, beq_iff_eq, Option.some.injEq, other,
    if_false]

/-- What may also be a null is read when it does not begin like one. -/
theorem Reads.optional {reader : Cursor → Except Fault (Datum × Cursor)} {gap more : Bytes}
    {byte : UInt8} {datum : Datum} (read : Reads Delimited reader (byte :: more) datum)
    (isGap : IsGap gap) (part : Cursor.isSpace byte = false) (other : byte ≠ 0x6E) :
    Reads Delimited (readOptional reader) (gap ++ byte :: more) datum := by
  intro rest here delimited
  obtain ⟨start, left⟩ := readOptional_of_ne reader isGap part other (more ++ rest) here
  obtain ⟨there, done⟩ := read rest start delimited
  refine ⟨there, ?_⟩
  rw [List.append_assoc, List.cons_append, left]
  exact done

/-- A number that is a natural is read as the natural where a null may stand as well. -/
theorem reads_optionalNatural {numeral : Numeral} {n : Nat} (natural : numeral.natural? = some n)
    {gap : Bytes} (isGap : IsGap gap) :
    Reads Delimited (readOptional readNaturalValue) (gap ++ numeral.spelling) (.natural n) := by
  obtain ⟨byte, more, shape, begins⟩ := numeral.spelling_eq_cons
  have first : Cursor.isSpace byte = false ∧ byte ≠ 0x6E := by
    rcases begins with rfl | digit
    · decide
    · obtain ⟨part, _, other⟩ := digit?_eq_some (Option.eq_some_of_isSome digit)
      exact ⟨part, other⟩
  have read := reads_readNaturalValue natural isGap_nil
  rw [List.nil_append, shape] at read
  rw [shape]
  exact read.optional isGap first.1 first.2

/-- A value that a field may hold is read, wherever it stands behind a gap. -/
theorem SpellsValue.reads {bytes : Bytes} {datum : Datum} (spelt : SpellsValue bytes datum)
    {shape : Shape} (admits : shape.admits datum = true) {gap : Bytes} (isGap : IsGap gap) :
    Reads Delimited shape.read (gap ++ bytes) datum := by
  cases spelt with
  | text spelt =>
      cases shape with
      | text => exact reads_readTextValue spelt isGap
      | optionalText =>
          exact (reads_readTextValue spelt isGap_nil).optional isGap rfl (by decide)
      | optionalNatural => cases admits
  | null =>
      cases shape with
      | text => cases admits
      | optionalText => exact reads_null _ isGap
      | optionalNatural => exact reads_null _ isGap
  | @natural n fits =>
      cases shape with
      | text => cases admits
      | optionalText => cases admits
      | optionalNatural =>
          rw [← Numeral.spelling_ofNat]
          exact reads_optionalNatural (Numeral.natural?_ofNat fits) isGap

/-! ## Members -/

/-- A member of an object, which has a gap on both sides of its colon. -/
inductive SpellsMember : Bytes → String × Datum → Prop where
  | member {key before after value : Bytes} {chars : List Char} {datum : Datum}
      (named : Spells key chars) (isGapBefore : IsGap before) (isGapAfter : IsGap after)
      (spelt : SpellsValue value datum) :
      SpellsMember (0x22 :: (key ++ 0x22 :: (before ++ 0x3A :: (after ++ value))))
        (String.ofList chars, datum)

/-- The members behind the first one, each behind a comma, and the gap behind the last one. -/
inductive SpellsMore : Bytes → List (String × Datum) → Prop where
  | done {gap : Bytes} (isGap : IsGap gap) : SpellsMore gap []
  | next {before after member more : Bytes} {entry : String × Datum}
      {entries : List (String × Datum)} (isGapBefore : IsGap before) (isGapAfter : IsGap after)
      (spelt : SpellsMember member entry) (others : SpellsMore more entries) :
      SpellsMore (before ++ 0x2C :: (after ++ (member ++ more))) (entry :: entries)

/-- An object and its members in their order. -/
inductive SpellsObject : Bytes → List (String × Datum) → Prop where
  | empty {gap : Bytes} (isGap : IsGap gap) : SpellsObject (0x7B :: (gap ++ [0x7D])) []
  | filled {gap member more : Bytes} {entry : String × Datum} {entries : List (String × Datum)}
      (isGap : IsGap gap) (spelt : SpellsMember member entry) (others : SpellsMore more entries) :
      SpellsObject (0x7B :: (gap ++ (member ++ (more ++ [0x7D])))) (entry :: entries)

/-- Members fill the fields of a row, each of them once. -/
inductive Fills (fields : List Field) : Row → List (String × Datum) → Row → Prop where
  | done (row : Row) : Fills fields row [] row
  | field {row after : Row} {name : String} {datum : Datum} {entries : List (String × Datum)}
      {field : Field} (found : (fields.find? fun field => field.name == name) = some field)
      (admits : field.shape.admits datum = true) (free : filled name fields row = false)
      (more : Fills fields (fill name datum fields row) entries after) :
      Fills fields row ((name, datum) :: entries) after

theorem SpellsMember.quoted {bytes : Bytes} {entry : String × Datum}
    (spelt : SpellsMember bytes entry) : ∃ inside, bytes = 0x22 :: inside := by
  cases spelt with
  | member named isGapBefore isGapAfter spelt => exact ⟨_, rfl⟩

theorem IsGap.delimited {gap : Bytes} (isGap : IsGap gap) {rest : Bytes}
    (delimited : Delimited rest) : Delimited (gap ++ rest) := by
  cases gap with
  | nil => exact delimited
  | cons byte gap => exact .space (isGap byte List.mem_cons_self) _

/-- What comes behind a member delimits its value. -/
theorem SpellsMore.delimited {bytes : Bytes} {entries : List (String × Datum)}
    (spelt : SpellsMore bytes entries) (rest : Bytes) : Delimited (bytes ++ 0x7D :: rest) := by
  cases spelt with
  | done isGap => exact isGap.delimited (.close rest)
  | next isGap _ _ _ =>
      rw [List.append_assoc]
      exact isGap.delimited (.comma _)

theorem SpellsMore.length_le {bytes : Bytes} {entries : List (String × Datum)}
    (spelt : SpellsMore bytes entries) : entries.length ≤ bytes.length := by
  induction spelt with
  | done isGap => exact Nat.zero_le _
  | next _ _ _ _ ih =>
      simp only [List.length_append, List.length_cons] at ih ⊢
      omega

/-! ## Objects -/

/-- The name of a member is read with the colon behind it. -/
theorem reads_readName {key gap : Bytes} {chars : List Char} (named : Spells key chars)
    (isGap : IsGap gap) (rest : Bytes) (here : Position) : ∃ there behind,
    readText ⟨key ++ 0x22 :: (gap ++ 0x3A :: rest), here⟩ =
      .ok (String.ofList chars, ⟨gap ++ 0x3A :: rest, behind⟩) ∧
    readColon ⟨gap ++ 0x3A :: rest, behind⟩ = .ok ⟨rest, there⟩ := by
  have colon : Cursor.isSpace 0x3A = false := rfl
  obtain ⟨behind, read⟩ := reads_readText named (gap ++ 0x3A :: rest) here trivial
  obtain ⟨atColon, skipped⟩ := skipSpace_of_isGap isGap colon rest behind
  rw [List.append_assoc, List.singleton_append] at read
  refine ⟨atColon.after 0x3A, behind, read, ?_⟩
  simp only [readColon, skipped, Cursor.peek?_mk_cons, if_true, Cursor.advance_mk_cons]

namespace Schema

variable {schema : Schema} {row after : Row} {entries : List (String × Datum)}

/-- The next member fills its field. -/
theorem readMembers_of_member {member : Bytes} {name : String} {datum : Datum} {field : Field}
    (spelt : SpellsMember member (name, datum))
    (found : (schema.fields.find? fun field => field.name == name) = some field)
    (admits : field.shape.admits datum = true) (free : filled name schema.fields row = false)
    {rest : Bytes} (delimited : Delimited rest) {first : Bool} {cursor : Cursor} {start : Position}
    (comes : nextMember first cursor = .ok (true, ⟨member ++ rest, start⟩)) (fuel : Nat) :
    ∃ there, schema.readMembers (fuel + 1) first row cursor =
      schema.readMembers fuel false (fill name datum schema.fields row) ⟨rest, there⟩ := by
  cases spelt with
  | @member key before after value chars datum named isGapBefore isGapAfter spelt =>
      simp only [List.cons_append, List.append_assoc] at comes
      obtain ⟨atValue, behind, readName, colon⟩ :=
        reads_readName named isGapBefore (after ++ (value ++ rest)) (start.after 0x22)
      obtain ⟨there, readValue⟩ := spelt.reads admits isGapAfter rest atValue delimited
      rw [List.append_assoc] at readValue
      refine ⟨there, ?_⟩
      rw [readMembers, comes]
      simp only [bind, Except.bind, if_true, Cursor.advance_mk_cons, readName, found, free,
        Bool.false_eq_true, if_false, colon, readValue]

/-- The first member comes behind a gap. -/
theorem nextMember_first {gap member : Bytes} (isGap : IsGap gap)
    (quoted : ∃ inside, member = 0x22 :: inside) (rest : Bytes) (here : Position) : ∃ there,
    nextMember true ⟨gap ++ (member ++ rest), here⟩ = .ok (true, ⟨member ++ rest, there⟩) := by
  obtain ⟨inside, rfl⟩ := quoted
  have quote : Cursor.isSpace 0x22 = false := rfl
  obtain ⟨there, skipped⟩ := skipSpace_of_isGap isGap quote (inside ++ rest) here
  refine ⟨there, ?_⟩
  rw [← List.cons_append] at skipped
  simp only [nextMember, skipped]
  rfl

/-- Every other member comes behind a comma with a gap on both sides. -/
theorem nextMember_more {before behind member : Bytes} (isGapBefore : IsGap before)
    (isGapBehind : IsGap behind) (quoted : ∃ inside, member = 0x22 :: inside)
    (rest : Bytes) (here : Position) : ∃ there,
    nextMember false ⟨before ++ 0x2C :: (behind ++ (member ++ rest)), here⟩ =
      .ok (true, ⟨member ++ rest, there⟩) := by
  obtain ⟨inside, rfl⟩ := quoted
  have comma : Cursor.isSpace 0x2C = false := rfl
  have quote : Cursor.isSpace 0x22 = false := rfl
  obtain ⟨atComma, skipped⟩ := skipSpace_of_isGap isGapBefore comma
    (behind ++ (0x22 :: inside ++ rest)) here
  obtain ⟨there, skippedToo⟩ := skipSpace_of_isGap isGapBehind quote (inside ++ rest)
    (atComma.after 0x2C)
  refine ⟨there, ?_⟩
  rw [← List.cons_append] at skippedToo
  simp only [nextMember, skipped, Cursor.peek?_mk_cons, Cursor.advance_mk_cons, skippedToo]
  rfl

/-- The end of an object comes behind a gap. -/
theorem nextMember_end {gap : Bytes} (isGap : IsGap gap) (first : Bool) (rest : Bytes)
    (here : Position) : ∃ there,
    nextMember first ⟨gap ++ 0x7D :: rest, here⟩ = .ok (false, ⟨0x7D :: rest, there⟩) := by
  have close : Cursor.isSpace 0x7D = false := rfl
  obtain ⟨there, skipped⟩ := skipSpace_of_isGap isGap close rest here
  refine ⟨there, ?_⟩
  simp only [nextMember, skipped, Cursor.peek?_mk_cons, if_true]

/-- At the end of an object the row is as its members left it. -/
theorem readMembers_end {gap : Bytes} (isGap : IsGap gap) (first : Bool) (row : Row) (rest : Bytes)
    (here : Position) {fuel : Nat} (enough : 0 < fuel) : ∃ there,
    schema.readMembers fuel first row ⟨gap ++ 0x7D :: rest, here⟩ =
      .ok (.ok row, ⟨0x7D :: rest, there⟩) := by
  obtain ⟨fuel, rfl⟩ := Nat.exists_eq_add_one_of_ne_zero (Nat.ne_of_gt enough)
  obtain ⟨there, ends⟩ := nextMember_end isGap first rest here
  refine ⟨there, ?_⟩
  rw [readMembers, ends]
  rfl

/-- The members behind the first one fill their fields. -/
theorem readMembers_of_more {bytes : Bytes} (spelt : SpellsMore bytes entries)
    (fills : Fills schema.fields row entries after) (rest : Bytes) (here : Position) (fuel : Nat)
    (enough : entries.length < fuel) : ∃ there,
    schema.readMembers fuel false row ⟨bytes ++ 0x7D :: rest, here⟩ =
      .ok (.ok after, ⟨0x7D :: rest, there⟩) := by
  induction spelt generalizing row here fuel with
  | done isGap =>
      cases fills
      exact readMembers_end isGap false _ rest here enough
  | @next before behind member more entry entries isGapBefore isGapBehind spelt others ih =>
      obtain ⟨fuel, rfl⟩ := Nat.exists_eq_add_one_of_ne_zero (Nat.ne_zero_of_lt enough)
      cases fills with
      | field found admits free fills =>
          obtain ⟨start, comes⟩ := nextMember_more isGapBefore isGapBehind spelt.quoted
            (more ++ 0x7D :: rest) here
          obtain ⟨middle, step⟩ := readMembers_of_member spelt found admits free
            (others.delimited rest) comes fuel
          obtain ⟨there, read⟩ := ih fills middle fuel (Nat.lt_of_succ_lt_succ enough)
          refine ⟨there, ?_⟩
          simp only [List.append_assoc, List.cons_append]
          rw [step, read]

/-- The members of an object fill their fields. -/
theorem readMembers_of_object {bytes : Bytes} (spelt : SpellsObject bytes entries)
    (fills : Fills schema.fields row entries after) : ∃ inside,
    bytes = 0x7B :: inside ∧ entries.length ≤ inside.length ∧
    ∀ rest here fuel, entries.length < fuel → ∃ there,
      schema.readMembers fuel true row ⟨inside ++ rest, here⟩ =
        .ok (.ok after, ⟨0x7D :: rest, there⟩) := by
  cases spelt with
  | @empty gap isGap =>
      cases fills
      refine ⟨gap ++ [0x7D], rfl, Nat.zero_le _, fun rest here fuel enough => ?_⟩
      rw [List.append_assoc, List.singleton_append]
      exact readMembers_end isGap true _ rest here enough
  | @filled gap member more entry entries isGap spelt others =>
      refine ⟨gap ++ (member ++ (more ++ [0x7D])), rfl, ?_, fun rest here fuel enough => ?_⟩
      · have least := others.length_le
        simp only [List.length_append, List.length_cons, List.length_nil]
        omega
      · obtain ⟨fuel, rfl⟩ := Nat.exists_eq_add_one_of_ne_zero (Nat.ne_zero_of_lt enough)
        simp only [List.append_assoc, List.singleton_append]
        cases fills with
        | field found admits free fills =>
            obtain ⟨start, comes⟩ := nextMember_first isGap spelt.quoted (more ++ 0x7D :: rest) here
            obtain ⟨middle, step⟩ := readMembers_of_member spelt found admits free
              (others.delimited rest) comes fuel
            obtain ⟨there, read⟩ := readMembers_of_more others fills rest middle fuel
              (Nat.lt_of_succ_lt_succ enough)
            exact ⟨there, step.trans read⟩

/-- **A text that holds an object with the right members is read.** -/
theorem read_of_spells {bytes front behind : Bytes} (spelt : SpellsObject bytes entries)
    (fills : Fills schema.fields (schema.fields.map fun _ => none) entries after)
    (whole : firstMissing? schema.fields after = none) (isGapFront : IsGap front)
    (isGapBehind : IsGap behind) : schema.read (front ++ bytes ++ behind) = .ok after := by
  obtain ⟨inside, rfl, least, members⟩ := readMembers_of_object spelt fills
  have opening : Cursor.isSpace 0x7B = false := rfl
  have closing : Cursor.isSpace 0x7D = false := rfl
  obtain ⟨start, skipped⟩ := skipSpace_of_isGap isGapFront opening (inside ++ behind) ⟨1, 0⟩
  obtain ⟨last, read⟩ := members behind (start.after 0x7B) ((0x7B :: (inside ++ behind)).length + 1)
    (by simp only [List.length_cons, List.length_append]; omega)
  obtain ⟨atClose, closed⟩ := skipSpace_of_isGap isGap_nil closing behind last
  obtain ⟨finish, ended⟩ := skipSpace_of_isGap_end isGapBehind (atClose.after 0x7D)
  rw [List.append_assoc, List.cons_append, Schema.read, Cursor.start, readFrom]
  rw [List.nil_append] at closed
  simp only [skipped, Cursor.peek?_mk_cons, Cursor.advance_mk_cons, read, bind, Except.bind, whole,
    closeObject, closed]
  rw [if_neg (by decide)]
  simp only [if_true, Json.finish, Except.map, expectEnd, ended]
  rfl

end Schema

/-! ## The object that is written -/

theorem utf8_intercalate (first : String) (others : List String) :
    Text.utf8 (",".intercalate (first :: others)) =
      Text.utf8 first ++ others.flatMap fun text => 0x2C :: Text.utf8 text := by
  induction others generalizing first with
  | nil => simp
  | cons second others ih =>
      rw [String.intercalate_cons_cons, Text.utf8_append, Text.utf8_append, ih, List.append_assoc]
      rfl

/-- A written member with its value. -/
structure Written (member : String × String) (entry : String × Datum) : Prop where
  name : entry.1 = member.1
  value : SpellsValue (Text.utf8 member.2) entry.2

theorem Written.text (name value : String) : Written (name, string value) (name, .text value) := by
  obtain ⟨inside, shape, spelt⟩ := utf8_string value
  refine ⟨rfl, ?_⟩
  dsimp only
  rw [shape]
  exact String.ofList_toList (s := value) ▸ .text spelt

theorem Written.natural (name : String) {value : Nat} (fits : value ≤ significandLimit) :
    Written (name, toString value) (name, .natural value) :=
  ⟨rfl, .natural fits⟩

theorem Written.spells {member : String × String} {entry : String × Datum}
    (written : Written member entry) :
    SpellsMember (Text.utf8 (string member.1 ++ ":" ++ member.2)) entry := by
  obtain ⟨inside, shape, spelt⟩ := utf8_string member.1
  obtain ⟨name, datum⟩ := entry
  obtain ⟨rfl, value⟩ := written
  have member := SpellsMember.member spelt isGap_nil isGap_nil value
  rw [String.ofList_toList] at member
  have colon : Text.utf8 ":" = [0x3A] := by decide
  rw [Text.utf8_append, Text.utf8_append, shape, colon]
  simpa using member

theorem spellsMore_of_written {members : List (String × String)}
    {entries : List (String × Datum)} (written : List.Forall₂ Written members entries) :
    SpellsMore ((members.map fun entry => string entry.1 ++ ":" ++ entry.2).flatMap
      fun text => 0x2C :: Text.utf8 text) entries := by
  induction written with
  | nil => exact .done isGap_nil
  | cons first _ ih =>
      have more := SpellsMore.next isGap_nil isGap_nil first.spells ih
      rwa [List.nil_append, List.nil_append] at more

/-- An object is written with its members in their order. -/
theorem spellsObject_object {members : List (String × String)}
    {entries : List (String × Datum)} (written : List.Forall₂ Written members entries) :
    SpellsObject (Text.utf8 (object members)) entries := by
  have opening : Text.utf8 "\x7b" = [0x7B] := by decide
  have closing : Text.utf8 "\x7d" = [0x7D] := by decide
  rw [object, Text.utf8_append, Text.utf8_append, opening, closing]
  cases written with
  | nil =>
      have none := SpellsObject.empty isGap_nil
      rwa [List.nil_append] at none
  | cons first others =>
      have whole := SpellsObject.filled isGap_nil first.spells (spellsMore_of_written others)
      rw [List.nil_append, ← List.append_assoc] at whole
      rw [List.map_cons, utf8_intercalate, List.singleton_append, List.cons_append]
      exact whole

/-! ## Rows -/

/-- The members of a row, in the order of its fields. -/
def entriesOf : List Field → Row → List (String × Datum)
  | field :: fields, cell :: row =>
    (cell.toList.map fun datum => (field.name, datum)) ++ entriesOf fields row
  | _, _ => []

/-- A field that comes behind others is filled behind what they hold. -/
theorem fill_append {before : List Field} {held : Row} (same : before.length = held.length)
    {field : Field} (new : field.name ∉ before.map (·.name)) (fields : List Field)
    (datum : Datum) (row : Row) :
    fill field.name datum (before ++ field :: fields) (held ++ none :: row) =
      held ++ some datum :: row := by
  induction before generalizing held with
  | nil =>
      obtain rfl := List.length_eq_zero_iff.mp same.symm
      simp [fill]
  | cons first before ih =>
      obtain ⟨cell, held, rfl⟩ := List.exists_cons_of_length_eq_add_one same.symm
      simp only [List.map_cons, List.mem_cons, not_or] at new
      simp only [List.cons_append, fill, if_neg (Ne.symm new.1)]
      rw [ih (Nat.succ.inj same) new.2]

theorem filled_append {before : List Field} {held : Row} (same : before.length = held.length)
    {field : Field} (new : field.name ∉ before.map (·.name)) (fields : List Field) (row : Row) :
    filled field.name (before ++ field :: fields) (held ++ none :: row) = false := by
  induction before generalizing held with
  | nil =>
      obtain rfl := List.length_eq_zero_iff.mp same.symm
      simp [filled]
  | cons first before ih =>
      obtain ⟨cell, held, rfl⟩ := List.exists_cons_of_length_eq_add_one same.symm
      simp only [List.map_cons, List.mem_cons, not_or] at new
      simp only [List.cons_append, filled, if_neg (Ne.symm new.1)]
      exact ih (Nat.succ.inj same) new.2

theorem find?_append {before : List Field} {field : Field}
    (new : field.name ∉ before.map (·.name)) (fields : List Field) :
    ((before ++ field :: fields).find? fun other => other.name == field.name) = some field := by
  induction before with
  | nil => simp
  | cons first before ih =>
      simp only [List.map_cons, List.mem_cons, not_or] at new
      rw [List.cons_append, List.find?_cons_of_neg (by simpa using Ne.symm new.1)]
      exact ih new.2

/-- The members of a row fill it, when its fields have different names. -/
theorem fills_entriesOf_append {before fields : List Field} {held row : Row}
    (same : before.length = held.length) (apart : ((before ++ fields).map (·.name)).Nodup)
    (admitted : List.Forall₂ (fun field cell => ∀ datum, cell = some datum →
      field.shape.admits datum = true) fields row) :
    Fills (before ++ fields) (held ++ fields.map fun _ => none) (entriesOf fields row)
      (held ++ row) := by
  induction admitted generalizing before held with
  | nil => exact .done _
  | @cons field cell fields row admits _ ih =>
      have new : field.name ∉ before.map (·.name) := by
        intro member
        rw [List.map_append, List.nodup_append] at apart
        exact apart.2.2 _ member _ List.mem_cons_self rfl
      have next (cell : Option Datum) : Fills (before ++ field :: fields)
          (held ++ cell :: fields.map fun _ => none) (entriesOf fields row)
          (held ++ cell :: row) := by
        have longer : (before ++ [field]).length = (held ++ [cell]).length := by simp [same]
        have rest := ih longer (by simpa using apart)
        simpa only [List.append_assoc, List.singleton_append] using rest
      cases cell with
      | none => exact next none
      | some datum =>
          refine .field (find?_append new fields) (admits datum rfl)
            (filled_append same new fields _) ?_
          rw [List.map_cons, fill_append same new]
          exact next (some datum)

/-- **A row is read back from the object of its members**, with gaps around it. -/
theorem Schema.read_object {schema : Schema} {members : List (String × String)} {row : Row}
    {front behind : Bytes} (apart : (schema.fields.map (·.name)).Nodup)
    (admitted : List.Forall₂ (fun field cell => ∀ datum, cell = some datum →
      field.shape.admits datum = true) schema.fields row)
    (whole : firstMissing? schema.fields row = none)
    (written : List.Forall₂ Written members (entriesOf schema.fields row))
    (isGapFront : IsGap front) (isGapBehind : IsGap behind) :
    schema.read (front ++ Text.utf8 (object members) ++ behind) = .ok row := by
  have begun : ([] : List Field).length = ([] : Row).length := rfl
  have fills := fills_entriesOf_append begun apart admitted
  exact Schema.read_of_spells (spellsObject_object written) fills whole isGapFront isGapBehind

end Polyglot.Json
