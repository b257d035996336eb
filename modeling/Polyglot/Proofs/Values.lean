import Polyglot.Json.Value
import Polyglot.Proofs.Rendering
import Polyglot.Proofs.Forms
import Polyglot.Proofs.Tables

/-!
# Values that are read as structured data

Every text of a value is read as the same data (`Holds.dataOf`): the members of an object are
ordered by their names, and of two members with one name the later one stays (`Tree.toData`). The
value must not be nested too deeply, and its numbers must be finite (`Tree.Modest`).
-/

set_option autoImplicit false

namespace Polyglot.Json

open Polyglot.Text (Bytes)

/-! ## What values are read as -/

/-- A number as data. -/
def Number.toData : Number → Data
  | .integer value => .integer value
  | .float negative magnitude => .float negative magnitude

/-- What a number is read as when nothing stands behind it. -/
def Numeral.number (numeral : Numeral) : Number :=
  match readNumber (Cursor.start numeral.spelling) with
  | .ok (number, _) => number
  | .error _ => .integer 0

/-- A number whose value is finite, so that it is read wherever it stands. -/
def Numeral.IsFinite (numeral : Numeral) : Prop :=
  Reads Delimited readNumber numeral.spelling numeral.number

mutual

/-- The data that a value is. -/
def Tree.toData : Tree → Data
  | .null => .null
  | .boolean value => .boolean value
  | .number numeral => numeral.number.toData
  | .text value => .text value
  | .list items => .list (dataOfItems items)
  | .object members => .table (Table.ofList (dataOfMembers members))

/-- The data that the elements of an array are. -/
def dataOfItems : List Tree → List Data
  | [] => []
  | item :: items => item.toData :: dataOfItems items

/-- The data that the members of an object are, in their order. -/
def dataOfMembers : List (String × Tree) → List (String × Data)
  | [] => []
  | (name, tree) :: members => (name, tree.toData) :: dataOfMembers members

end

/-- A value with finite numbers whose arrays and objects are nested to a depth at most. -/
inductive Tree.Modest : Nat → Tree → Prop where
  | null (depth : Nat) : Modest depth .null
  | boolean (depth : Nat) (value : Bool) : Modest depth (.boolean value)
  | number (depth : Nat) {numeral : Numeral} (isFinite : numeral.IsFinite) :
      Modest depth (.number numeral)
  | text (depth : Nat) (value : String) : Modest depth (.text value)
  | list {depth : Nat} {items : List Tree} (each : ∀ item ∈ items, Modest depth item) :
      Modest (depth + 1) (.list items)
  | object {depth : Nat} {members : List (String × Tree)}
      (each : ∀ member ∈ members, Modest depth member.2) : Modest (depth + 1) (.object members)

theorem dataOfMembers_eq_map (members : List (String × Tree)) :
    dataOfMembers members = members.map fun member => (member.1, member.2.toData) := by
  induction members with
  | nil => rfl
  | cons member members ih => rw [dataOfMembers, ih, List.map_cons]

/-- A natural of 64 bits is finite, and it is read as an integer. -/
theorem Numeral.isFinite_of_natural? {numeral : Numeral} {value : Nat}
    (natural : numeral.natural? = some value) :
    numeral.number = .integer value ∧ numeral.IsFinite := by
  have reads := reads_of_natural? natural
  have number : numeral.number = .integer value := by
    obtain ⟨there, read⟩ := reads [] ⟨1, 0⟩ .done
    rw [List.append_nil] at read
    rw [Numeral.number, Cursor.start, read]
  exact ⟨number, by rwa [IsFinite, number]⟩

/-- An object holds, under each name, what its last member with the name is. -/
theorem find?_dataOfMembers (name : String) (members : List (String × Tree)) :
    Table.find? name (Table.ofList (dataOfMembers members)) =
      (valuesOf name members).getLast?.map Tree.toData := by
  rw [Table.find?_ofList, dataOfMembers_eq_map, List.filter_map, List.map_map, valuesOf,
    ← List.getLast?_map, List.map_map]
  rfl

/-! ## Reading values -/

/-- What the reader makes of a part whose values are nested to a depth at most. -/
def Part.IsRead (depth : Nat) : Part → Bytes → Prop
  | .value tree, bytes => tree.Modest depth → ∀ gap, IsGap gap →
      Reads Delimited (readData (depth + 1)) (gap ++ bytes) tree.toData
  | .member name tree, bytes => tree.Modest depth → ∃ inside, bytes = 0x22 :: inside ∧
      ∀ rest here, Delimited rest → ∃ behind atValue there,
        readText ⟨inside ++ rest, here⟩ = .ok (name, behind) ∧ readColon behind = .ok atValue ∧
        readData (depth + 1) atValue = .ok (tree.toData, ⟨rest, there⟩)
  | .items trees, bytes => (∀ tree ∈ trees, tree.Modest depth) →
      ∀ rest here item held fuel, trees.length < fuel → ∃ there,
        readItems (readData (depth + 1)) fuel (item :: held) ⟨bytes ++ 0x5D :: rest, here⟩ =
          .ok ((item :: held).reverse ++ dataOfItems trees, ⟨0x5D :: rest, there⟩)
  | .members entries, bytes => (∀ entry ∈ entries, entry.2.Modest depth) →
      ∀ rest here table fuel, entries.length < fuel → ∃ there,
        readTable (readData (depth + 1)) fuel false table ⟨bytes ++ 0x7D :: rest, here⟩ =
          .ok ((dataOfMembers entries).foldl (fun table entry =>
            Table.insert entry.1 entry.2 table) table, ⟨0x7D :: rest, there⟩)

theorem Renders.length_le_items {bytes : Bytes} {trees : List Tree}
    (renders : Renders bytes (.items trees)) : trees.length ≤ bytes.length := by
  induction trees generalizing bytes with
  | nil => exact Nat.zero_le _
  | cons tree trees ih =>
      cases renders with
      | nextItem isGapBefore isGapBehind item others =>
          have least := ih others
          simp only [List.length_append, List.length_cons]
          omega

/-- A literal is read to its last letter. -/
theorem readIdent_append (letters rest : Bytes) (here : Position) : ∃ there,
    readIdent letters ⟨letters ++ rest, here⟩ = .ok ⟨rest, there⟩ := by
  induction letters generalizing here with
  | nil => exact ⟨here, rfl⟩
  | cons letter letters ih =>
      obtain ⟨there, read⟩ := ih (here.after letter)
      exact ⟨there, by simpa [readIdent] using read⟩

/-- A gap in front of a value is passed over. -/
theorem readData_append {gap : Bytes} (isGap : IsGap gap) (depth : Nat) (rest : Bytes)
    (here : Position) : ∃ there,
    readData (depth + 1) ⟨gap ++ rest, here⟩ = readData (depth + 1) ⟨rest, there⟩ := by
  obtain ⟨there, skipped⟩ := skipSpace_append isGap rest here
  refine ⟨there, ?_⟩
  rw [readData, readData]
  simp only [skipped]

/-- What is read without a gap in front is read behind a gap. -/
theorem Reads.behind_gap {depth : Nat} {bytes gap : Bytes} {data : Data}
    (reads : Reads Delimited (readData (depth + 1)) bytes data) (isGap : IsGap gap) :
    Reads Delimited (readData (depth + 1)) (gap ++ bytes) data := by
  intro rest here delimited
  obtain ⟨start, same⟩ := readData_append isGap depth (bytes ++ rest) here
  rw [List.append_assoc, same]
  exact reads rest start delimited

/-- A literal is known by its first letter, which tells how its other letters are read. -/
theorem reads_literal {depth : Nat} {letter : UInt8} {letters : Bytes} {data : Data}
    (begins : ∀ more here, readData (depth + 1) ⟨letter :: more, here⟩ =
      (readIdent letters ⟨more, here.after letter⟩).map fun cursor => (data, cursor)) :
    Reads Delimited (readData (depth + 1)) (letter :: letters) data := by
  intro rest here _
  obtain ⟨there, read⟩ := readIdent_append letters rest (here.after letter)
  refine ⟨there, ?_⟩
  rw [List.cons_append, begins, read]
  rfl

theorem reads_null_data (depth : Nat) :
    Reads Delimited (readData (depth + 1)) (0x6E :: nullRest) .null :=
  reads_literal fun _ _ => rfl

theorem reads_true_data (depth : Nat) :
    Reads Delimited (readData (depth + 1)) (0x74 :: trueRest) (.boolean Bool.true) :=
  reads_literal fun _ _ => rfl

theorem reads_false_data (depth : Nat) :
    Reads Delimited (readData (depth + 1)) (0x66 :: falseRest) (.boolean Bool.false) :=
  reads_literal fun _ _ => rfl

/-- A string is read to its quote. -/
theorem reads_text_data {inside : Bytes} {chars : List Char} (spelt : Spells inside chars)
    (depth : Nat) :
    Reads Delimited (readData (depth + 1)) (0x22 :: (inside ++ [0x22]))
      (.text (String.ofList chars)) := by
  intro rest here _
  obtain ⟨there, read⟩ := reads_readText spelt rest (here.after 0x22) trivial
  refine ⟨there, ?_⟩
  change (readText ⟨inside ++ [0x22] ++ rest, here.after 0x22⟩ >>= fun found =>
    .ok (Data.text found.1, found.2)) = _
  rw [read]
  rfl

/-- A number is read by its first byte. -/
theorem reads_number {numeral : Numeral} (isFinite : numeral.IsFinite) (depth : Nat) :
    Reads Delimited (readData (depth + 1)) numeral.spelling numeral.number.toData := by
  intro rest here delimited
  obtain ⟨byte, more, shape, begins⟩ := numeral.spelling_eq_cons
  have first : Cursor.isSpace byte = false ∧ byte ≠ 0x6E ∧ byte ≠ 0x74 ∧ byte ≠ 0x66 := by
    rcases begins with rfl | digit
    · decide
    · obtain ⟨part, _, other⟩ := digit?_eq_some (Option.eq_some_of_isSome digit)
      exact ⟨part, other, ne_of_isSome_digit? digit rfl, ne_of_isSome_digit? digit rfl⟩
  obtain ⟨part, noNull, noTrue, noFalse⟩ := first
  obtain ⟨start, skipped⟩ := skipSpace_of_isGap isGap_nil part (more ++ rest) here
  obtain ⟨there, read⟩ := isFinite rest start delimited
  refine ⟨there, ?_⟩
  rw [List.nil_append] at skipped
  rw [shape, List.cons_append] at read
  rw [shape, List.cons_append, readData]
  simp only [skipped, Cursor.peek?_mk_cons, if_neg noNull, if_neg noTrue, if_neg noFalse,
    Bool.or_eq_true, decide_eq_true_eq, begins, if_true, read, bind, Except.bind]
  cases numeral.number with
  | integer value => rfl
  | float negative magnitude => rfl

/-- The elements of an array are read up to its bracket. -/
theorem reads_list {depth : Nat} {inside : Bytes} {items : List Data}
    (elements : ∀ rest here fuel, inside.length < fuel → ∃ there,
      readItems (readData (depth + 1)) fuel [] ⟨inside ++ 0x5D :: rest, here⟩ =
        .ok (items, ⟨0x5D :: rest, there⟩)) :
    Reads Delimited (readData (depth + 2)) (0x5B :: (inside ++ [0x5D])) (.list items) := by
  intro rest here _
  let fuel := (0x5B :: (inside ++ 0x5D :: rest)).length + 1
  have enough : inside.length < fuel := by
    simp only [fuel, List.length_cons, List.length_append]
    omega
  obtain ⟨middle, read⟩ := elements rest (here.after 0x5B) fuel enough
  obtain ⟨there, closed⟩ := closeArray_bracket isGap_nil rest middle
  refine ⟨there, ?_⟩
  rw [List.cons_append, List.append_assoc, List.singleton_append]
  change (readItems (readData (depth + 1)) fuel [] ⟨inside ++ 0x5D :: rest, here.after 0x5B⟩ >>=
    fun found => finish (.ok (Data.list found.1)) (closeArray found.2)) = _
  rw [read]
  exact congrArg (fun closed => closed.map fun cursor => (Data.list items, cursor)) closed

/-- The members of an object are read up to its brace. -/
theorem reads_table {depth : Nat} {inside : Bytes} {table : List (String × Data)}
    (members : ∀ rest here fuel, inside.length < fuel → ∃ there,
      readTable (readData (depth + 1)) fuel true [] ⟨inside ++ 0x7D :: rest, here⟩ =
        .ok (table, ⟨0x7D :: rest, there⟩)) :
    Reads Delimited (readData (depth + 2)) (0x7B :: (inside ++ [0x7D])) (.table table) := by
  intro rest here _
  let fuel := (0x7B :: (inside ++ 0x7D :: rest)).length + 1
  have enough : inside.length < fuel := by
    simp only [fuel, List.length_cons, List.length_append]
    omega
  obtain ⟨middle, read⟩ := members rest (here.after 0x7B) fuel enough
  obtain ⟨there, closed⟩ := closeObject_brace rest middle
  refine ⟨there, ?_⟩
  rw [List.cons_append, List.append_assoc, List.singleton_append]
  change (readTable (readData (depth + 1)) fuel true [] ⟨inside ++ 0x7D :: rest, here.after 0x7B⟩ >>=
    fun found => finish (.ok (Data.table found.1)) (closeObject found.2)) = _
  rw [read]
  exact congrArg (fun closed => closed.map fun cursor => (Data.table table, cursor)) closed

/-- The reader takes one more element in front of those that it takes anyway. -/
theorem readItems_of_element {depth : Nat} {bytes more rest : Bytes} {tree : Tree}
    (read : Reads Delimited (readData (depth + 1)) bytes tree.toData) (held : List Data)
    {items : List Data} {cursor : Cursor} {start : Position}
    (delimited : Delimited (more ++ 0x5D :: rest))
    (comes : nextElement held.isEmpty cursor = .ok (true, ⟨bytes ++ (more ++ 0x5D :: rest), start⟩))
    {fuel : Nat} (further : ∀ here, ∃ there,
      readItems (readData (depth + 1)) fuel (tree.toData :: held) ⟨more ++ 0x5D :: rest, here⟩ =
        .ok ((tree.toData :: held).reverse ++ items, ⟨0x5D :: rest, there⟩)) : ∃ there,
    readItems (readData (depth + 1)) (fuel + 1) held cursor =
      .ok (held.reverse ++ tree.toData :: items, ⟨0x5D :: rest, there⟩) := by
  obtain ⟨middle, taken⟩ := read _ start delimited
  obtain ⟨there, others⟩ := further middle
  refine ⟨there, ?_⟩
  rw [readItems, comes]
  simp only [bind, Except.bind, if_true, taken, others, List.reverse_cons, List.append_assoc,
    List.singleton_append]

/-- The reader takes one more member in front of those that it takes anyway. -/
theorem readTable_of_member {depth : Nat} {bytes more rest : Bytes} {name : String} {tree : Tree}
    (modest : tree.Modest depth) (read : (Part.member name tree).IsRead depth bytes)
    {table after : List (String × Data)} {first : Bool} {cursor : Cursor} {start : Position}
    (delimited : Delimited (more ++ 0x7D :: rest))
    (comes : nextMember first cursor = .ok (true, ⟨bytes ++ (more ++ 0x7D :: rest), start⟩))
    {fuel : Nat} (further : ∀ here, ∃ there,
      readTable (readData (depth + 1)) fuel false (Table.insert name tree.toData table)
        ⟨more ++ 0x7D :: rest, here⟩ = .ok (after, ⟨0x7D :: rest, there⟩)) : ∃ there,
    readTable (readData (depth + 1)) (fuel + 1) first table cursor =
      .ok (after, ⟨0x7D :: rest, there⟩) := by
  obtain ⟨inside, rfl, parts⟩ := read modest
  obtain ⟨behind, atValue, middle, named, colon, value⟩ := parts _ (start.after 0x22) delimited
  obtain ⟨there, others⟩ := further middle
  refine ⟨there, ?_⟩
  rw [List.cons_append] at comes
  rw [readTable, comes]
  simp only [bind, Except.bind, if_true, Cursor.advance_mk_cons, named, colon, value, others]

section Parts

variable {depth : Nat} {before behind next more : Bytes}

theorem isRead_emptyList {gap : Bytes} (isGapInside : IsGap gap) :
    (Part.value (.list [])).IsRead depth (0x5B :: (gap ++ [0x5D])) := by
  intro modest gap isGap
  cases modest with
  | list _ =>
      refine (reads_list fun rest here fuel enough => ?_).behind_gap isGap
      obtain ⟨fuel, rfl⟩ := Nat.exists_eq_add_one_of_ne_zero (Nat.ne_zero_of_lt enough)
      obtain ⟨there, ends⟩ := nextElement_end isGapInside true rest here
      refine ⟨there, ?_⟩
      rw [readItems, List.isEmpty_nil, ends]
      rfl

theorem isRead_lastItem {gap : Bytes} (isGapInside : IsGap gap) :
    (Part.items []).IsRead depth gap := by
  intro _ rest here item held fuel enough
  obtain ⟨fuel, rfl⟩ := Nat.exists_eq_add_one_of_ne_zero (Nat.ne_zero_of_lt enough)
  obtain ⟨there, ends⟩ := nextElement_end isGapInside false rest here
  refine ⟨there, ?_⟩
  rw [readItems, List.isEmpty_cons, ends]
  simp [dataOfItems, bind, Except.bind]

/-- An array is read when its first element and those behind it are. -/
theorem isRead_list {tree : Tree} {trees : List Tree} (isGapInside : IsGap before)
    (item : Renders next (.value tree)) (others : Renders more (.items trees))
    (isRead : ∀ depth, (Part.value tree).IsRead depth next)
    (areRead : ∀ depth, (Part.items trees).IsRead depth more) :
    (Part.value (.list (tree :: trees))).IsRead depth
      (0x5B :: (before ++ (next ++ (more ++ [0x5D])))) := by
  intro modest gap isGap
  cases modest with
  | @list depth _ each =>
      obtain ⟨this, those⟩ := List.forall_mem_cons.mp each
      have closes : Closes .list more := others.walked
      have few := others.length_le_items
      suffices elements : ∀ rest here fuel, (before ++ (next ++ more)).length < fuel → ∃ there,
          readItems (readData (depth + 1)) fuel []
              ⟨before ++ (next ++ more) ++ 0x5D :: rest, here⟩ =
            .ok (dataOfItems (tree :: trees), ⟨0x5D :: rest, there⟩) by
        have whole := (reads_list elements).behind_gap isGap
        simp only [List.append_assoc] at whole
        exact whole
      intro rest here fuel enough
      obtain ⟨byte, inside, rfl, begins⟩ := item.begins
      simp only [List.length_append, List.length_cons] at enough
      obtain ⟨fuel, rfl⟩ := Nat.exists_eq_add_one_of_ne_zero (Nat.ne_zero_of_lt enough)
      simp only [List.append_assoc, List.cons_append]
      obtain ⟨start, comes⟩ := nextElement_first isGapInside begins.part.1 begins.part.2.1
        (inside ++ (more ++ 0x5D :: rest)) here
      have read := isRead depth this [] isGap_nil
      rw [List.nil_append] at read
      exact readItems_of_element read [] (closes.delimited rest) comes fun here =>
        areRead depth those rest here tree.toData [] fuel (by omega)

/-- Elements behind a comma are read when the first of them and those behind it are. -/
theorem isRead_nextItem {tree : Tree} {trees : List Tree} (isGapBefore : IsGap before)
    (isGapBehind : IsGap behind) (item : Renders next (.value tree))
    (others : Renders more (.items trees)) (isRead : (Part.value tree).IsRead depth next)
    (areRead : (Part.items trees).IsRead depth more) :
    (Part.items (tree :: trees)).IsRead depth (before ++ 0x2C :: (behind ++ (next ++ more))) := by
  intro each rest here last held fuel enough
  obtain ⟨this, those⟩ := List.forall_mem_cons.mp each
  obtain ⟨fuel, rfl⟩ := Nat.exists_eq_add_one_of_ne_zero (Nat.ne_zero_of_lt enough)
  have closes : Closes .list more := others.walked
  obtain ⟨byte, inside, rfl, begins⟩ := item.begins
  obtain ⟨start, comes⟩ := nextElement_more isGapBefore isGapBehind begins.part.1
    begins.part.2.1 (inside ++ (more ++ 0x5D :: rest)) here
  have read := isRead this [] isGap_nil
  rw [List.nil_append] at read
  simp only [List.append_assoc, List.cons_append]
  exact readItems_of_element read (last :: held) (closes.delimited rest) comes fun here =>
    areRead those rest here tree.toData (last :: held) fuel (Nat.lt_of_succ_lt_succ enough)

/-- A member is read when its value is. -/
theorem isRead_member {key bytes : Bytes} {chars : List Char} {tree : Tree}
    (named : Spells key chars) (isGapBefore : IsGap before) (isGapBehind : IsGap behind)
    (isRead : (Part.value tree).IsRead depth bytes) :
    (Part.member (String.ofList chars) tree).IsRead depth
      (0x22 :: (key ++ 0x22 :: (before ++ 0x3A :: (behind ++ bytes)))) := by
  intro modest
  refine ⟨_, rfl, fun rest here delimited => ?_⟩
  obtain ⟨atValue, behindName, readName, colon⟩ :=
    reads_readName named isGapBefore (behind ++ (bytes ++ rest)) here
  obtain ⟨there, read⟩ := isRead modest behind isGapBehind rest atValue delimited
  rw [List.append_assoc] at read
  refine ⟨_, _, there, ?_, colon, read⟩
  simpa only [List.append_assoc, List.cons_append] using readName

theorem isRead_emptyObject {gap : Bytes} (isGapInside : IsGap gap) :
    (Part.value (.object [])).IsRead depth (0x7B :: (gap ++ [0x7D])) := by
  intro modest gap isGap
  cases modest with
  | object _ =>
      refine (reads_table fun rest here fuel enough => ?_).behind_gap isGap
      obtain ⟨fuel, rfl⟩ := Nat.exists_eq_add_one_of_ne_zero (Nat.ne_zero_of_lt enough)
      obtain ⟨there, ends⟩ := Schema.nextMember_end isGapInside true rest here
      refine ⟨there, ?_⟩
      rw [readTable, ends]
      rfl

theorem isRead_lastMember {gap : Bytes} (isGapInside : IsGap gap) :
    (Part.members []).IsRead depth gap := by
  intro _ rest here table fuel enough
  obtain ⟨fuel, rfl⟩ := Nat.exists_eq_add_one_of_ne_zero (Nat.ne_zero_of_lt enough)
  obtain ⟨there, ends⟩ := Schema.nextMember_end isGapInside false rest here
  refine ⟨there, ?_⟩
  rw [readTable, ends]
  rfl

/-- An object is read when its first member and those behind it are. -/
theorem isRead_object {name : String} {tree : Tree} {members : List (String × Tree)}
    (isGapInside : IsGap before) (member : Renders next (.member name tree))
    (others : Renders more (.members members))
    (isRead : ∀ depth, (Part.member name tree).IsRead depth next)
    (areRead : ∀ depth, (Part.members members).IsRead depth more) :
    (Part.value (.object ((name, tree) :: members))).IsRead depth
      (0x7B :: (before ++ (next ++ (more ++ [0x7D])))) := by
  intro modest gap isGap
  cases modest with
  | @object depth _ each =>
      obtain ⟨this, those⟩ := List.forall_mem_cons.mp each
      have closes : Closes .object more := others.walked
      have few := others.length_le_members
      have filled : 0 < next.length := by
        obtain ⟨inside, rfl⟩ := member.quoted
        exact Nat.zero_lt_succ _
      suffices entries : ∀ rest here fuel, (before ++ (next ++ more)).length < fuel → ∃ there,
          readTable (readData (depth + 1)) fuel true []
              ⟨before ++ (next ++ more) ++ 0x7D :: rest, here⟩ =
            .ok (Table.ofList (dataOfMembers ((name, tree) :: members)), ⟨0x7D :: rest, there⟩) by
        have whole := (reads_table entries).behind_gap isGap
        simp only [List.append_assoc] at whole
        exact whole
      intro rest here fuel enough
      simp only [List.length_append] at enough
      obtain ⟨fuel, rfl⟩ := Nat.exists_eq_add_one_of_ne_zero (Nat.ne_zero_of_lt enough)
      simp only [List.append_assoc]
      obtain ⟨start, comes⟩ := Schema.nextMember_first isGapInside member.quoted
        (more ++ 0x7D :: rest) here
      exact readTable_of_member this (isRead depth) (closes.delimited rest) comes fun here =>
        areRead depth those rest here _ fuel (by omega)

/-- Members behind a comma are read when the first of them and those behind it are. -/
theorem isRead_nextMember {name : String} {tree : Tree} {members : List (String × Tree)}
    (isGapBefore : IsGap before) (isGapBehind : IsGap behind)
    (member : Renders next (.member name tree)) (others : Renders more (.members members))
    (isRead : (Part.member name tree).IsRead depth next)
    (areRead : (Part.members members).IsRead depth more) :
    (Part.members ((name, tree) :: members)).IsRead depth
      (before ++ 0x2C :: (behind ++ (next ++ more))) := by
  intro each rest here table fuel enough
  obtain ⟨this, those⟩ := List.forall_mem_cons.mp each
  obtain ⟨fuel, rfl⟩ := Nat.exists_eq_add_one_of_ne_zero (Nat.ne_zero_of_lt enough)
  have closes : Closes .object more := others.walked
  obtain ⟨start, comes⟩ := Schema.nextMember_more isGapBefore isGapBehind member.quoted
    (more ++ 0x7D :: rest) here
  simp only [List.append_assoc, List.cons_append]
  exact readTable_of_member this isRead (closes.delimited rest) comes fun here =>
    areRead those rest here _ fuel (Nat.lt_of_succ_lt_succ enough)

end Parts

/-- **Every part of a text is read**, when its values are modest. -/
theorem isRead_of_renders {bytes : Bytes} {part : Part} (renders : Renders bytes part)
    (depth : Nat) : part.IsRead depth bytes := by
  induction renders generalizing depth with
  | null => exact fun _ gap isGap => (reads_null_data depth).behind_gap isGap
  | true => exact fun _ gap isGap => (reads_true_data depth).behind_gap isGap
  | false => exact fun _ gap isGap => (reads_false_data depth).behind_gap isGap
  | number numeral =>
      intro modest gap isGap
      cases modest with
      | number _ isFinite => exact (reads_number isFinite depth).behind_gap isGap
  | text spelt => exact fun _ gap isGap => (reads_text_data spelt depth).behind_gap isGap
  | emptyList isGap => exact isRead_emptyList isGap
  | list isGap item others ih ihOthers => exact isRead_list isGap item others ih ihOthers
  | lastItem isGap => exact isRead_lastItem isGap
  | nextItem isGapBefore isGapBehind item others ih ihOthers =>
      exact isRead_nextItem isGapBefore isGapBehind item others (ih depth) (ihOthers depth)
  | member named isGapBefore isGapBehind value ih =>
      exact isRead_member named isGapBefore isGapBehind (ih depth)
  | emptyObject isGap => exact isRead_emptyObject isGap
  | object isGap member others ih ihOthers =>
      exact isRead_object isGap member others ih ihOthers
  | lastMember isGap => exact isRead_lastMember isGap
  | nextMember isGapBefore isGapBehind member others ih ihOthers =>
      exact isRead_nextMember isGapBefore isGapBehind member others (ih depth) (ihOthers depth)

/-- **A modest value is read as its data**, however it is written. -/
theorem Holds.dataOf {text : Bytes} {tree : Tree} (holds : Holds text tree)
    (modest : tree.Modest 127) : Json.dataOf text = .ok tree.toData := by
  obtain ⟨front, bytes, behind, isGapFront, renders, isGapBehind, rfl⟩ := holds
  obtain ⟨there, read⟩ := isRead_of_renders renders 127 modest front isGapFront behind ⟨1, 0⟩ (by
    rw [← List.append_nil behind]
    exact isGapBehind.delimited .done)
  obtain ⟨last, ended⟩ := skipSpace_of_isGap_end isGapBehind there
  have limit : depthLimit = 127 + 1 := rfl
  rw [Json.dataOf, Cursor.start, limit, read]
  simp [bind, Except.bind, expectEnd, ended, Cursor.peek?]

end Polyglot.Json
