import Polyglot.Proofs.Scalars

/-!
# Values and their texts

A value is written in many ways: with gaps between its parts, with escapes in its strings and
names, and with the members of its objects in some order (`Renders`). Every value has a text
(`Tree.exists_renders`).

A value that is not asked for is passed over, whatever it is (`Renders.skipValue`). The walk keeps
a list of the arrays and objects that are open instead of recurring, so the induction over the
text says what the walk does in front of any list of open frames: it comes to the end of the part
with the same frames open, and takes at most two steps for each byte (`Passes`, `Closes`). The
number of steps that it starts with is therefore enough for every depth.
-/

set_option autoImplicit false

namespace Polyglot.Json

open Polyglot.Text (Bytes)

/-! ## Values -/

/-- A JSON value as it is written: the members of an object stand in an order, and may come
twice. -/
inductive Tree where
  /-- The null literal. -/
  | null
  /-- One of the two other literals. -/
  | boolean (value : Bool)
  /-- A number. -/
  | number (numeral : Numeral)
  /-- A string. -/
  | text (value : String)
  /-- An array. -/
  | list (items : List Tree)
  /-- An object. -/
  | object (members : List (String × Tree))

/-- A part of a text that holds a value. -/
inductive Part where
  /-- A value. -/
  | value (tree : Tree)
  /-- A member of an object. -/
  | member (name : String) (tree : Tree)
  /-- What comes between an item of an array and the end of the array, with these items. -/
  | items (trees : List Tree)
  /-- What comes between a member of an object and the end of the object, with these members. -/
  | members (members : List (String × Tree))

/-- Bytes and the part that they are a text of. -/
inductive Renders : Bytes → Part → Prop where
  | null : Renders (0x6E :: nullRest) (.value .null)
  | true : Renders (0x74 :: trueRest) (.value (.boolean true))
  | false : Renders (0x66 :: falseRest) (.value (.boolean false))
  | number (numeral : Numeral) : Renders numeral.spelling (.value (.number numeral))
  | text {inside : Bytes} {chars : List Char} (spelt : Spells inside chars) :
      Renders (0x22 :: (inside ++ [0x22])) (.value (.text (String.ofList chars)))
  | emptyList {gap : Bytes} (isGap : IsGap gap) :
      Renders (0x5B :: (gap ++ [0x5D])) (.value (.list []))
  | list {gap first more : Bytes} {tree : Tree} {trees : List Tree} (isGap : IsGap gap)
      (item : Renders first (.value tree)) (others : Renders more (.items trees)) :
      Renders (0x5B :: (gap ++ (first ++ (more ++ [0x5D])))) (.value (.list (tree :: trees)))
  | lastItem {gap : Bytes} (isGap : IsGap gap) : Renders gap (.items [])
  | nextItem {before behind next more : Bytes} {tree : Tree} {trees : List Tree}
      (isGapBefore : IsGap before) (isGapBehind : IsGap behind)
      (item : Renders next (.value tree)) (others : Renders more (.items trees)) :
      Renders (before ++ 0x2C :: (behind ++ (next ++ more))) (.items (tree :: trees))
  | member {key before behind bytes : Bytes} {chars : List Char} {tree : Tree}
      (named : Spells key chars) (isGapBefore : IsGap before) (isGapBehind : IsGap behind)
      (value : Renders bytes (.value tree)) :
      Renders (0x22 :: (key ++ 0x22 :: (before ++ 0x3A :: (behind ++ bytes))))
        (.member (String.ofList chars) tree)
  | emptyObject {gap : Bytes} (isGap : IsGap gap) :
      Renders (0x7B :: (gap ++ [0x7D])) (.value (.object []))
  | object {gap first more : Bytes} {name : String} {tree : Tree}
      {members : List (String × Tree)} (isGap : IsGap gap) (member : Renders first (.member name tree))
      (others : Renders more (.members members)) :
      Renders (0x7B :: (gap ++ (first ++ (more ++ [0x7D]))))
        (.value (.object ((name, tree) :: members)))
  | lastMember {gap : Bytes} (isGap : IsGap gap) : Renders gap (.members [])
  | nextMember {before behind next more : Bytes} {name : String} {tree : Tree}
      {members : List (String × Tree)} (isGapBefore : IsGap before) (isGapBehind : IsGap behind)
      (member : Renders next (.member name tree)) (others : Renders more (.members members)) :
      Renders (before ++ 0x2C :: (behind ++ (next ++ more))) (.members ((name, tree) :: members))

/-- A text that holds a value, with a gap on both sides. -/
def Holds (text : Bytes) (tree : Tree) : Prop :=
  ∃ front bytes behind, IsGap front ∧ Renders bytes (.value tree) ∧ IsGap behind ∧
    text = front ++ bytes ++ behind

theorem Holds.of_renders {bytes : Bytes} {tree : Tree} (renders : Renders bytes (.value tree)) :
    Holds bytes tree :=
  ⟨[], bytes, [], isGap_nil, renders, isGap_nil, (List.append_nil bytes).symm⟩

theorem exists_renders_text (value : String) : ∃ bytes, Renders bytes (.value (.text value)) := by
  obtain ⟨inside, _, spelt⟩ := utf8_string value
  have renders := Renders.text spelt
  rw [String.ofList_toList] at renders
  exact ⟨_, renders⟩

theorem exists_renders_member (name : String) {bytes : Bytes} {tree : Tree}
    (value : Renders bytes (.value tree)) : ∃ bytes, Renders bytes (.member name tree) := by
  obtain ⟨inside, _, named⟩ := utf8_string name
  have renders := Renders.member named isGap_nil isGap_nil value
  rw [String.ofList_toList] at renders
  exact ⟨_, renders⟩

mutual
/-- Every value has a text. -/
theorem Tree.exists_renders : ∀ tree : Tree, ∃ bytes, Renders bytes (.value tree)
  | .null => ⟨_, .null⟩
  | .boolean true => ⟨_, .true⟩
  | .boolean false => ⟨_, .false⟩
  | .number numeral => ⟨_, .number numeral⟩
  | .text value => exists_renders_text value
  | .list [] => ⟨_, .emptyList isGap_nil⟩
  | .list (tree :: trees) => by
      obtain ⟨first, item⟩ := tree.exists_renders
      obtain ⟨more, others⟩ := exists_renders_items trees
      exact ⟨_, .list isGap_nil item others⟩
  | .object [] => ⟨_, .emptyObject isGap_nil⟩
  | .object ((name, tree) :: members) => by
      obtain ⟨bytes, value⟩ := tree.exists_renders
      obtain ⟨first, member⟩ := exists_renders_member name value
      obtain ⟨more, others⟩ := exists_renders_members members
      exact ⟨_, .object isGap_nil member others⟩

theorem exists_renders_items : ∀ trees : List Tree, ∃ bytes, Renders bytes (.items trees)
  | [] => ⟨_, .lastItem isGap_nil⟩
  | tree :: trees => by
      obtain ⟨next, item⟩ := tree.exists_renders
      obtain ⟨more, others⟩ := exists_renders_items trees
      exact ⟨_, .nextItem isGap_nil isGap_nil item others⟩

theorem exists_renders_members : ∀ members : List (String × Tree),
    ∃ bytes, Renders bytes (.members members)
  | [] => ⟨_, .lastMember isGap_nil⟩
  | (name, tree) :: members => by
      obtain ⟨bytes, value⟩ := tree.exists_renders
      obtain ⟨next, member⟩ := exists_renders_member name value
      obtain ⟨more, others⟩ := exists_renders_members members
      exact ⟨_, .nextMember isGap_nil isGap_nil member others⟩
end

/-! ## How values begin -/

/-- A byte that the text of a value may begin with. -/
def Tree.Begins : Tree → UInt8 → Prop
  | .null, byte => byte = 0x6E
  | .boolean true, byte => byte = 0x74
  | .boolean false, byte => byte = 0x66
  | .number _, byte => byte = 0x2D ∨ (digit? byte).isSome = true
  | .text _, byte => byte = 0x22
  | .list _, byte => byte = 0x5B
  | .object _, byte => byte = 0x7B

/-- A value begins with none of the bytes that stand around values. -/
theorem Tree.Begins.part {tree : Tree} {byte : UInt8} (begins : tree.Begins byte) :
    Cursor.isSpace byte = false ∧ byte ≠ 0x5D ∧ byte ≠ 0x7D ∧ byte ≠ 0x2C := by
  have fixed {letter : UInt8} (same : byte = letter)
      (apart : Cursor.isSpace letter = false ∧ letter ≠ 0x5D ∧ letter ≠ 0x7D ∧ letter ≠ 0x2C) :
      Cursor.isSpace byte = false ∧ byte ≠ 0x5D ∧ byte ≠ 0x7D ∧ byte ≠ 0x2C := same ▸ apart
  cases tree with
  | null => exact fixed begins (by decide)
  | boolean value =>
      cases value with
      | true => exact fixed begins (by decide)
      | false => exact fixed begins (by decide)
  | number numeral =>
      rcases begins with minus | digit
      · exact fixed minus (by decide)
      · obtain ⟨value, read⟩ := Option.isSome_iff_exists.mp digit
        have other {letter : UInt8} (noDigit : digit? letter = none) : byte ≠ letter :=
          ne_of_isSome_digit? digit noDigit
        exact ⟨(digit?_eq_some read).1, other rfl, other rfl, other rfl⟩
  | text value => exact fixed begins (by decide)
  | list items => exact fixed begins (by decide)
  | object members => exact fixed begins (by decide)

/-- Only a null begins with its letter. -/
theorem Tree.Begins.letter {tree : Tree} (begins : tree.Begins 0x6E) : tree = .null := by
  cases tree with
  | null => rfl
  | boolean value => cases value <;> simp [Begins] at begins
  | _ => simp [Begins, digit?] at begins

/-- Only a number begins with a minus sign or a digit. -/
theorem Tree.Begins.number {tree : Tree} {byte : UInt8} (begins : tree.Begins byte)
    (first : byte = 0x2D ∨ (digit? byte).isSome = true) : ∃ numeral, tree = .number numeral := by
  have other {letter : UInt8} (same : byte = letter)
      (apart : letter ≠ 0x2D ∧ (digit? letter).isSome = false) : False := by
    subst same
    rw [apart.2] at first
    exact first.elim apart.1 nofun
  cases tree with
  | number numeral => exact ⟨numeral, rfl⟩
  | null => exact (other begins (by decide)).elim
  | boolean value =>
      cases value with
      | true => exact (other begins (by decide)).elim
      | false => exact (other begins (by decide)).elim
  | text value => exact (other begins (by decide)).elim
  | list items => exact (other begins (by decide)).elim
  | object members => exact (other begins (by decide)).elim

/-- Only a string begins with a quote. -/
theorem Tree.Begins.quote {tree : Tree} (begins : tree.Begins 0x22) :
    ∃ value, tree = .text value := by
  cases tree with
  | text value => exact ⟨value, rfl⟩
  | boolean value => cases value <;> simp [Begins] at begins
  | _ => simp [Begins, digit?] at begins

/-- Only an array begins with a bracket. -/
theorem Tree.Begins.bracket {tree : Tree} (begins : tree.Begins 0x5B) :
    ∃ items, tree = .list items := by
  cases tree with
  | list items => exact ⟨items, rfl⟩
  | boolean value => cases value <;> simp [Begins] at begins
  | _ => simp [Begins, digit?] at begins

/-- Only an object begins with a brace. -/
theorem Tree.Begins.brace {tree : Tree} (begins : tree.Begins 0x7B) :
    ∃ members, tree = .object members := by
  cases tree with
  | object members => exact ⟨members, rfl⟩
  | boolean value => cases value <;> simp [Begins] at begins
  | _ => simp [Begins, digit?] at begins

/-- The text of a value begins as the value does. -/
theorem Renders.begins {bytes : Bytes} {tree : Tree} (renders : Renders bytes (.value tree)) :
    ∃ byte more, bytes = byte :: more ∧ tree.Begins byte := by
  cases renders with
  | null => exact ⟨_, _, rfl, rfl⟩
  | true => exact ⟨_, _, rfl, rfl⟩
  | false => exact ⟨_, _, rfl, rfl⟩
  | number numeral =>
      obtain ⟨byte, more, shape, begins, _⟩ := numeral.reads
      exact ⟨byte, more, shape, begins⟩
  | text spelt => exact ⟨_, _, rfl, rfl⟩
  | emptyList isGap => exact ⟨_, _, rfl, rfl⟩
  | list isGap item others => exact ⟨_, _, rfl, rfl⟩
  | emptyObject isGap => exact ⟨_, _, rfl, rfl⟩
  | object isGap member others => exact ⟨_, _, rfl, rfl⟩

theorem Renders.quoted {bytes : Bytes} {name : String} {tree : Tree}
    (renders : Renders bytes (.member name tree)) : ∃ inside, bytes = 0x22 :: inside := by
  cases renders with
  | member named isGapBefore isGapBehind value => exact ⟨_, rfl⟩

theorem Renders.length_le_members {bytes : Bytes} {members : List (String × Tree)}
    (renders : Renders bytes (.members members)) : members.length ≤ bytes.length := by
  induction members generalizing bytes with
  | nil => exact Nat.zero_le _
  | cons member members ih =>
      cases renders with
      | nextMember isGapBefore isGapBehind member others =>
          have least := ih others
          simp only [List.length_append, List.length_cons]
          omega

/-! ## Passing over values -/

/-- Bytes that the walk passes over, wherever they stand behind a gap, before it comes to the end
of what they are an element of. Every byte takes it two steps at most. -/
def Passes (expecting : Expecting) (bytes : Bytes) : Prop :=
  ∀ gap, IsGap gap → ∀ rest, Delimited rest → ∀ frames here fuel, 2 * bytes.length ≤ fuel →
    ∃ there left, fuel ≤ left + 2 * bytes.length ∧
      skipFrames fuel expecting frames ⟨gap ++ (bytes ++ rest), here⟩ =
        skipFrames left .commaOrEnd frames ⟨rest, there⟩

/-- Bytes behind an element of a frame that the walk passes over with the end of the frame. -/
structure Closes (frame : Frame) (bytes : Bytes) : Prop where
  delimited : ∀ rest, Delimited (bytes ++ frame.closer :: rest)
  passes : ∀ rest outer here fuel, 2 * bytes.length + 1 ≤ fuel →
    ∃ there left, fuel ≤ left + 2 * bytes.length + 1 ∧
      skipFrames fuel .commaOrEnd (frame :: outer) ⟨bytes ++ frame.closer :: rest, here⟩ =
        skipFrames left .commaOrEnd outer ⟨rest, there⟩

theorem skipFrames_commaOrEnd_nil (fuel : Nat) (cursor : Cursor) :
    skipFrames fuel .commaOrEnd [] cursor = .ok cursor := by
  cases fuel with
  | zero => rfl
  | succ fuel => rfl

theorem Frame.closer_part (frame : Frame) : Cursor.isSpace frame.closer = false := by
  cases frame with
  | list => rfl
  | object => rfl

/-- A scalar takes one step. -/
theorem Passes.scalar {byte : UInt8} {more : Bytes} (part : Cursor.isSpace byte = false)
    (reads : Reads Delimited (skipScalarOrOpen byte) (byte :: more) none) :
    Passes .value (byte :: more) := by
  intro gap isGap rest delimited frames here fuel enough
  obtain ⟨fuel, rfl⟩ : ∃ less, fuel = less + 1 := ⟨fuel - 1, by simp at enough; omega⟩
  obtain ⟨start, skipped⟩ := skipSpace_of_isGap isGap part (more ++ rest) here
  obtain ⟨there, read⟩ := reads rest start delimited
  refine ⟨there, fuel, by simp; omega, ?_⟩
  rw [List.cons_append] at read ⊢
  simp only [skipFrames, skipped, Cursor.peek?_mk_cons, read, bind, Except.bind]
  cases frames with
  | nil => exact (skipFrames_commaOrEnd_nil fuel _).symm
  | cons frame frames => rfl

/-- The end of a frame takes one step, whether or not something stands in it. -/
theorem skipFrames_closer (frame : Frame) {expecting : Expecting}
    (atEnd : expecting = .firstOrEnd ∨ expecting = .commaOrEnd) {gap : Bytes} (isGap : IsGap gap)
    (rest : Bytes) (outer : List Frame) (here : Position) (fuel : Nat) : ∃ there,
    skipFrames (fuel + 1) expecting (frame :: outer) ⟨gap ++ frame.closer :: rest, here⟩ =
      skipFrames fuel .commaOrEnd outer ⟨rest, there⟩ := by
  obtain ⟨start, skipped⟩ := skipSpace_of_isGap isGap frame.closer_part rest here
  refine ⟨start.after frame.closer, ?_⟩
  have closes : skipFrames (fuel + 1) expecting (frame :: outer) ⟨gap ++ frame.closer :: rest, here⟩ =
      if outer.isEmpty then .ok ⟨rest, start.after frame.closer⟩
      else skipFrames fuel .commaOrEnd outer ⟨rest, start.after frame.closer⟩ := by
    rcases atEnd with rfl | rfl
    · simp only [skipFrames, skipped, Cursor.peek?_mk_cons, if_true, Cursor.advance_mk_cons]
    · simp only [skipFrames, skipped, Cursor.peek?_mk_cons, if_true, Cursor.advance_mk_cons]
  rw [closes]
  cases outer with
  | nil => exact (skipFrames_commaOrEnd_nil fuel _).symm
  | cons frame outer => rfl

/-- A gap ends a frame, behind an element. -/
theorem Closes.done (frame : Frame) {gap : Bytes} (isGap : IsGap gap) : Closes frame gap where
  delimited rest := isGap.delimited (by
    cases frame with
    | list => exact .closeList rest
    | object => exact .close rest)
  passes := by
    intro rest outer here fuel enough
    obtain ⟨fuel, rfl⟩ : ∃ less, fuel = less + 1 := ⟨fuel - 1, by omega⟩
    obtain ⟨there, closed⟩ := skipFrames_closer frame (.inr rfl) isGap rest outer here fuel
    exact ⟨there, fuel, by omega, closed⟩

/-- A comma and another element continue a frame. -/
theorem Closes.next (frame : Frame) {before behind element more : Bytes}
    (isGapBefore : IsGap before) (isGapBehind : IsGap behind)
    (passes : Passes frame.element element) (closes : Closes frame more) :
    Closes frame (before ++ 0x2C :: (behind ++ (element ++ more))) where
  delimited rest := by
    rw [List.append_assoc]
    exact isGapBefore.delimited (.comma _)
  passes := by
    intro rest outer here fuel enough
    simp only [List.length_append, List.length_cons] at enough
    obtain ⟨fuel, rfl⟩ : ∃ less, fuel = less + 1 := ⟨fuel - 1, by omega⟩
    have comma : Cursor.isSpace 0x2C = false := rfl
    have opens : (0x2C : UInt8) ≠ frame.closer := by cases frame <;> decide
    obtain ⟨start, skipped⟩ := skipSpace_of_isGap isGapBefore comma
      (behind ++ (element ++ (more ++ frame.closer :: rest))) here
    obtain ⟨middle, left, most, first⟩ := passes behind isGapBehind _ (closes.delimited rest)
      (frame :: outer) (start.after 0x2C) fuel (by omega)
    obtain ⟨there, last, least, second⟩ := closes.passes rest outer middle left (by omega)
    refine ⟨there, last, by simp only [List.length_append, List.length_cons]; omega, ?_⟩
    rw [← second, ← first]
    simp only [List.append_assoc, List.cons_append, skipFrames, skipped, Cursor.peek?_mk_cons,
      if_neg opens, if_true, Cursor.advance_mk_cons]
    rfl

/-- The byte that opens a frame. -/
def Frame.opener : Frame → UInt8
  | .list => 0x5B
  | .object => 0x7B

/-- A frame is opened in one step. -/
theorem skipFrames_opener (frame : Frame) {gap : Bytes} (isGap : IsGap gap) (rest : Bytes)
    (outer : List Frame) (here : Position) (fuel : Nat) : ∃ there,
    skipFrames (fuel + 1) .value outer ⟨gap ++ frame.opener :: rest, here⟩ =
      skipFrames fuel .firstOrEnd (frame :: outer) ⟨rest, there⟩ := by
  have part : Cursor.isSpace frame.opener = false := by cases frame <;> rfl
  obtain ⟨start, skipped⟩ := skipSpace_of_isGap isGap part rest here
  have opens : skipScalarOrOpen frame.opener ⟨frame.opener :: rest, start⟩ =
      .ok (some frame, ⟨rest, start.after frame.opener⟩) := by cases frame <;> rfl
  refine ⟨start.after frame.opener, ?_⟩
  simp only [skipFrames, skipped, Cursor.peek?_mk_cons, opens, bind, Except.bind]

/-- A frame with nothing in it is passed over. -/
theorem Passes.emptyFrame (frame : Frame) {gap : Bytes} (isGap : IsGap gap) :
    Passes .value (frame.opener :: (gap ++ [frame.closer])) := by
  intro front isGapFront rest _ frames here fuel enough
  simp only [List.length_cons, List.length_append, List.length_nil] at enough ⊢
  obtain ⟨fuel, rfl⟩ : ∃ less, fuel = less + 2 := ⟨fuel - 2, by omega⟩
  obtain ⟨middle, opened⟩ := skipFrames_opener frame isGapFront (gap ++ frame.closer :: rest)
    frames here (fuel + 1)
  obtain ⟨there, closed⟩ := skipFrames_closer frame (.inl rfl) isGap rest frames middle fuel
  refine ⟨there, fuel, by omega, ?_⟩
  simp only [List.cons_append, List.append_assoc, List.nil_append]
  rw [opened, closed]

/-- A frame is passed over when its elements are. -/
theorem Passes.frame (frame : Frame) {gap : Bytes} (isGap : IsGap gap) {byte : UInt8}
    {element more : Bytes} (part : Cursor.isSpace byte = false) (inside : byte ≠ frame.closer)
    (passes : Passes frame.element (byte :: element)) (closes : Closes frame more) :
    Passes .value (frame.opener :: (gap ++ (byte :: element ++ (more ++ [frame.closer])))) := by
  intro front isGapFront rest _ frames here fuel enough
  simp only [List.length_cons, List.length_append, List.length_nil] at enough ⊢
  obtain ⟨fuel, rfl⟩ : ∃ less, fuel = less + 2 := ⟨fuel - 2, by omega⟩
  obtain ⟨middle, opened⟩ := skipFrames_opener frame isGapFront
    (gap ++ (byte :: element ++ (more ++ frame.closer :: rest))) frames here (fuel + 1)
  obtain ⟨start, skipped⟩ := skipSpace_of_isGap isGap part
    (element ++ (more ++ frame.closer :: rest)) middle
  obtain ⟨behind, left, most, first⟩ := passes [] isGap_nil _ (closes.delimited rest)
    (frame :: frames) start fuel (by simp only [List.length_cons]; omega)
  simp only [List.length_cons] at most
  obtain ⟨there, last, least, second⟩ := closes.passes rest frames behind left (by omega)
  refine ⟨there, last, by omega, ?_⟩
  simp only [List.cons_append, List.append_assoc, List.nil_append] at opened first ⊢
  rw [opened, ← second, ← first]
  simp only [skipFrames, skipped, Cursor.peek?_mk_cons, if_neg inside, if_true]

/-- A member is passed over when its value is. -/
theorem Passes.member {key before behind bytes : Bytes} {chars : List Char}
    (named : Spells key chars) (isGapBefore : IsGap before) (isGapBehind : IsGap behind)
    (passes : Passes .value bytes) :
    Passes .name (0x22 :: (key ++ 0x22 :: (before ++ 0x3A :: (behind ++ bytes)))) := by
  intro gap isGap rest delimited frames here fuel enough
  simp only [List.length_cons, List.length_append] at enough ⊢
  obtain ⟨fuel, rfl⟩ : ∃ less, fuel = less + 1 := ⟨fuel - 1, by omega⟩
  have quote : Cursor.isSpace 0x22 = false := rfl
  have colon : Cursor.isSpace 0x3A = false := rfl
  obtain ⟨start, skipped⟩ := skipSpace_of_isGap isGap quote
    (key ++ 0x22 :: (before ++ 0x3A :: (behind ++ (bytes ++ rest)))) here
  obtain ⟨behindName, name⟩ := skipText_of_spells named
    (before ++ 0x3A :: (behind ++ (bytes ++ rest))) (start.after 0x22)
  obtain ⟨atColon, skippedToo⟩ := skipSpace_of_isGap isGapBefore colon
    (behind ++ (bytes ++ rest)) behindName
  obtain ⟨there, left, most, value⟩ := passes behind isGapBehind rest delimited frames
    (atColon.after 0x3A) fuel (by omega)
  refine ⟨there, left, by omega, ?_⟩
  simp only [List.cons_append, List.append_assoc]
  rw [← value]
  simp only [skipFrames, skipName, skipped, Cursor.peek?_mk_cons, Cursor.advance_mk_cons, ne_eq,
    not_true_eq_false, if_false, name, bind, Except.bind, skippedToo, if_true]

/-- What the walk makes of a part. -/
def Part.Walked : Part → Bytes → Prop
  | .value _, bytes => Passes .value bytes
  | .member _ _, bytes => Passes .name bytes
  | .items _, bytes => Closes .list bytes
  | .members _, bytes => Closes .object bytes

/-- **Every part of a text is passed over.** -/
theorem Renders.walked {bytes : Bytes} {part : Part} (renders : Renders bytes part) :
    part.Walked bytes := by
  induction renders with
  | null =>
      refine .scalar rfl fun rest here _ => ?_
      exact ⟨_, rfl⟩
  | true =>
      refine .scalar rfl fun rest here _ => ?_
      exact ⟨_, rfl⟩
  | false =>
      refine .scalar rfl fun rest here _ => ?_
      exact ⟨_, rfl⟩
  | number numeral =>
      obtain ⟨byte, more, shape, begins, reads⟩ := numeral.reads
      rw [shape]
      have begun : (Tree.number numeral).Begins byte := begins
      exact .scalar begun.part.1 reads
  | @text inside chars spelt =>
      refine .scalar rfl fun rest here _ => ?_
      obtain ⟨there, skipped⟩ := skipText_of_spells spelt rest (here.after 0x22)
      refine ⟨there, ?_⟩
      simp [skipScalarOrOpen, digit?, skipped, Except.map]
  | emptyList isGap => exact .emptyFrame .list isGap
  | list isGap item others ih ihOthers =>
      obtain ⟨byte, more, rfl, begins⟩ := item.begins
      exact .frame .list isGap begins.part.1 begins.part.2.1 ih ihOthers
  | lastItem isGap => exact .done .list isGap
  | nextItem isGapBefore isGapBehind item others ih ihOthers =>
      exact .next .list isGapBefore isGapBehind ih ihOthers
  | member named isGapBefore isGapBehind value ih =>
      exact .member named isGapBefore isGapBehind ih
  | emptyObject isGap => exact .emptyFrame .object isGap
  | object isGap member others ih ihOthers =>
      obtain ⟨inside, rfl⟩ := member.quoted
      exact .frame .object isGap rfl (by decide) ih ihOthers
  | lastMember isGap => exact .done .object isGap
  | nextMember isGapBefore isGapBehind member others ih ihOthers =>
      exact .next .object isGapBefore isGapBehind ih ihOthers

/-- **A value is passed over**, whatever it is, however it is spelt and however deep it is. -/
theorem Renders.skipValue {bytes : Bytes} {tree : Tree} (renders : Renders bytes (.value tree))
    {gap : Bytes} (isGap : IsGap gap) {rest : Bytes} (delimited : Delimited rest)
    (here : Position) : ∃ there,
    Json.skipValue ⟨gap ++ (bytes ++ rest), here⟩ = .ok ⟨rest, there⟩ := by
  have passes : Passes .value bytes := renders.walked
  obtain ⟨there, left, _, walked⟩ := passes gap isGap rest delimited [] here
    (3 * (gap ++ (bytes ++ rest)).length + 3) (by
      simp only [List.length_append]
      omega)
  exact ⟨there, walked.trans (skipFrames_commaOrEnd_nil left _)⟩

end Polyglot.Json
