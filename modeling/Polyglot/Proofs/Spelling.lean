import Polyglot.Json.Literal
import Polyglot.Json.Writer
import Polyglot.Proofs.Utf8

/-!
# Spellings of a text in JSON

A text can be spelt as a JSON string in many ways: a character stands for itself, or behind
a backslash as a letter, as one code unit, or as a pair of surrogates (`Spells`). Every
spelling is read back as the text that it spells (`reads_readText`), whatever comes behind
its closing quote. What is written here is one of the spellings (`utf8_string`).

A reader succeeds wherever a text stands, so its lemmas leave the places open (`Reads`).
-/

set_option autoImplicit false

namespace Polyglot.Json

open Polyglot.Text (Bytes)

/-! ## Places that do not matter -/

@[simp] theorem Cursor.advance_mk_cons (byte : UInt8) (rest : Bytes) (here : Position) :
    advance ⟨byte :: rest, here⟩ = ⟨rest, here.after byte⟩ := rfl

@[simp] theorem Cursor.peek?_mk_cons (byte : UInt8) (rest : Bytes) (here : Position) :
    peek? ⟨byte :: rest, here⟩ = some byte := rfl

/-- A reader takes some bytes as a value, wherever they stand and whatever of the given kind
comes behind them. -/
def Reads {α : Type} (behind : Bytes → Prop) (reader : Cursor → Except Fault (α × Cursor))
    (bytes : Bytes) (value : α) : Prop :=
  ∀ rest here, behind rest →
    ∃ there, reader ⟨bytes ++ rest, here⟩ = .ok (value, ⟨rest, there⟩)

/-! ## Spellings -/

/-- A character that may stand for itself in a JSON string. -/
structure IsPlain (c : Char) : Prop where
  noQuote : c ≠ '"'
  noBackslash : c ≠ '\\'
  noControl : 32 ≤ c.toNat

/-- Four hexadecimal digits and the code unit that they spell. -/
inductive SpellsUnit : Bytes → Nat → Prop where
  | digits {a b c d : UInt8} {w x y z : Nat} (first : hexValue? a = some w)
      (second : hexValue? b = some x) (third : hexValue? c = some y)
      (fourth : hexValue? d = some z) :
      SpellsUnit [a, b, c, d] (w * 4096 + x * 256 + y * 16 + z)

/-- What stands behind a backslash and the character that it spells. -/
inductive SpellsEscape : Bytes → Char → Prop where
  | letter {byte : UInt8} {c : Char} (escape : escapeOf? byte = some c) : SpellsEscape [byte] c
  | unit {digits : Bytes} {unit : Nat} (spelt : SpellsUnit digits unit)
      (scalar : unit < 0xD800 ∨ 0xDFFF < unit) :
      SpellsEscape (0x75 :: digits) (Char.ofNat unit)
  | pair {upper lower : Bytes} {high low : Nat} (speltUpper : SpellsUnit upper high)
      (speltLower : SpellsUnit lower low) (leads : 0xD800 ≤ high ∧ high ≤ 0xDBFF)
      (trails : 0xDC00 ≤ low ∧ low ≤ 0xDFFF) :
      SpellsEscape (0x75 :: upper ++ 0x5C :: 0x75 :: lower)
        (Char.ofNat (0x10000 + (high - 0xD800) * 0x400 + (low - 0xDC00)))

/-- Bytes inside of a JSON string and the characters that they spell. -/
inductive Spells : Bytes → List Char → Prop where
  | done : Spells [] []
  | plain {c : Char} {bytes : Bytes} {chars : List Char} (plain : IsPlain c)
      (more : Spells bytes chars) : Spells (String.utf8EncodeChar c ++ bytes) (c :: chars)
  | escape {c : Char} {escape bytes : Bytes} {chars : List Char} (spelt : SpellsEscape escape c)
      (more : Spells bytes chars) : Spells (0x5C :: escape ++ bytes) (c :: chars)

/-! ## Reading escapes -/

theorem readHex_of_spellsUnit {digits : Bytes} {unit : Nat} (spelt : SpellsUnit digits unit) :
    Reads (fun _ => True) readHex digits unit := by
  intro rest here _
  cases spelt with
  | digits first second third fourth =>
      simp only [readHex, List.cons_append, List.nil_append, first, second, third, fourth]
      exact ⟨_, rfl⟩

/-- A code unit that is no surrogate is a character. -/
theorem readUnit_of_scalar {digits : Bytes} {unit : Nat} (spelt : SpellsUnit digits unit)
    (scalar : unit < 0xD800 ∨ 0xDFFF < unit) :
    Reads (fun _ => True) readUnit digits (Char.ofNat unit) := by
  intro rest here _
  obtain ⟨there, read⟩ := readHex_of_spellsUnit spelt rest here trivial
  refine ⟨there, ?_⟩
  simp only [readUnit, read, bind, Except.bind]
  rw [if_neg (by omega), if_pos (by omega)]

/-- Two surrogates are a character together. -/
theorem readUnit_of_pair {upper lower : Bytes} {high low : Nat}
    (speltUpper : SpellsUnit upper high) (speltLower : SpellsUnit lower low)
    (leads : 0xD800 ≤ high ∧ high ≤ 0xDBFF) (trails : 0xDC00 ≤ low ∧ low ≤ 0xDFFF) :
    Reads (fun _ => True) readUnit (upper ++ 0x5C :: 0x75 :: lower)
      (Char.ofNat (0x10000 + (high - 0xD800) * 0x400 + (low - 0xDC00))) := by
  intro rest here _
  obtain ⟨there, readUpper⟩ := readHex_of_spellsUnit speltUpper
    (0x5C :: 0x75 :: lower ++ rest) here trivial
  obtain ⟨last, readLower⟩ := readHex_of_spellsUnit speltLower rest
    ((there.after 0x5C).after 0x75) trivial
  refine ⟨last, ?_⟩
  rw [List.append_assoc]
  simp only [readUnit, readUpper, bind, Except.bind]
  rw [if_neg (by omega), if_neg (by omega)]
  simp only [List.cons_append, expectInPair, Cursor.peek?_mk_cons, Cursor.advance_mk_cons, if_true,
    readLower]
  rw [if_neg (by omega)]

/-- The letter of a code unit escapes nothing by itself. -/
theorem readEscape_of_unit {digits : Bytes} {c : Char}
    (read : Reads (fun _ => True) readUnit digits c) :
    Reads (fun _ => True) readEscape (0x75 :: digits) c := by
  intro rest here _
  obtain ⟨there, done⟩ := read rest (here.after 0x75) trivial
  refine ⟨there, ?_⟩
  simp only [readEscape, List.cons_append, Cursor.peek?_mk_cons, Cursor.advance_mk_cons]
  exact done

theorem reads_readEscape {escape : Bytes} {c : Char} (spelt : SpellsEscape escape c) :
    Reads (fun _ => True) readEscape escape c := by
  cases spelt with
  | @letter byte c escape =>
      intro rest here _
      refine ⟨here.after byte, ?_⟩
      simp only [readEscape, List.cons_append, List.nil_append, Cursor.peek?_mk_cons,
        Cursor.advance_mk_cons, escape]
  | unit spelt scalar => exact readEscape_of_unit (readUnit_of_scalar spelt scalar)
  | pair speltUpper speltLower leads trails =>
      exact readEscape_of_unit (readUnit_of_pair speltUpper speltLower leads trails)

/-! ## Reading stretches -/

/-- The bytes of a character are the character itself, or too large to end a stretch. -/
theorem byte_of_mem_utf8EncodeChar {c : Char} {byte : UInt8}
    (member : byte ∈ String.utf8EncodeChar c) : byte.toNat = c.toNat ∨ 128 ≤ byte.toNat := by
  have value : c.val.toNat = c.toNat := rfl
  simp only [String.utf8EncodeChar, value] at member
  repeat' split at member
  all_goals
    simp only [List.mem_cons, List.not_mem_nil, or_false] at member
    rcases member with rfl | rfl | rfl | rfl <;> simp only [UInt8.toNat_ofNat'] <;> omega

/-- No byte of a plain character ends a stretch. -/
theorem endsStretch_of_isPlain {c : Char} (plain : IsPlain c) {byte : UInt8}
    (member : byte ∈ String.utf8EncodeChar c) : endsStretch byte = false := by
  have notQuote : c.toNat ≠ 0x22 := fun same => plain.noQuote (Char.toNat_inj.mp same)
  have notBackslash : c.toNat ≠ 0x5C := fun same => plain.noBackslash (Char.toNat_inj.mp same)
  have control := plain.noControl
  simp only [endsStretch, Bool.or_eq_false_iff, beq_eq_false_iff_ne, decide_eq_false_iff_not,
    ne_eq, ← UInt8.toNat_inj, UInt8.lt_iff_toNat_lt]
  rcases byte_of_mem_utf8EncodeChar member with same | large
  · rw [same]
    exact ⟨⟨notQuote, notBackslash⟩, Nat.not_lt.mpr control⟩
  · refine ⟨⟨?_, ?_⟩, ?_⟩
    · exact fun same => absurd (same ▸ large) (by decide)
    · exact fun same => absurd (same ▸ large) (by decide)
    · exact fun below => absurd (Nat.lt_of_le_of_lt large below) (by decide)

theorem endsStretch_quote : endsStretch 0x22 = true := by decide

theorem endsStretch_backslash : endsStretch 0x5C = true := by decide

/-- Plain text stays plain with one more plain character. -/
theorem isPlain_append {text : String} (plain : ∀ c ∈ text.toList, IsPlain c) {c : Char}
    (letter : IsPlain c) : ∀ other ∈ (text ++ String.ofList [c]).toList, IsPlain other := by
  intro other member
  rw [String.toList_append, String.toList_ofList, List.mem_append, List.mem_singleton] at member
  rcases member with before | rfl
  · exact plain other before
  · exact letter

/-- The stretch in front of a byte that ends it is the plain text before. -/
theorem stretch_of_plain {text : String} (plain : ∀ c ∈ text.toList, IsPlain c) {byte : UInt8}
    (ends : endsStretch byte = true) (rest : Bytes) (here : Position) : ∃ there,
    Cursor.stretch ⟨Text.utf8 text ++ byte :: rest, here⟩ =
      (Text.utf8 text, ⟨byte :: rest, there⟩) := by
  have goesOn : ∀ other ∈ Text.utf8 text, (!endsStretch other) = true := by
    intro other member
    obtain ⟨c, among, within⟩ := List.mem_flatMap.mp member
    rw [endsStretch_of_isPlain (plain c among) within]
    rfl
  have front : (Text.utf8 text ++ byte :: rest).takeWhile (fun other => !endsStretch other) =
      Text.utf8 text := by
    rw [List.takeWhile_append_of_pos goesOn, List.takeWhile_cons_of_neg (by simp [ends]),
      List.append_nil]
  refine ⟨⟨here.line, here.column + (Text.utf8 text).length⟩, ?_⟩
  simp only [Cursor.stretch, front, List.drop_left]

theorem charsOf_utf8 (text : String) (start : Position) :
    charsOf (Text.utf8 text) start = .ok text.toList := by
  rw [charsOf, Text.brokenAt?_utf8, Text.lossy_utf8]

/-- A backslash ends a stretch, and the escape behind it is read before the next one. -/
theorem readStretches_of_escape {text : String} (plain : ∀ c ∈ text.toList, IsPlain c)
    {escape : Bytes} {c : Char} (spelt : SpellsEscape escape c) (rest : Bytes)
    (reversed : List Char) (here : Position) (fuel : Nat) : ∃ there,
    readStretches (fuel + 1) reversed ⟨Text.utf8 text ++ (0x5C :: escape ++ rest), here⟩ =
      readStretches fuel (c :: text.toList.reverse ++ reversed) ⟨rest, there⟩ := by
  obtain ⟨behind, stretch⟩ := stretch_of_plain plain endsStretch_backslash (escape ++ rest) here
  obtain ⟨there, done⟩ := reads_readEscape spelt rest (behind.after 0x5C) trivial
  refine ⟨there, ?_⟩
  rw [readStretches, List.cons_append, stretch]
  simp only [Cursor.peek?_mk_cons, Cursor.advance_mk_cons, charsOf_utf8, done, bind, Except.bind]
  rfl

/-- What was spelt is read up to the quote. The text in front of it was read already and
belongs to the same stretch. -/
theorem readStretches_of_spells {bytes : Bytes} {chars : List Char} (spelt : Spells bytes chars)
    (rest : Bytes) (text : String) (plain : ∀ c ∈ text.toList, IsPlain c) (reversed : List Char)
    (here : Position) (fuel : Nat) (enough : bytes.length < fuel) : ∃ there,
    readStretches fuel reversed ⟨Text.utf8 text ++ (bytes ++ 0x22 :: rest), here⟩ =
      .ok (String.ofList (reversed.reverse ++ (text.toList ++ chars)), ⟨rest, there⟩) := by
  induction spelt generalizing text reversed here fuel with
  | done =>
      obtain ⟨fuel, rfl⟩ := Nat.exists_eq_add_one_of_ne_zero (Nat.ne_of_gt enough)
      obtain ⟨behind, stretch⟩ := stretch_of_plain plain endsStretch_quote rest here
      refine ⟨behind.after 0x22, ?_⟩
      rw [readStretches, List.nil_append, stretch, List.append_nil]
      simp only [Cursor.peek?_mk_cons, Cursor.advance_mk_cons, charsOf_utf8, bind, Except.bind]
      rfl
  | @plain c bytes chars letter more ih =>
      obtain ⟨there, read⟩ := ih _ (isPlain_append plain letter) reversed here fuel
        (Nat.lt_of_le_of_lt (by simp) enough)
      refine ⟨there, ?_⟩
      simpa only [Text.utf8_append, Text.utf8_ofList, List.flatMap_singleton, List.append_assoc,
        String.toList_append, String.toList_ofList, List.singleton_append] using read
  | @escape c escape bytes chars spelt more ih =>
      obtain ⟨fuel, rfl⟩ := Nat.exists_eq_add_one_of_ne_zero (Nat.ne_zero_of_lt enough)
      obtain ⟨behind, first⟩ := readStretches_of_escape plain spelt (bytes ++ 0x22 :: rest)
        reversed here fuel
      obtain ⟨there, read⟩ := ih "" nofun (c :: text.toList.reverse ++ reversed) behind fuel
        (by simp at enough; omega)
      refine ⟨there, ?_⟩
      rw [List.append_assoc, first]
      simpa using read

/-- **A string that was spelt is read.** -/
theorem reads_readText {bytes : Bytes} {chars : List Char} (spelt : Spells bytes chars) :
    Reads (fun _ => True) readText (bytes ++ [0x22]) (String.ofList chars) := by
  intro rest here _
  obtain ⟨there, read⟩ := readStretches_of_spells spelt rest "" nofun [] here
    ((bytes ++ [0x22] ++ rest).length + 1) (by
      rw [List.append_assoc, List.length_append]
      exact Nat.lt_succ_of_le (Nat.le_add_right _ _))
  refine ⟨there, ?_⟩
  rw [List.append_assoc] at read ⊢
  exact read

/-! ## The spelling that is written -/

/-- A hexadecimal digit is one byte, which is read as its value. -/
theorem utf8EncodeChar_hexDigit : ∀ value < 16, ∃ byte,
    String.utf8EncodeChar (Text.hexDigit value) = [byte] ∧ hexValue? byte = some value := by
  suffices digits : ∀ value < 16,
      String.utf8EncodeChar (Text.hexDigit value) = [UInt8.ofNat (Text.hexDigit value).toNat] ∧
        hexValue? (UInt8.ofNat (Text.hexDigit value).toNat) = some value from
    fun value below => ⟨_, digits value below⟩
  decide

/-- A control character is written as its code unit. -/
theorem spellsEscape_control {c : Char} (control : c.toNat < 32) :
    ∃ escape, SpellsEscape escape c ∧ ['\\', 'u', '0', '0', Text.hexDigit (c.toNat / 16),
      Text.hexDigit (c.toNat % 16)].flatMap String.utf8EncodeChar = 0x5C :: escape := by
  obtain ⟨third, thirdByte, thirdValue⟩ := utf8EncodeChar_hexDigit (c.toNat / 16) (by omega)
  obtain ⟨fourth, fourthByte, fourthValue⟩ := utf8EncodeChar_hexDigit (c.toNat % 16) (by omega)
  have zero : hexValue? 0x30 = some 0 := by decide
  have spelt := SpellsEscape.unit (.digits zero zero thirdValue fourthValue) (by omega)
  have value : 0 * 4096 + 0 * 256 + c.toNat / 16 * 16 + c.toNat % 16 = c.toNat := by omega
  rw [value, Char.ofNat_toNat] at spelt
  refine ⟨_, spelt, ?_⟩
  simp only [List.flatMap_cons, List.flatMap_nil, thirdByte, fourthByte]
  rfl

/-- Every character is written in one of its spellings. -/
theorem spells_escapedChar (c : Char) {bytes : Bytes} {chars : List Char}
    (more : Spells bytes chars) :
    Spells ((escapedChar c).flatMap String.utf8EncodeChar ++ bytes) (c :: chars) := by
  have named {letter : UInt8} {other : Char} (escape : escapeOf? letter = some other)
      (same : c = other) : Spells (0x5C :: letter :: bytes) (c :: chars) :=
    same ▸ .escape (.letter escape) more
  have numbered {n : Nat} (value : c.toNat = n) : c = Char.ofNat n :=
    value ▸ (Char.ofNat_toNat c).symm
  unfold escapedChar
  split
  · exact named rfl ‹_›
  · split
    · exact named rfl ‹_›
    · split
      · exact named rfl (numbered ‹_›)
      · split
        · exact named rfl (numbered ‹_›)
        · split
          · exact named rfl ‹_›
          · split
            · exact named rfl ‹_›
            · split
              · exact named rfl ‹_›
              · split
                · rename_i control
                  obtain ⟨escape, spelt, written⟩ := spellsEscape_control control
                  rw [written]
                  exact .escape spelt more
                · rename_i noQuote noBackslash _ _ _ _ _ noControl
                  rw [List.flatMap_singleton]
                  exact .plain ⟨noQuote, noBackslash, Nat.not_lt.mp noControl⟩ more

/-- **A text that is written as a string is spelt.** -/
theorem utf8_string (text : String) : ∃ inside,
    Text.utf8 (string text) = 0x22 :: (inside ++ [0x22]) ∧ Spells inside text.toList := by
  refine ⟨(text.toList.flatMap escapedChar).flatMap String.utf8EncodeChar, ?_, ?_⟩
  · simp only [string, stringChars, Text.utf8_ofList, List.cons_append, List.flatMap_cons,
      List.flatMap_append, List.flatMap_nil, List.append_nil]
    rfl
  · induction text.toList with
    | nil => exact .done
    | cons c chars ih =>
        rw [List.flatMap_cons, List.flatMap_append]
        exact spells_escapedChar c ih

end Polyglot.Json
