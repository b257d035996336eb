import Polyglot.Json.Ignored
import Polyglot.Proofs.Records

/-!
# Numbers and strings that are passed over

The value of a member with an unknown name is passed over: its numbers are not evaluated and its
strings are not decoded. A number in its grammar is passed over to its last byte
(`Numeral.reads`), when what comes behind it does not continue it. A string is passed over in
each of its spellings (`skipText_of_spells`). A pair of surrogates is one character of the string,
but two escapes for the walk, which does not look at what they mean.
-/

set_option autoImplicit false

namespace Polyglot.Json

open Polyglot.Text (Bytes)

/-! ## Numbers -/

/-- Digits in front of something else are passed over. -/
theorem skipDigits_of_areDigits {digits : Bytes} (areDigits : AreDigits digits) {rest : Bytes}
    (other : ∀ here, Cursor.digit? ⟨rest, here⟩ = none) (here : Position) : ∃ there,
    Cursor.skipDigits ⟨digits ++ rest, here⟩ = ⟨rest, there⟩ := by
  unfold Cursor.skipDigits
  induction digits generalizing here with
  | nil =>
      refine ⟨here, ?_⟩
      cases rest with
      | nil => rfl
      | cons byte rest =>
          have noDigit : digit? byte = none := other here
          simp [Cursor.skipDigits.go, noDigit]
  | cons byte digits ih =>
      obtain ⟨first, others⟩ := List.forall_mem_cons.mp areDigits
      obtain ⟨there, skipped⟩ := ih others (here.after byte)
      refine ⟨there, ?_⟩
      simpa [Cursor.skipDigits.go, first] using skipped

/-- An exponent is passed over from its letter on. -/
theorem skipExponent_of_areDigits {letter byte : UInt8} {sign bytes : Bytes}
    (isSign : sign = [] ∨ sign = [0x2B] ∨ sign = [0x2D]) (areDigits : AreDigits (byte :: bytes))
    {rest : Bytes} (delimited : Delimited rest) (here : Position) : ∃ there,
    skipExponent ⟨letter :: (sign ++ byte :: bytes) ++ rest, here⟩ = .ok ⟨rest, there⟩ := by
  have noDigit (here : Position) := (delimited.stops here).1
  have digit := areDigits byte List.mem_cons_self
  have digits (here : Position) : ∃ there,
      (if (Cursor.digit? ⟨byte :: bytes ++ rest, here⟩).isSome then
        .ok (Cursor.skipDigits ⟨byte :: bytes ++ rest, here⟩)
      else Cursor.fail (Cursor.advance ⟨byte :: bytes ++ rest, here⟩) .invalidNumber) =
        (.ok ⟨rest, there⟩ : Except Fault Cursor) := by
    obtain ⟨there, skipped⟩ := skipDigits_of_areDigits areDigits noDigit here
    refine ⟨there, ?_⟩
    simp only [Cursor.digit?, List.cons_append, Cursor.peek?_mk_cons, Option.bind_some, digit,
      if_true] at skipped ⊢
    rw [skipped]
  rcases isSign with rfl | rfl | rfl
  · have noPlus : byte ≠ 0x2B := ne_of_isSome_digit? digit rfl
    have noMinus : byte ≠ 0x2D := ne_of_isSome_digit? digit rfl
    obtain ⟨there, skipped⟩ := digits (here.after letter)
    refine ⟨there, ?_⟩
    simpa [skipExponent, noPlus, noMinus] using skipped
  · obtain ⟨there, skipped⟩ := digits ((here.after letter).after 0x2B)
    exact ⟨there, by simpa [skipExponent] using skipped⟩
  · obtain ⟨there, skipped⟩ := digits ((here.after letter).after 0x2D)
    exact ⟨there, by simpa [skipExponent] using skipped⟩

/-- Behind the digits in front of it, an exponent is passed over, or there is none. -/
theorem skips_isExponent {exponent : Bytes} (isExponent : IsExponent exponent) {rest : Bytes}
    (delimited : Delimited rest) (here : Position) :
    Cursor.digit? ⟨exponent ++ rest, here⟩ = none ∧ Cursor.atPoint ⟨exponent ++ rest, here⟩ = false ∧
    ∃ there, (if Cursor.atExponent ⟨exponent ++ rest, here⟩ then skipExponent ⟨exponent ++ rest, here⟩
      else .ok ⟨exponent ++ rest, here⟩) = .ok ⟨rest, there⟩ := by
  cases isExponent with
  | none =>
      obtain ⟨noDigit, noPoint, noExponent⟩ := delimited.stops here
      refine ⟨noDigit, noPoint, here, ?_⟩
      rw [List.nil_append, if_neg (by rw [noExponent]; decide)]
  | @digits letter byte sign bytes isLetter isSign areDigits =>
      obtain ⟨there, skipped⟩ := skipExponent_of_areDigits isSign areDigits delimited here
      have opens : Cursor.atExponent ⟨letter :: (sign ++ byte :: bytes) ++ rest, here⟩ = true := by
        rcases isLetter with rfl | rfl
        · rfl
        · rfl
      refine ⟨?_, ?_, there, ?_⟩
      · rcases isLetter with rfl | rfl
        · rfl
        · rfl
      · rcases isLetter with rfl | rfl
        · rfl
        · rfl
      · rw [if_pos opens, skipped]

/-- The fraction and the exponent of a number are passed over. -/
theorem skipNumberRest_of_parts {fraction exponent : Bytes} (isFraction : IsFraction fraction)
    (isExponent : IsExponent exponent) {rest : Bytes} (delimited : Delimited rest)
    (here : Position) : Cursor.digit? ⟨fraction ++ (exponent ++ rest), here⟩ = none ∧
    ∃ there, skipNumberRest ⟨fraction ++ (exponent ++ rest), here⟩ = .ok ⟨rest, there⟩ := by
  cases isFraction with
  | none =>
      obtain ⟨noDigit, noPoint, there, skipped⟩ := skips_isExponent isExponent delimited here
      refine ⟨noDigit, there, ?_⟩
      rw [List.nil_append, skipNumberRest, if_neg (by rw [noPoint]; decide), skipped]
  | @digits byte bytes areDigits =>
      have noDigit (here : Position) := (skips_isExponent isExponent delimited here).1
      obtain ⟨behind, digits⟩ := skipDigits_of_areDigits areDigits noDigit (here.after 0x2E)
      obtain ⟨_, _, there, skipped⟩ := skips_isExponent isExponent delimited behind
      have point : digit? 0x2E = none := rfl
      have digit : (digit? byte).isNone = false := by
        rw [Option.isNone_eq_false_iff]
        exact areDigits byte List.mem_cons_self
      refine ⟨point, there, ?_⟩
      rw [List.cons_append] at digits
      simp [skipNumberRest, Cursor.atPoint, skipFraction, Cursor.digit?, digit, digits, skipped]

/-- A number is passed over behind its sign. -/
theorem skipNumber_of_parts {whole fraction exponent : Bytes} (isWhole : IsWhole whole)
    (isFraction : IsFraction fraction) (isExponent : IsExponent exponent) {rest : Bytes}
    (delimited : Delimited rest) (here : Position) : ∃ there,
    skipNumber ⟨whole ++ (fraction ++ (exponent ++ rest)), here⟩ = .ok ⟨rest, there⟩ := by
  have noDigit (here : Position) :=
    (skipNumberRest_of_parts isFraction isExponent delimited here).1
  cases isWhole with
  | zero =>
      obtain ⟨_, there, skipped⟩ :=
        skipNumberRest_of_parts isFraction isExponent delimited (here.after 0x30)
      have digit : Cursor.digit? ⟨0x30 :: (fraction ++ (exponent ++ rest)), here⟩ = some 0 := rfl
      refine ⟨there, ?_⟩
      rw [List.cons_append, List.nil_append, skipNumber, digit]
      simp [noDigit, skipped]
  | @digits byte bytes first areDigits =>
      obtain ⟨behind, digits⟩ := skipDigits_of_areDigits areDigits noDigit here
      obtain ⟨_, there, skipped⟩ :=
        skipNumberRest_of_parts isFraction isExponent delimited behind
      obtain ⟨value, digit⟩ := Option.isSome_iff_exists.mp (areDigits byte List.mem_cons_self)
      have nonzero : value ≠ 0 := by
        rintro rfl
        simp only [digit?, Option.ite_none_right_eq_some, Option.some.injEq] at digit
        exact first (UInt8.toNat_inj.mp (by simp; omega))
      obtain ⟨more, rfl⟩ := Nat.exists_eq_succ_of_ne_zero nonzero
      have begins : Cursor.digit? ⟨byte :: bytes ++ (fraction ++ (exponent ++ rest)), here⟩ =
          some more.succ := digit
      refine ⟨there, ?_⟩
      rw [skipNumber, begins]
      exact (congrArg skipNumberRest digits).trans skipped

/-- A number begins with a minus sign or a digit, and is passed over as a whole. -/
theorem Numeral.reads (numeral : Numeral) : ∃ byte more, numeral.spelling = byte :: more ∧
    (byte = 0x2D ∨ (digit? byte).isSome = true) ∧
    Reads Delimited (skipScalarOrOpen byte) (byte :: more) none := by
  obtain ⟨negative, whole, fraction, exponent, isWhole, isFraction, isExponent⟩ := numeral
  have skips (rest : Bytes) (here : Position) (delimited : Delimited rest) :=
    skipNumber_of_parts isWhole isFraction isExponent delimited here
  cases negative with
  | true =>
      refine ⟨0x2D, _, rfl, .inl rfl, fun rest here delimited => ?_⟩
      obtain ⟨there, skipped⟩ := skips rest (here.after 0x2D) delimited
      refine ⟨there, ?_⟩
      simp [skipScalarOrOpen, skipped, Except.map]
  | false =>
      obtain ⟨byte, bytes, rfl, digit⟩ : ∃ byte bytes, whole = byte :: bytes ∧
          (digit? byte).isSome = true := by
        cases isWhole with
        | zero => exact ⟨0x30, [], rfl, rfl⟩
        | @digits byte bytes _ areDigits => exact ⟨byte, bytes, rfl, areDigits byte List.mem_cons_self⟩
      refine ⟨byte, _, rfl, .inr digit, fun rest here delimited => ?_⟩
      obtain ⟨there, skipped⟩ := skips rest here delimited
      refine ⟨there, ?_⟩
      have noNull : byte ≠ 0x6E := ne_of_isSome_digit? digit rfl
      have noTrue : byte ≠ 0x74 := ne_of_isSome_digit? digit rfl
      have noFalse : byte ≠ 0x66 := ne_of_isSome_digit? digit rfl
      have noMinus : byte ≠ 0x2D := ne_of_isSome_digit? digit rfl
      rw [List.cons_append] at skipped
      simp [skipScalarOrOpen, noNull, noTrue, noFalse, noMinus, digit, skipped, Except.map]

/-! ## Strings -/

/-- A code unit is passed over without a look at what it means. -/
theorem skipStretches_of_spellsUnit {text : String} (plain : ∀ c ∈ text.toList, IsPlain c)
    {digits : Bytes} {unit : Nat} (spelt : SpellsUnit digits unit) (rest : Bytes) (here : Position)
    (fuel : Nat) : ∃ there,
    skipStretches (fuel + 1) ⟨Text.utf8 text ++ (0x5C :: 0x75 :: digits ++ rest), here⟩ =
      skipStretches fuel ⟨rest, there⟩ := by
  have letter : escapeOf? 0x75 = none := rfl
  obtain ⟨behind, stretch⟩ := stretch_of_plain plain endsStretch_backslash
    (0x75 :: digits ++ rest) here
  obtain ⟨there, read⟩ := readHex_of_spellsUnit spelt rest ((behind.after 0x5C).after 0x75) trivial
  refine ⟨there, ?_⟩
  rw [skipStretches, List.cons_append, stretch]
  simp [letter, read, bind, Except.bind]

/-- An escape is passed over in one step, and a pair of surrogates in two. -/
theorem skipStretches_of_escape {text : String} (plain : ∀ c ∈ text.toList, IsPlain c)
    {escape : Bytes} {c : Char} (spelt : SpellsEscape escape c) (rest : Bytes) (here : Position)
    (fuel : Nat) : ∃ there left, fuel ≤ left ∧
    skipStretches (fuel + 2) ⟨Text.utf8 text ++ (0x5C :: escape ++ rest), here⟩ =
      skipStretches left ⟨rest, there⟩ := by
  cases spelt with
  | @letter byte c escape =>
      obtain ⟨behind, stretch⟩ := stretch_of_plain plain endsStretch_backslash ([byte] ++ rest) here
      refine ⟨(behind.after 0x5C).after byte, fuel + 1, Nat.le_succ fuel, ?_⟩
      rw [skipStretches, List.cons_append, stretch]
      simp [escape]
  | unit spelt _ =>
      obtain ⟨there, skipped⟩ := skipStretches_of_spellsUnit plain spelt rest here (fuel + 1)
      exact ⟨there, fuel + 1, Nat.le_succ fuel, skipped⟩
  | @pair upper lower high low speltUpper speltLower _ _ =>
      obtain ⟨middle, first⟩ := skipStretches_of_spellsUnit plain speltUpper
        (0x5C :: 0x75 :: lower ++ rest) here (fuel + 1)
      -- No plain text stands between the two halves of the pair.
      have noText : ∀ c ∈ "".toList, IsPlain c := nofun
      obtain ⟨there, second⟩ := skipStretches_of_spellsUnit noText speltLower rest middle fuel
      refine ⟨there, fuel, Nat.le_refl fuel, ?_⟩
      simp only [List.cons_append, List.append_assoc] at first second ⊢
      rw [first]
      exact second

/-- What was spelt is passed over up to the quote, with the plain text in front of it. -/
theorem skipStretches_of_spells {bytes : Bytes} {chars : List Char} (spelt : Spells bytes chars)
    (rest : Bytes) (text : String) (plain : ∀ c ∈ text.toList, IsPlain c) (here : Position)
    (fuel : Nat) (enough : bytes.length < fuel) : ∃ there,
    skipStretches fuel ⟨Text.utf8 text ++ (bytes ++ 0x22 :: rest), here⟩ = .ok ⟨rest, there⟩ := by
  induction spelt generalizing text here fuel with
  | done =>
      obtain ⟨fuel, rfl⟩ := Nat.exists_eq_add_one_of_ne_zero (Nat.ne_of_gt enough)
      obtain ⟨behind, stretch⟩ := stretch_of_plain plain endsStretch_quote rest here
      refine ⟨behind.after 0x22, ?_⟩
      rw [skipStretches, List.nil_append, stretch]
      simp
  | @plain c bytes chars letter more ih =>
      obtain ⟨there, skipped⟩ := ih _ (isPlain_append plain letter) here fuel
        (Nat.lt_of_le_of_lt (by simp) enough)
      refine ⟨there, ?_⟩
      simpa only [Text.utf8_append, Text.utf8_ofList, List.flatMap_singleton,
        List.append_assoc] using skipped
  | @escape c escape bytes chars spelt more ih =>
      have step : 1 ≤ escape.length := by cases spelt <;> simp
      simp only [List.length_append, List.length_cons] at enough
      obtain ⟨fuel, rfl⟩ : ∃ less, fuel = less + 2 := ⟨fuel - 2, by omega⟩
      obtain ⟨behind, left, most, first⟩ := skipStretches_of_escape plain spelt
        (bytes ++ 0x22 :: rest) here fuel
      obtain ⟨there, skipped⟩ := ih "" nofun behind left (by omega)
      refine ⟨there, ?_⟩
      rw [List.append_assoc, first]
      simpa using skipped

/-- A string that was spelt is passed over. -/
theorem skipText_of_spells {bytes : Bytes} {chars : List Char} (spelt : Spells bytes chars)
    (rest : Bytes) (here : Position) : ∃ there,
    skipText ⟨bytes ++ 0x22 :: rest, here⟩ = .ok ⟨rest, there⟩ := by
  obtain ⟨there, skipped⟩ := skipStretches_of_spells spelt rest "" nofun here
    ((bytes ++ 0x22 :: rest).length + 1) (by
      rw [List.length_append]
      exact Nat.lt_succ_of_le (Nat.le_add_right _ _))
  exact ⟨there, skipped⟩

end Polyglot.Json
