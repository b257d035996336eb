import Polyglot.Proofs.Spelling

/-!
# Numbers

A number is spelt with an optional sign, its whole part, a fraction and an exponent (`Numeral`).
It is read as the natural that its digits are when it has nothing but digits and they fit 64 bits
(`Numeral.reads_of_natural?`), and then only: every other number is refused, or read as a
negative or a floating-point number (`Numeral.negative_of_readNumber`). What is written for a
natural is such a number (`Numeral.ofNat`).
-/

set_option autoImplicit false

namespace Polyglot.Json

open Polyglot.Text (Bytes)

/-! ## Digits -/

/-- Bytes that may come behind a number. -/
inductive Delimited : Bytes → Prop where
  | done : Delimited []
  | space {byte : UInt8} (isSpace : Cursor.isSpace byte = true) (rest : Bytes) :
      Delimited (byte :: rest)
  | comma (rest : Bytes) : Delimited (0x2C :: rest)
  | close (rest : Bytes) : Delimited (0x7D :: rest)
  | closeList (rest : Bytes) : Delimited (0x5D :: rest)

/-- What delimits a number neither continues it nor makes a fraction of it. -/
theorem Delimited.stops {rest : Bytes} (delimited : Delimited rest) (here : Position) :
    Cursor.digit? ⟨rest, here⟩ = none ∧ Cursor.atPoint ⟨rest, here⟩ = false ∧
      Cursor.atExponent ⟨rest, here⟩ = false := by
  cases delimited with
  | done => exact ⟨rfl, rfl, rfl⟩
  | space isSpace rest =>
      simp only [Cursor.isSpace, Bool.or_eq_true, beq_iff_eq] at isSpace
      rcases isSpace with ((rfl | rfl) | rfl) | rfl
      all_goals exact ⟨rfl, rfl, rfl⟩
  | comma rest => exact ⟨rfl, rfl, rfl⟩
  | close rest => exact ⟨rfl, rfl, rfl⟩
  | closeList rest => exact ⟨rfl, rfl, rfl⟩

/-- A digit is none of the bytes that are no digits. -/
theorem ne_of_isSome_digit? {byte letter : UInt8} (digit : (digit? byte).isSome = true)
    (noDigit : digit? letter = none) : byte ≠ letter := by
  rintro rfl
  rw [noDigit] at digit
  cases digit

/-- A digit is neither a space nor a minus sign nor the beginning of a null. -/
theorem digit?_eq_some {byte : UInt8} {value : Nat} (digit : digit? byte = some value) :
    Cursor.isSpace byte = false ∧ byte ≠ 0x2D ∧ byte ≠ 0x6E := by
  have other {letter : UInt8} (noDigit : digit? letter = none) : byte ≠ letter :=
    ne_of_isSome_digit? (Option.isSome_of_eq_some digit) noDigit
  refine ⟨?_, other rfl, other rfl⟩
  simp only [Cursor.isSpace, Bool.or_eq_false_iff, beq_eq_false_iff_ne]
  exact ⟨⟨⟨other rfl, other rfl⟩, other rfl⟩, other rfl⟩

/-- Bytes that are digits. -/
def AreDigits (bytes : Bytes) : Prop :=
  ∀ byte ∈ bytes, (digit? byte).isSome = true

/-- The natural that digits are behind digits that are a given one. -/
def naturalOf (digits : Bytes) (front : Nat) : Nat :=
  digits.foldl (fun value byte => value * 10 + (digit? byte).getD 0) front

theorem le_naturalOf (digits : Bytes) (front : Nat) : front ≤ naturalOf digits front := by
  induction digits generalizing front with
  | nil => exact Nat.le_refl front
  | cons byte digits ih =>
      have more := ih (front * 10 + (digit? byte).getD 0)
      rw [naturalOf, List.foldl_cons, ← naturalOf]
      omega

/-- The first digit counts itself and ten times what stands before it. -/
theorem naturalOf_cons {byte : UInt8} {digit : Nat} (isDigit : digit? byte = some digit)
    (digits : Bytes) (front : Nat) :
    naturalOf (byte :: digits) front = naturalOf digits (front * 10 + digit) := by
  rw [naturalOf, List.foldl_cons, ← naturalOf, isDigit, Option.getD_some]

theorem AreDigits.uncons {byte : UInt8} {bytes : Bytes} (areDigits : AreDigits (byte :: bytes)) :
    (∃ digit, digit? byte = some digit) ∧ AreDigits bytes := by
  obtain ⟨first, others⟩ := List.forall_mem_cons.mp areDigits
  exact ⟨Option.isSome_iff_exists.mp first, others⟩

/-- Only the zero is a digit without a value. -/
theorem digit?_ne_zero {byte : UInt8} (other : byte ≠ 0x30) : digit? byte ≠ some 0 := by
  intro digit
  simp only [digit?, Option.ite_none_right_eq_some, Option.some.injEq] at digit
  exact other (UInt8.toNat_inj.mp (by simp; omega))

/-! ## Numerals -/

/-- The whole part of a number, which begins with a zero only if it is one. -/
inductive IsWhole : Bytes → Prop where
  | zero : IsWhole [0x30]
  | digits {byte : UInt8} {bytes : Bytes} (first : byte ≠ 0x30)
      (areDigits : AreDigits (byte :: bytes)) : IsWhole (byte :: bytes)

/-- The fraction of a number, if there is one. -/
inductive IsFraction : Bytes → Prop where
  | none : IsFraction []
  | digits {byte : UInt8} {bytes : Bytes} (areDigits : AreDigits (byte :: bytes)) :
      IsFraction (0x2E :: byte :: bytes)

/-- The exponent of a number, if there is one. -/
inductive IsExponent : Bytes → Prop where
  | none : IsExponent []
  | digits {letter byte : UInt8} {sign bytes : Bytes} (isLetter : letter = 0x65 ∨ letter = 0x45)
      (isSign : sign = [] ∨ sign = [0x2B] ∨ sign = [0x2D])
      (areDigits : AreDigits (byte :: bytes)) : IsExponent (letter :: (sign ++ byte :: bytes))

/-- A number as it is spelt. -/
structure Numeral where
  /-- Whether it has a minus sign. -/
  negative : Bool
  /-- The digits before the point. -/
  whole : Bytes
  /-- The point and the digits behind it. -/
  fraction : Bytes
  /-- The exponent with its letter. -/
  exponent : Bytes
  isWhole : IsWhole whole
  isFraction : IsFraction fraction
  isExponent : IsExponent exponent

/-- The bytes of a number. -/
def Numeral.spelling (numeral : Numeral) : Bytes :=
  (if numeral.negative then [0x2D] else []) ++
    (numeral.whole ++ (numeral.fraction ++ numeral.exponent))

/-- The natural that a number is, when it is spelt with nothing but digits and fits 64 bits. -/
def Numeral.natural? (numeral : Numeral) : Option Nat :=
  if numeral.negative = false ∧ numeral.fraction = [] ∧ numeral.exponent = [] ∧
      naturalOf numeral.whole 0 ≤ significandLimit
  then some (naturalOf numeral.whole 0) else none

/-! ## Reading digits -/

/-- The walk takes a digit as long as the value fits with it. -/
theorem readSignificand_cons {byte : UInt8} {digit : Nat} (isDigit : digit? byte = some digit)
    (negative : Bool) (fuel value : Nat) (rest : Bytes) (here : Position) :
    readSignificand negative (fuel + 1) value ⟨byte :: rest, here⟩ =
      if value * 10 + digit > significandLimit then readLong negative value ⟨byte :: rest, here⟩
      else readSignificand negative fuel (value * 10 + digit) ⟨rest, here.after byte⟩ := by
  rw [readSignificand]
  simp only [Cursor.digit?, Cursor.peek?_mk_cons, Option.bind_some, isDigit,
    Cursor.advance_mk_cons]

/-- Digits that come next are read as long as the value fits. -/
theorem readSignificand_of_areDigits {digits : Bytes} (areDigits : AreDigits digits) {value : Nat}
    (fits : naturalOf digits value ≤ significandLimit) {rest : Bytes}
    (noDigit : ∀ here, Cursor.digit? ⟨rest, here⟩ = none) (negative : Bool) (here : Position)
    (fuel : Nat) (enough : digits.length ≤ fuel) : ∃ there,
    readSignificand negative fuel value ⟨digits ++ rest, here⟩ =
      readShort negative (naturalOf digits value) ⟨rest, there⟩ := by
  induction digits generalizing value here fuel with
  | nil =>
      refine ⟨here, ?_⟩
      cases fuel with
      | zero => rfl
      | succ fuel => simp [readSignificand, noDigit, naturalOf]
  | cons byte digits ih =>
      obtain ⟨⟨digit, isDigit⟩, others⟩ := areDigits.uncons
      obtain ⟨fuel, rfl⟩ := Nat.exists_eq_add_one_of_ne_zero (Nat.ne_zero_of_lt enough)
      rw [naturalOf_cons isDigit] at fits ⊢
      have below := Nat.le_trans (le_naturalOf digits _) fits
      obtain ⟨there, read⟩ := ih others fits (here.after byte) fuel (Nat.le_of_succ_le_succ enough)
      refine ⟨there, ?_⟩
      rw [List.cons_append, readSignificand_cons isDigit, if_neg (Nat.not_lt.mpr below), read]

/-- A reading that brings no whole number. -/
def BringsNoInteger (answer : Except Fault (Number × Cursor)) : Prop :=
  ∀ value cursor, answer ≠ .ok (.integer value, cursor)

theorem bringsNoInteger_floatOf (negative : Bool) (significand : Nat) (exponent : Int)
    (cursor : Cursor) : BringsNoInteger (floatOf negative significand exponent cursor) := by
  intro value there
  unfold floatOf
  split
  · nofun
  · nofun

theorem bringsNoInteger_readExponent (negative : Bool) (significand : Nat) (scale : Int)
    (cursor : Cursor) : BringsNoInteger (readExponent negative significand scale cursor) := by
  intro value there
  simp only [readExponent]
  split
  · nofun
  · split
    · nofun
    · split
      · exact bringsNoInteger_floatOf _ _ _ _ value there
      · split
        · nofun
        · nofun

theorem bringsNoInteger_readAfterDigits (negative : Bool) (significand : Nat) (scale : Int)
    (cursor : Cursor) : BringsNoInteger (readAfterDigits negative significand scale cursor) := by
  intro value there
  unfold readAfterDigits
  split
  · exact bringsNoInteger_readExponent _ _ _ _ value there
  · exact bringsNoInteger_floatOf _ _ _ _ value there

theorem bringsNoInteger_readFraction (negative : Bool) (significand : Nat) (scale : Int)
    (cursor : Cursor) : BringsNoInteger (readFraction negative significand scale cursor) := by
  intro value there
  simp only [readFraction]
  split
  · exact bringsNoInteger_readAfterDigits _ _ _ _ value there
  · split
    · split
      · nofun
      · nofun
    · exact bringsNoInteger_readAfterDigits _ _ _ _ value there

theorem bringsNoInteger_readLong (negative : Bool) (significand : Nat) (cursor : Cursor) :
    BringsNoInteger (readLong negative significand cursor) := by
  intro value there
  simp only [readLong]
  split
  · exact bringsNoInteger_readFraction _ _ _ _ value there
  · exact bringsNoInteger_readAfterDigits _ _ _ _ value there

/-- Digits that do not fit are read as no whole number. -/
theorem bringsNoInteger_readSignificand {digits : Bytes} (areDigits : AreDigits digits)
    {value : Nat} (small : value ≤ significandLimit) (large : significandLimit < naturalOf digits value)
    (negative : Bool) (rest : Bytes) (here : Position) (fuel : Nat) (enough : digits.length ≤ fuel) :
    BringsNoInteger (readSignificand negative fuel value ⟨digits ++ rest, here⟩) := by
  induction digits generalizing value here fuel with
  | nil => exact absurd small (Nat.not_le.mpr large)
  | cons byte digits ih =>
      obtain ⟨⟨digit, isDigit⟩, others⟩ := areDigits.uncons
      obtain ⟨fuel, rfl⟩ := Nat.exists_eq_add_one_of_ne_zero (Nat.ne_zero_of_lt enough)
      rw [naturalOf_cons isDigit] at large
      rw [List.cons_append, readSignificand_cons isDigit]
      split
      · exact bringsNoInteger_readLong _ _ _
      · rename_i fits
        exact ih others (Nat.not_lt.mp fits) large (here.after byte) fuel
          (Nat.le_of_succ_le_succ enough)

/-- A whole number as it is read: it fits 64 bits, and it is negative behind a minus sign. -/
def IsRanged (negative : Bool) (value : Int) : Prop :=
  value ≤ significandLimit ∧ (negative = true → value < 0)

theorem isRanged_of_readShort {negative : Bool} {significand : Nat} {cursor there : Cursor}
    {value : Int} (small : significand ≤ significandLimit)
    (read : readShort negative significand cursor = .ok (.integer value, there)) :
    IsRanged negative value := by
  unfold readShort at read
  split at read
  · exact absurd read (bringsNoInteger_readFraction _ _ _ _ value there)
  · split at read
    · exact absurd read (bringsNoInteger_readExponent _ _ _ _ value there)
    · split at read
      · rename_i positive
        cases read
        exact ⟨Int.ofNat_le.mpr small, fun signed => absurd signed positive⟩
      · split at read
        · cases read
        · rename_i nonzero
          cases read
          exact ⟨by omega, fun _ => by omega⟩

theorem isRanged_of_readSignificand {negative : Bool} {fuel significand : Nat}
    {cursor there : Cursor} {value : Int} (small : significand ≤ significandLimit)
    (read : readSignificand negative fuel significand cursor = .ok (.integer value, there)) :
    IsRanged negative value := by
  induction fuel generalizing significand cursor with
  | zero => exact isRanged_of_readShort small read
  | succ fuel ih =>
      unfold readSignificand at read
      split at read
      · exact isRanged_of_readShort small read
      · split at read
        · exact absurd read (bringsNoInteger_readLong _ _ _ value there)
        · rename_i fits
          exact ih (Nat.not_lt.mp fits) read

/-- A digit fits 64 bits. -/
theorem le_of_digit?_eq_some {byte : UInt8} {value : Nat} (digit : digit? byte = some value) :
    value ≤ significandLimit := by
  simp only [digit?, Option.ite_none_right_eq_some, Option.some.injEq] at digit
  have limit : 9 ≤ significandLimit := by decide
  omega

theorem isRanged_of_readUnsigned {negative : Bool} {cursor there : Cursor} {value : Int}
    (read : readUnsigned negative cursor = .ok (.integer value, there)) :
    IsRanged negative value := by
  unfold readUnsigned at read
  split at read
  · cases read
  · split at read
    · cases read
    · split at read
      · cases read
      · exact isRanged_of_readShort (Nat.zero_le _) read
    · rename_i digit
      exact isRanged_of_readSignificand (le_of_digit?_eq_some digit) read

/-- A whole number that is read fits 64 bits. -/
theorem le_of_readNumber {cursor there : Cursor} {value : Int}
    (read : readNumber cursor = .ok (.integer value, there)) : value ≤ significandLimit := by
  unfold readNumber at read
  split at read
  · exact (isRanged_of_readUnsigned read).1
  · exact (isRanged_of_readUnsigned read).1

/-! ## Reading numerals -/

/-- Behind the whole part of a number no digit follows. -/
theorem digit?_parts {fraction exponent : Bytes} (isFraction : IsFraction fraction)
    (isExponent : IsExponent exponent) {rest : Bytes} (delimited : Delimited rest)
    (here : Position) : Cursor.digit? ⟨fraction ++ (exponent ++ rest), here⟩ = none := by
  cases isFraction with
  | digits areDigits => rfl
  | none =>
      cases isExponent with
      | none => exact (delimited.stops here).1
      | digits isLetter isSign areDigits =>
          rcases isLetter with rfl | rfl
          · rfl
          · rfl

/-- A number without a fraction and an exponent ends behind its digits. -/
theorem readShort_of_delimited {rest : Bytes} (delimited : Delimited rest) (significand : Nat)
    (here : Position) :
    readShort false significand ⟨rest, here⟩ = .ok (.integer significand, ⟨rest, here⟩) := by
  obtain ⟨_, noPoint, noExponent⟩ := delimited.stops here
  simp [readShort, noPoint, noExponent]

/-- A number with a fraction or an exponent is no whole number. -/
theorem bringsNoInteger_readShort {fraction exponent : Bytes} (isFraction : IsFraction fraction)
    (isExponent : IsExponent exponent) (parts : ¬ (fraction = [] ∧ exponent = [])) (negative : Bool)
    (significand : Nat) (rest : Bytes) (here : Position) :
    BringsNoInteger (readShort negative significand ⟨fraction ++ (exponent ++ rest), here⟩) := by
  unfold readShort
  cases isFraction with
  | @digits byte bytes areDigits =>
      have point : Cursor.atPoint ⟨0x2E :: byte :: bytes ++ (exponent ++ rest), here⟩ = true := rfl
      rw [if_pos point]
      exact bringsNoInteger_readFraction _ _ _ _
  | none =>
      cases isExponent with
      | none => exact absurd ⟨rfl, rfl⟩ parts
      | @digits letter byte sign bytes isLetter isSign areDigits =>
          have opens (more : Bytes) : Cursor.atPoint ⟨letter :: more, here⟩ = false ∧
              Cursor.atExponent ⟨letter :: more, here⟩ = true := by
            rcases isLetter with rfl | rfl
            · exact ⟨rfl, rfl⟩
            · exact ⟨rfl, rfl⟩
          simp only [List.nil_append, List.cons_append, opens, Bool.false_eq_true, if_false, if_true]
          exact bringsNoInteger_readExponent _ _ _ _

/-- A whole part that begins with no zero is read from the value of its first digit. -/
theorem readUnsigned_cons {byte : UInt8} (first : byte ≠ 0x30) {digit : Nat}
    (isDigit : digit? byte = some digit) (negative : Bool) (rest : Bytes) (here : Position) :
    readUnsigned negative ⟨byte :: rest, here⟩ =
      readSignificand negative (rest.length + 1) digit ⟨rest, here.after byte⟩ := by
  have nonzero : digit ≠ 0 := fun zero => digit?_ne_zero first (zero ▸ isDigit)
  obtain ⟨less, rfl⟩ := Nat.exists_eq_succ_of_ne_zero nonzero
  simp only [readUnsigned, Cursor.peek?_mk_cons, isDigit, Cursor.advance_mk_cons, List.length_cons]

/-- Digits that fit are read, and the reader comes to what stands behind them. -/
theorem readUnsigned_of_isWhole {whole : Bytes} (isWhole : IsWhole whole)
    (fits : naturalOf whole 0 ≤ significandLimit) {rest : Bytes}
    (noDigit : ∀ here, Cursor.digit? ⟨rest, here⟩ = none) (negative : Bool) (here : Position) :
    ∃ there, readUnsigned negative ⟨whole ++ rest, here⟩ =
      readShort negative (naturalOf whole 0) ⟨rest, there⟩ := by
  cases isWhole with
  | zero =>
      refine ⟨here.after 0x30, ?_⟩
      have digit : digit? 0x30 = some 0 := rfl
      simp [readUnsigned, digit, noDigit, naturalOf]
  | @digits byte bytes first areDigits =>
      obtain ⟨⟨digit, isDigit⟩, others⟩ := areDigits.uncons
      rw [naturalOf_cons isDigit, Nat.zero_mul, Nat.zero_add] at fits ⊢
      rw [List.cons_append, readUnsigned_cons first isDigit]
      exact readSignificand_of_areDigits others fits noDigit negative _ _
        (Nat.le_succ_of_le (by simp))

/-- Digits that do not fit are read as no whole number. -/
theorem bringsNoInteger_readUnsigned {whole : Bytes} (isWhole : IsWhole whole)
    (large : significandLimit < naturalOf whole 0) (negative : Bool) (rest : Bytes)
    (here : Position) : BringsNoInteger (readUnsigned negative ⟨whole ++ rest, here⟩) := by
  cases isWhole with
  | zero => exact absurd large (by decide)
  | @digits byte bytes first areDigits =>
      obtain ⟨⟨digit, isDigit⟩, others⟩ := areDigits.uncons
      rw [naturalOf_cons isDigit, Nat.zero_mul, Nat.zero_add] at large
      rw [List.cons_append, readUnsigned_cons first isDigit]
      exact bringsNoInteger_readSignificand others (le_of_digit?_eq_some isDigit) large negative
        _ _ _ (Nat.le_succ_of_le (by simp))

/-- A number begins with a minus sign or with a digit. -/
theorem Numeral.spelling_eq_cons (numeral : Numeral) : ∃ byte more,
    numeral.spelling = byte :: more ∧ (byte = 0x2D ∨ (digit? byte).isSome = true) := by
  obtain ⟨negative, whole, fraction, exponent, isWhole, _, _⟩ := numeral
  cases negative with
  | true => exact ⟨0x2D, _, rfl, .inl rfl⟩
  | false =>
      cases isWhole with
      | zero => exact ⟨0x30, _, rfl, .inr rfl⟩
      | @digits byte bytes _ areDigits =>
          exact ⟨byte, _, rfl, .inr (areDigits byte List.mem_cons_self)⟩

/-- Without a minus sign a number is read from its first digit on. -/
theorem readNumber_of_isWhole {whole : Bytes} (isWhole : IsWhole whole) (rest : Bytes)
    (here : Position) :
    readNumber ⟨whole ++ rest, here⟩ = readUnsigned false ⟨whole ++ rest, here⟩ := by
  obtain ⟨byte, more, rfl, noMinus⟩ : ∃ byte more, whole = byte :: more ∧ byte ≠ 0x2D := by
    cases isWhole with
    | zero => exact ⟨0x30, [], rfl, by decide⟩
    | @digits byte bytes _ areDigits =>
        exact ⟨byte, bytes, rfl, ne_of_isSome_digit? (areDigits byte List.mem_cons_self) rfl⟩
  rw [List.cons_append, readNumber, Cursor.peek?_mk_cons, if_neg (by simpa using noMinus)]

/-- **A number that is a natural is read as the natural.** -/
theorem Numeral.reads_of_natural? {numeral : Numeral} {value : Nat}
    (natural : numeral.natural? = some value) :
    Reads Delimited readNumber numeral.spelling (.integer value) := by
  intro rest here delimited
  obtain ⟨negative, whole, fraction, exponent, isWhole, _, _⟩ := numeral
  simp only [natural?, Option.ite_none_right_eq_some, Option.some.injEq] at natural
  obtain ⟨⟨rfl, rfl, rfl, fits⟩, rfl⟩ := natural
  obtain ⟨there, read⟩ := readUnsigned_of_isWhole isWhole fits
    (fun here => (delimited.stops here).1) false here
  refine ⟨there, ?_⟩
  simp only [spelling, Bool.false_eq_true, if_false, List.nil_append, List.append_nil]
  rw [readNumber_of_isWhole isWhole, read, readShort_of_delimited delimited]

/-- **A number that is no natural is not read as one.** -/
theorem Numeral.negative_of_readNumber {numeral : Numeral} (noNatural : numeral.natural? = none)
    {rest : Bytes} (delimited : Delimited rest) {here : Position} {value : Int} {there : Cursor}
    (read : readNumber ⟨numeral.spelling ++ rest, here⟩ = .ok (.integer value, there)) :
    value < 0 := by
  obtain ⟨negative, whole, fraction, exponent, isWhole, isFraction, isExponent⟩ := numeral
  cases negative with
  | true =>
      have signed : readNumber ⟨(Numeral.mk true whole fraction exponent isWhole isFraction
          isExponent).spelling ++ rest, here⟩ =
            readUnsigned true ⟨whole ++ (fraction ++ exponent) ++ rest, here.after 0x2D⟩ := rfl
      exact (isRanged_of_readUnsigned (signed.symm.trans read)).2 rfl
  | false =>
      simp only [spelling, Bool.false_eq_true, if_false, List.nil_append, List.append_assoc] at read
      rw [readNumber_of_isWhole isWhole] at read
      by_cases fits : naturalOf whole 0 ≤ significandLimit
      · have parts : ¬ (fraction = [] ∧ exponent = []) := by
          rintro ⟨rfl, rfl⟩
          simp [natural?, fits] at noNatural
        obtain ⟨middle, same⟩ := readUnsigned_of_isWhole isWhole fits
          (digit?_parts isFraction isExponent delimited) false here
        rw [same] at read
        exact absurd read (bringsNoInteger_readShort isFraction isExponent parts _ _ _ _ value there)
      · exact absurd read
          (bringsNoInteger_readUnsigned isWhole (Nat.not_le.mp fits) false _ here value there)

/-! ## Naturals that are written -/

/-- The byte of a digit is read as its value. -/
theorem utf8EncodeChar_digit {c : Char} (isDigit : c.isDigit = true) : ∃ byte,
    String.utf8EncodeChar c = [byte] ∧ digit? byte = some (c.toNat - 48) ∧
      byte.toNat = c.toNat := by
  simp only [Char.isDigit, Bool.and_eq_true, decide_eq_true_eq] at isDigit
  have bounds : 48 ≤ c.toNat ∧ c.toNat ≤ 57 := isDigit
  have value : c.val.toNat = c.toNat := rfl
  have byte : (UInt8.ofNat c.toNat).toNat = c.toNat := by
    rw [UInt8.toNat_ofNat']
    omega
  refine ⟨UInt8.ofNat c.toNat, ?_, ?_, byte⟩
  · simp only [String.utf8EncodeChar, value]
    rw [if_pos (by omega)]
  · rw [digit?, byte, if_pos bounds]

/-- Characters that are digits are written as the digits of the same natural. -/
theorem areDigits_flatMap {digits : List Char} (isDigit : ∀ c ∈ digits, c.isDigit = true) :
    AreDigits (digits.flatMap String.utf8EncodeChar) ∧
      ∀ front, naturalOf (digits.flatMap String.utf8EncodeChar) front =
        Nat.ofDigitChars 10 digits front := by
  induction digits with
  | nil => exact ⟨nofun, fun _ => rfl⟩
  | cons c digits ih =>
      obtain ⟨this, others⟩ := List.forall_mem_cons.mp isDigit
      obtain ⟨areDigits, natural⟩ := ih others
      obtain ⟨byte, bytes, digit, _⟩ := utf8EncodeChar_digit this
      rw [List.flatMap_cons, bytes, List.singleton_append]
      refine ⟨List.forall_mem_cons.mpr ⟨Option.isSome_of_eq_some digit, areDigits⟩, fun front => ?_⟩
      have zero : '0'.toNat = 48 := rfl
      rw [naturalOf_cons digit, natural, Nat.ofDigitChars_cons, zero, Nat.mul_comm]

/-- The first digit of a positive number is not zero. -/
theorem toDigits_head {n : Nat} (positive : 0 < n) :
    ∃ c digits, Nat.toDigits 10 n = c :: digits ∧ c.toNat - 48 ≠ 0 := by
  induction n using Nat.strong_induction_on with
  | h n ih =>
      by_cases short : n < 10
      · refine ⟨n.digitChar, [], Nat.toDigits_of_lt_base short, ?_⟩
        have digits : ∀ n < 10, 0 < n → n.digitChar.toNat - 48 ≠ 0 := by decide
        exact digits n short positive
      · obtain ⟨c, digits, shape, nonzero⟩ := ih (n / 10) (by omega) (by omega)
        refine ⟨c, digits ++ [(n % 10).digitChar], ?_, nonzero⟩
        rw [Nat.toDigits_of_base_le (by decide) (by omega), shape]
        rfl

/-- A natural is written as a whole part, of which it is the value. -/
theorem utf8_toString (n : Nat) :
    IsWhole (Text.utf8 (toString n)) ∧ naturalOf (Text.utf8 (toString n)) 0 = n := by
  have isDigit : ∀ c ∈ Nat.toDigits 10 n, c.isDigit = true := fun c member =>
    Nat.isDigit_of_mem_toDigits (by decide) (by decide) member
  obtain ⟨areDigits, natural⟩ := areDigits_flatMap isDigit
  rw [Nat.toString_eq_ofList_toDigits, Text.utf8_ofList]
  refine ⟨?_, (natural 0).trans Nat.ofDigitChars_ten_toDigits⟩
  rcases Nat.eq_zero_or_pos n with rfl | positive
  · have zero : (Nat.toDigits 10 0).flatMap String.utf8EncodeChar = [0x30] := by decide
    rw [zero]
    exact .zero
  · obtain ⟨c, digits, shape, nonzero⟩ := toDigits_head positive
    obtain ⟨byte, bytes, digit, _⟩ := utf8EncodeChar_digit (isDigit c (shape ▸ List.mem_cons_self))
    rw [shape, List.flatMap_cons, bytes, List.singleton_append] at areDigits ⊢
    refine .digits ?_ areDigits
    rintro rfl
    exact nonzero (Option.some.inj (digit.symm.trans rfl))

/-- The number that is written for a natural. -/
def Numeral.ofNat (n : Nat) : Numeral :=
  ⟨false, Text.utf8 (toString n), [], [], (utf8_toString n).1, .none, .none⟩

@[simp] theorem Numeral.spelling_ofNat (n : Nat) :
    (ofNat n).spelling = Text.utf8 (toString n) := by
  simp [spelling, ofNat]

theorem Numeral.natural?_ofNat {n : Nat} (fits : n ≤ significandLimit) :
    (ofNat n).natural? = some n := by
  have value := (utf8_toString n).2
  have within : naturalOf (Text.utf8 (toString n)) 0 ≤ significandLimit := value.symm ▸ fits
  rw [natural?, ofNat, if_pos ⟨rfl, rfl, rfl, within⟩, value]

end Polyglot.Json
