import Mathlib.Data.List.TakeWhile
import Polyglot.Text.Utf8

/-!
# Text that is written is read back

The bytes of a character are one piece, whatever comes behind them
(`pieces_char_append`). A leading byte asks for as many continuation bytes as there are, and
the bounds on the first of them keep out the overlong forms and the surrogates, which no
character has. So the bytes of a text are cut into its characters (`pieces_utf8_append`), and
both readers give the text back (`lossy_utf8`, `strict?_utf8`).
-/

set_option autoImplicit false

namespace Polyglot.Text

/-! ## One character -/

section Decoding

variable {first count least greatest code bits used n : Nat} {rest : Bytes}

/-- A continuation byte that fits contributes its bits. -/
theorem gather_cons (room : bits < 64) (low : least ≤ bits + 128) (high : bits + 128 ≤ greatest) :
    gather (count + 1) least greatest code (UInt8.ofNat (bits + 128) :: rest) =
      ((gather count 0x80 0xBF (code * 64 + bits) rest).1 + 1,
        (gather count 0x80 0xBF (code * 64 + bits) rest).2) := by
  have byte : (UInt8.ofNat (bits + 128)).toNat = bits + 128 := by
    rw [UInt8.toNat_ofNat']
    omega
  rw [gather, byte, if_pos ⟨low, high⟩, Nat.add_sub_cancel]

/-- A leading byte and the continuation bytes that it asks for are a character. -/
theorem pieceAt_of_lead (room : first < 256) (wide : 0x80 ≤ first)
    (leads : Lead.of? first = some ⟨count, least, greatest, bits⟩)
    (whole : gather count least greatest bits rest = (used, some code)) :
    pieceAt (UInt8.ofNat first) rest = (.char (Char.ofNat code), used) := by
  have byte : (UInt8.ofNat first).toNat = first := by
    rw [UInt8.toNat_ofNat']
    omega
  rw [pieceAt, byte, if_neg (by omega), leads]
  simp only [whole]

/-- A byte below 128 is a character. -/
theorem pieceAt_one (below : n < 0x80) (more : Bytes) :
    pieceAt (UInt8.ofNat n) more = (.char (Char.ofNat n), 0) := by
  have byte : (UInt8.ofNat n).toNat = n := by
    rw [UInt8.toNat_ofNat']
    omega
  rw [pieceAt, byte, if_pos below]

/-- Two bytes hold eleven bits. -/
theorem pieceAt_two (least : 0x80 ≤ n) (greatest : n < 0x800) (more : Bytes) :
    pieceAt (UInt8.ofNat (n / 64 % 32 + 192)) (UInt8.ofNat (n % 64 + 128) :: more) =
      (.char (Char.ofNat n), 1) := by
  have leads : Lead.of? (n / 64 % 32 + 192) = some ⟨1, 0x80, 0xBF, n / 64⟩ := by
    rw [Lead.of?, if_neg (by omega), if_pos (by omega)]
    simp only [Option.some.injEq, Lead.mk.injEq, true_and]
    omega
  refine pieceAt_of_lead (by omega) (by omega) leads ?_
  rw [gather_cons (by omega) (by omega) (by omega), gather, Nat.div_add_mod']

/-- Three bytes hold sixteen bits, of which the surrogates are left out. -/
theorem pieceAt_three (least : 0x800 ≤ n) (greatest : n < 0x10000)
    (scalar : n < 0xD800 ∨ 0xDFFF < n) (more : Bytes) :
    pieceAt (UInt8.ofNat (n / 4096 % 16 + 224))
        (UInt8.ofNat (n / 64 % 64 + 128) :: UInt8.ofNat (n % 64 + 128) :: more) =
      (.char (Char.ofNat n), 2) := by
  have whole {low high : Nat} (above : low ≤ n / 64 % 64 + 128) (below : n / 64 % 64 + 128 ≤ high) :
      gather 2 low high (n / 4096)
        (UInt8.ofNat (n / 64 % 64 + 128) :: UInt8.ofNat (n % 64 + 128) :: more) =
      (2, some n) := by
    rw [gather_cons (by omega) above below, gather_cons (by omega) (by omega) (by omega), gather]
    simp only [Prod.mk.injEq, Option.some.injEq, true_and]
    omega
  -- The two outermost leading bytes bound the byte after them more tightly.
  by_cases low : n / 4096 = 0
  · refine pieceAt_of_lead (by omega) (by omega) ?_ (@whole 0xA0 0xBF (by omega) (by omega))
    rw [low]
    rfl
  · by_cases high : n / 4096 = 13
    · refine pieceAt_of_lead (by omega) (by omega) ?_ (@whole 0x80 0x9F (by omega) (by omega))
      rw [high]
      rfl
    · refine pieceAt_of_lead (by omega) (by omega) ?_ (@whole 0x80 0xBF (by omega) (by omega))
      rw [Lead.of?, if_neg (by omega), if_neg (by omega), if_neg (by omega), if_neg (by omega),
        if_pos (by omega)]
      simp only [Option.some.injEq, Lead.mk.injEq, true_and]
      omega

/-- Four bytes hold the code points beyond. -/
theorem pieceAt_four (least : 0x10000 ≤ n) (greatest : n < 0x110000) (more : Bytes) :
    pieceAt (UInt8.ofNat (n / 262144 % 8 + 240))
        (UInt8.ofNat (n / 4096 % 64 + 128) :: UInt8.ofNat (n / 64 % 64 + 128) ::
          UInt8.ofNat (n % 64 + 128) :: more) =
      (.char (Char.ofNat n), 3) := by
  have whole {low high : Nat} (above : low ≤ n / 4096 % 64 + 128) (below : n / 4096 % 64 + 128 ≤ high) :
      gather 3 low high (n / 262144)
        (UInt8.ofNat (n / 4096 % 64 + 128) :: UInt8.ofNat (n / 64 % 64 + 128) ::
          UInt8.ofNat (n % 64 + 128) :: more) =
      (3, some n) := by
    rw [gather_cons (by omega) above below, gather_cons (by omega) (by omega) (by omega),
      gather_cons (by omega) (by omega) (by omega), gather]
    simp only [Prod.mk.injEq, Option.some.injEq, true_and]
    omega
  by_cases low : n / 262144 = 0
  · refine pieceAt_of_lead (by omega) (by omega) ?_ (@whole 0x90 0xBF (by omega) (by omega))
    rw [low]
    rfl
  · by_cases high : n / 262144 = 4
    · refine pieceAt_of_lead (by omega) (by omega) ?_ (@whole 0x80 0x8F (by omega) (by omega))
      rw [high]
      rfl
    · refine pieceAt_of_lead (by omega) (by omega) ?_ (@whole 0x80 0xBF (by omega) (by omega))
      rw [Lead.of?, if_neg (by omega), if_neg (by omega), if_neg (by omega), if_neg (by omega),
        if_neg (by omega), if_neg (by omega), if_pos (by omega)]
      simp only [Option.some.injEq, Lead.mk.injEq, true_and]
      omega

end Decoding

/-- The bytes of a character are one piece. -/
theorem pieceAt_char (c : Char) : ∃ first tail, String.utf8EncodeChar c = first :: tail ∧
    ∀ more, pieceAt first (tail ++ more) = (.char c, tail.length) := by
  have valid : c.toNat < 0xD800 ∨ 0xDFFF < c.toNat ∧ c.toNat < 0x110000 := c.valid
  have same : Char.ofNat c.toNat = c := Char.ofNat_toNat c
  have value : c.val.toNat = c.toNat := rfl
  simp only [String.utf8EncodeChar, value]
  split
  · refine ⟨_, _, rfl, fun more => ?_⟩
    exact (pieceAt_one (by omega) more).trans (by rw [same]; rfl)
  · split
    · refine ⟨_, _, rfl, fun more => ?_⟩
      exact (pieceAt_two (by omega) (by omega) more).trans (by rw [same]; rfl)
    · split
      · refine ⟨_, _, rfl, fun more => ?_⟩
        exact (pieceAt_three (by omega) (by omega) (by omega) more).trans (by rw [same]; rfl)
      · refine ⟨_, _, rfl, fun more => ?_⟩
        exact (pieceAt_four (by omega) (by omega) more).trans (by rw [same]; rfl)

theorem pieces_char_append (c : Char) (more : Bytes) :
    pieces (String.utf8EncodeChar c ++ more) =
      (.char c, (String.utf8EncodeChar c).length) :: pieces more := by
  obtain ⟨first, tail, shape, cut⟩ := pieceAt_char c
  rw [shape, List.cons_append, pieces, cut more]
  simp only [List.drop_left, List.length_cons]

/-! ## Texts -/

@[simp] theorem utf8_ofList (chars : List Char) :
    utf8 (String.ofList chars) = chars.flatMap String.utf8EncodeChar := by
  rw [utf8, String.toList_ofList]

@[simp] theorem utf8_empty : utf8 "" = [] := rfl

@[simp] theorem utf8_append (first second : String) :
    utf8 (first ++ second) = utf8 first ++ utf8 second := by
  simp [utf8]

/-- The bytes of a text are cut into its characters. -/
theorem pieces_utf8_append (text : String) (more : Bytes) :
    pieces (utf8 text ++ more) =
      (text.toList.map fun c => (.char c, (String.utf8EncodeChar c).length)) ++ pieces more := by
  rw [utf8]
  induction text.toList with
  | nil => rfl
  | cons c chars ih =>
      rw [List.flatMap_cons, List.append_assoc, pieces_char_append, ih]
      rfl

theorem pieces_utf8 (text : String) :
    pieces (utf8 text) =
      text.toList.map fun c => (.char c, (String.utf8EncodeChar c).length) := by
  have whole := pieces_utf8_append text []
  rwa [List.append_nil, pieces, List.append_nil] at whole

/-- A lenient reader gives a text back. -/
@[simp] theorem lossy_utf8 (text : String) : lossy (utf8 text) = text := by
  rw [lossy, pieces_utf8, List.map_map]
  exact (congrArg String.ofList (List.map_id _)).trans (String.ofList_toList)

/-- The bytes of a text have no broken piece. -/
theorem brokenAt?_utf8 (text : String) : brokenAt? (utf8 text) = none := by
  have sound : ∀ piece ∈ pieces (utf8 text), (piece.1 != .broken) = true := by
    rw [pieces_utf8, List.forall_mem_map]
    exact fun c _ => rfl
  simp only [brokenAt?, List.takeWhile_eq_self_iff.mpr sound, if_true]

/-- A strict reader gives a text back. -/
theorem strict?_utf8 (text : String) : strict? (utf8 text) = some text := by
  have sound : ((pieces (utf8 text)).all fun piece => piece.1 != .broken) = true := by
    rw [pieces_utf8, List.all_map, List.all_eq_true]
    exact fun c _ => rfl
  simp only [strict?, sound, if_true]
  exact congrArg some (lossy_utf8 text)

end Polyglot.Text
