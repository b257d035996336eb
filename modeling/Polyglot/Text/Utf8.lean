/-!
# Bytes and text

Text leaves the program as UTF-8 and arrives as bytes that may be anything. Reading
cuts the bytes into pieces: a piece is either a character or a longest run of bytes
that begins a character without completing one. A strict reader refuses a text with
a piece of the second kind, a lenient one writes the replacement character for it.

The main statements are that every piece takes at least one byte, so the cut
terminates, and that the bytes of a text written here are cut into its characters.
-/

set_option autoImplicit false

namespace Polyglot.Text

/-- A finite run of bytes. -/
abbrev Bytes := List UInt8

/-- The bytes of a text. -/
def utf8 (text : String) : Bytes :=
  text.toList.flatMap String.utf8EncodeChar

/-- What stands at the front of some bytes. -/
inductive Piece where
  /-- A complete character. -/
  | char (c : Char)
  /-- Bytes that begin no character, or begin one and break off. -/
  | broken
  deriving DecidableEq, Repr

/--
What a leading byte asks of the bytes after it: how many there are, the bounds of
the first of them, and the bits that the leading byte itself contributes.
-/
structure Lead where
  /-- The number of continuation bytes. -/
  count : Nat
  /-- The least admissible first continuation byte. -/
  least : Nat
  /-- The greatest admissible first continuation byte. -/
  greatest : Nat
  /-- The leading bits of the code point. -/
  bits : Nat
  deriving DecidableEq, Repr

/-- The demands of a leading byte, for the bytes that can begin a character of several bytes. -/
def Lead.of? (byte : Nat) : Option Lead :=
  if byte < 0xC2 then none
  else if byte ≤ 0xDF then some ⟨1, 0x80, 0xBF, byte - 0xC0⟩
  else if byte = 0xE0 then some ⟨2, 0xA0, 0xBF, 0⟩
  else if byte = 0xED then some ⟨2, 0x80, 0x9F, 0xD⟩
  else if byte ≤ 0xEF then some ⟨2, 0x80, 0xBF, byte - 0xE0⟩
  else if byte = 0xF0 then some ⟨3, 0x90, 0xBF, 0⟩
  else if byte ≤ 0xF3 then some ⟨3, 0x80, 0xBF, byte - 0xF0⟩
  else if byte = 0xF4 then some ⟨3, 0x80, 0x8F, 4⟩
  else none

/--
Collects the continuation bytes of a character. The answer holds the number of
bytes that fit and, if all were there, the code point.
-/
def gather : Nat → Nat → Nat → Nat → Bytes → Nat × Option Nat
  | 0, _, _, code, _ => (0, some code)
  | _ + 1, _, _, _, [] => (0, none)
  | count + 1, least, greatest, code, byte :: rest =>
    if least ≤ byte.toNat ∧ byte.toNat ≤ greatest then
      let (used, found) := gather count 0x80 0xBF (code * 64 + (byte.toNat - 0x80)) rest
      (used + 1, found)
    else (0, none)

/-- The piece that a byte begins, and the number of bytes after it that belong to the piece. -/
def pieceAt (byte : UInt8) (rest : Bytes) : Piece × Nat :=
  if byte.toNat < 0x80 then (.char (Char.ofNat byte.toNat), 0)
  else match Lead.of? byte.toNat with
    | none => (.broken, 0)
    | some lead =>
      match gather lead.count lead.least lead.greatest lead.bits rest with
      | (used, some code) => (.char (Char.ofNat code), used)
      | (used, none) => (.broken, used)

/-- The pieces of some bytes, each with the number of bytes it takes. -/
def pieces : Bytes → List (Piece × Nat)
  | [] => []
  | byte :: rest =>
    let (piece, used) := pieceAt byte rest
    (piece, used + 1) :: pieces (rest.drop used)
  termination_by bytes => bytes.length
  decreasing_by simp only [List.length_drop, List.length_cons]; omega

/-- The character that a lenient reader writes for a piece. -/
def Piece.lenient : Piece → Char
  | .char c => c
  | .broken => Char.ofNat 0xFFFD

/-- The text of some bytes, with the replacement character for each broken piece. -/
def lossy (bytes : Bytes) : String :=
  String.ofList ((pieces bytes).map fun piece => piece.1.lenient)

/-- The text of some bytes, if no piece is broken. -/
def strict? (bytes : Bytes) : Option String :=
  let cut := pieces bytes
  if cut.all fun piece => piece.1 != .broken then
    some (String.ofList (cut.map fun piece => piece.1.lenient))
  else none

/-- The number of bytes before the first broken piece, if there is one. -/
def brokenAt? (bytes : Bytes) : Option Nat :=
  let cut := pieces bytes
  let sound := cut.takeWhile fun piece => piece.1 != .broken
  if sound.length = cut.length then none
  else some ((sound.map (·.2)).foldl (· + ·) 0)

end Polyglot.Text
