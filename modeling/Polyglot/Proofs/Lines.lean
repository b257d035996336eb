import Polyglot.Json.Writer
import Polyglot.Worker

/-!
# The lines of a stream

A stream of bytes is cut into lines at its line breaks. What follows the last line
break is no line, however complete it looks.

The first complete line is what a channel takes (`takeLine?_eq_some_iff`), and taking
it leaves the other lines as they are (`linesOf_line_append`). A list of lines without
line breaks is read back from the stream that it is written as
(`linesOf_terminated_append`). The line that a request is written as is such a line
(`Request.newline_not_mem_render`), so nothing that a request holds can end its line.
-/

set_option autoImplicit false

namespace Polyglot

open Polyglot.Text (Bytes)

/-! ## Cutting and joining -/

/-- The complete lines of some bytes, without their line breaks. -/
def linesOf (bytes : Bytes) : List Bytes :=
  (bytes.splitOn 10).dropLast

/-- The bytes of some lines, each with its line break. -/
def terminated (lines : List Bytes) : Bytes :=
  lines.flatMap fun line => line ++ [10]

@[simp] theorem terminated_nil : terminated [] = [] := rfl

@[simp] theorem terminated_concat (lines : List Bytes) (line : Bytes) :
    terminated (lines ++ [line]) = terminated lines ++ (line ++ [10]) := by
  simp [terminated]

/-- Bytes without a line break hold no complete line. -/
theorem linesOf_eq_nil {bytes : Bytes} (unbroken : 10 ∉ bytes) : linesOf bytes = [] := by
  rw [linesOf, List.splitOn_eq_singleton unbroken]
  rfl

/-- The first line ends at the first line break. -/
theorem linesOf_line_append {line : Bytes} (unbroken : 10 ∉ line) (rest : Bytes) :
    linesOf (line ++ 10 :: rest) = line :: linesOf rest := by
  rw [linesOf, List.splitOn_append_cons_self_of_not_mem unbroken,
    List.dropLast_cons_of_ne_nil (List.splitOn_ne_nil 10 rest)]
  rfl

/-- Lines that are written one behind the other are read back. -/
theorem linesOf_terminated_append {lines : List Bytes} (unbroken : ∀ line ∈ lines, 10 ∉ line)
    (rest : Bytes) : linesOf (terminated lines ++ rest) = lines ++ linesOf rest := by
  induction lines with
  | nil => rfl
  | cons line lines ih =>
      have here := unbroken line List.mem_cons_self
      have there := ih fun other member => unbroken other (List.mem_cons_of_mem _ member)
      have shape : terminated (line :: lines) ++ rest =
          line ++ 10 :: (terminated lines ++ rest) := by
        simp [terminated]
      rw [shape, linesOf_line_append here, there]
      rfl

/-- Lines that are written one behind the other are the lines of what was written. -/
theorem linesOf_terminated {lines : List Bytes} (unbroken : ∀ line ∈ lines, 10 ∉ line) :
    linesOf (terminated lines) = lines := by
  have whole := linesOf_terminated_append unbroken []
  rwa [List.append_nil, linesOf_eq_nil List.not_mem_nil, List.append_nil] at whole

/-! ## The first line of what has arrived -/

@[simp] theorem takeLine?_nil : takeLine? [] = none := rfl

/-- A line ends at a line break, and any other byte belongs to the line that follows it. -/
theorem takeLine?_cons (byte : UInt8) (bytes : Bytes) :
    takeLine? (byte :: bytes) =
      if byte = 10 then some ([], bytes)
      else (takeLine? bytes).map fun taken => (byte :: taken.1, taken.2) := by
  by_cases stops : byte = 10
  · subst stops
    simp [takeLine?]
  · simp only [takeLine?, stops, if_false, bne_iff_ne, ne_eq, not_false_eq_true,
      List.takeWhile_cons_of_pos, List.length_cons, List.drop_succ_cons]
    split <;> rfl

/-- Taking a line takes the bytes before the first line break and keeps those behind it. -/
theorem takeLine?_eq_some_iff {bytes line rest : Bytes} :
    takeLine? bytes = some (line, rest) ↔ 10 ∉ line ∧ bytes = line ++ 10 :: rest := by
  induction bytes generalizing line with
  | nil => simp
  | cons byte bytes ih =>
      rw [takeLine?_cons]
      by_cases stops : byte = 10
      · subst stops
        cases line with
        | nil => simp
        | cons first line =>
            simp only [if_true, Option.some.injEq, Prod.mk.injEq, List.nil_eq, reduceCtorEq,
              false_and, false_iff, not_and, List.cons_append, List.cons.injEq]
            rintro unbroken rfl
            exact absurd List.mem_cons_self unbroken
      · cases line with
        | nil => simp [stops]
        | cons first line =>
            simp only [if_neg stops, Option.map_eq_some_iff, Prod.mk.injEq, Prod.exists,
              List.cons.injEq, List.mem_cons, not_or, List.cons_append]
            constructor
            · rintro ⟨taken, behind, found, ⟨rfl, rfl⟩, rfl⟩
              obtain ⟨unbroken, rfl⟩ := ih.mp found
              exact ⟨⟨fun same => stops same.symm, unbroken⟩, rfl, rfl⟩
            · rintro ⟨⟨_, unbroken⟩, rfl, rfl⟩
              exact ⟨line, rest, ih.mpr ⟨unbroken, rfl⟩, ⟨rfl, rfl⟩, rfl⟩

/-- No line can be taken exactly when there is no line break. -/
theorem takeLine?_eq_none_iff {bytes : Bytes} : takeLine? bytes = none ↔ 10 ∉ bytes := by
  induction bytes with
  | nil => simp
  | cons byte bytes ih =>
      rw [takeLine?_cons]
      by_cases stops : byte = 10
      · simp [stops]
      · simp [stops, ih, Ne.symm stops]

/-! ## Requests -/

/-- Only the line break itself is written with the byte of a line break. -/
theorem newline_not_mem_utf8EncodeChar {c : Char} (other : c ≠ '\n') :
    10 ∉ String.utf8EncodeChar c := by
  have differs : c.val.toNat ≠ 10 := fun same => other (Char.ext (UInt32.toNat_inj.mp same))
  have byte_ne {n : Nat} (low : n < 256) (ne : n ≠ 10) : (10 : UInt8) ≠ UInt8.ofNat n := by
    intro same
    have := congrArg UInt8.toNat same
    simp only [UInt8.reduceToNat, UInt8.toNat_ofNat'] at this
    omega
  simp only [String.utf8EncodeChar]
  repeat' split
  all_goals simp only [List.mem_cons, List.not_mem_nil, or_false, not_or]
  · exact byte_ne (by omega) differs
  · exact ⟨byte_ne (by omega) (by omega), byte_ne (by omega) (by omega)⟩
  · exact ⟨byte_ne (by omega) (by omega), byte_ne (by omega) (by omega),
      byte_ne (by omega) (by omega)⟩
  · exact ⟨byte_ne (by omega) (by omega), byte_ne (by omega) (by omega),
      byte_ne (by omega) (by omega), byte_ne (by omega) (by omega)⟩

/-- A text without line breaks is written without the byte of a line break. -/
theorem newline_not_mem_utf8 {text : String} (plain : '\n' ∉ text.toList) :
    10 ∉ Text.utf8 text := by
  simp only [Text.utf8, List.mem_flatMap, not_exists, not_and]
  intro c member
  exact newline_not_mem_utf8EncodeChar fun same => plain (same ▸ member)

/-- An object whose values are written without line breaks is written without them. -/
theorem Json.newline_not_mem_object {members : List (String × String)}
    (plain : ∀ entry ∈ members, '\n' ∉ entry.2.toList) : '\n' ∉ (Json.object members).toList := by
  have entries : ∀ text ∈ members.map fun entry => Json.string entry.1 ++ ":" ++ entry.2,
      '\n' ∉ text.toList := by
    intro text member
    obtain ⟨entry, found, rfl⟩ := List.mem_map.mp member
    simp only [String.toList_append, List.mem_append, not_or]
    refine ⟨⟨?_, by decide⟩, plain entry found⟩
    rw [Json.string, String.toList_ofList]
    exact newline_not_mem_stringChars entry.1
  have joined : ∀ texts : List String, (∀ text ∈ texts, '\n' ∉ text.toList) →
      '\n' ∉ (",".intercalate texts).toList := by
    intro texts
    induction texts with
    | nil => simp
    | cons text texts ih =>
        intro each
        have here := each text List.mem_cons_self
        cases texts with
        | nil => simpa using here
        | cons next texts =>
            rw [String.intercalate_cons_cons]
            simp only [String.toList_append, List.mem_append, not_or]
            exact ⟨⟨here, by decide⟩, ih fun other member => each other (List.mem_cons_of_mem _ member)⟩
  simp only [Json.object, String.toList_append, List.mem_append, not_or]
  exact ⟨⟨by decide, joined _ entries⟩, by decide⟩

/-- A request is written without line breaks, whatever its texts hold. -/
theorem Request.newline_not_mem_render (request : Request) :
    10 ∉ Text.utf8 request.render := by
  refine newline_not_mem_utf8 (Json.newline_not_mem_object ?_)
  have written (text : String) : '\n' ∉ (Json.string text).toList := by
    rw [Json.string, String.toList_ofList]
    exact Json.newline_not_mem_stringChars text
  simp [written]

end Polyglot
