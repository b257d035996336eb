/-!
# Blank characters

The characters with the white-space property, and the trimming of a text by them.
The set is larger than the ASCII blanks: the no-break space, the spaces of
typesetting, the line and paragraph separators and the ideographic space belong to it.

The main statements are that every blank of the core library is blank here, that a
trimmed text has no blank at the end that was trimmed, and that trimming a second time
changes nothing.
-/

set_option autoImplicit false

namespace Polyglot.Text

/-- Whether a character has the white-space property. -/
def isBlank (c : Char) : Bool :=
  let n := c.toNat
  (9 ≤ n && n ≤ 13) || n == 0x20 || n == 0x85 || n == 0xA0 || n == 0x1680 ||
    (0x2000 ≤ n && n ≤ 0x200A) || n == 0x2028 || n == 0x2029 || n == 0x202F ||
    n == 0x205F || n == 0x3000

/-- The list without its longest run of members at the front that satisfy the test. -/
def dropFront (test : Char → Bool) (chars : List Char) : List Char :=
  chars.dropWhile test

/-- The list without its longest run of members at the back that satisfy the test. -/
def dropBack (test : Char → Bool) (chars : List Char) : List Char :=
  (chars.reverse.dropWhile test).reverse

/-- The text without blanks at its end. -/
def trimEnd (text : String) : String :=
  String.ofList (dropBack isBlank text.toList)

/-- The text without blanks at either end. -/
def trim (text : String) : String :=
  String.ofList (dropBack isBlank (dropFront isBlank text.toList))

/-- The text without slashes at its end. -/
def trimEndSlashes (text : String) : String :=
  String.ofList (dropBack (· == '/') text.toList)

/-- The text with the letters A to Z in lower case, and every other character as it was. -/
def lowerAscii (text : String) : String :=
  text.map Char.toLower

/-- Every blank of the core library is blank here. -/
theorem isBlank_of_isWhitespace {c : Char} (isCoreBlank : c.isWhitespace = true) :
    isBlank c = true := by
  simp only [Char.isWhitespace, Bool.or_eq_true, decide_eq_true_eq] at isCoreBlank
  rcases isCoreBlank with ((rfl | rfl) | rfl) | rfl <;> decide

/-- What is left after trimming at the back does not end in a trimmed character. -/
theorem dropBack_getLast? (test : Char → Bool) (chars : List Char) (last : Char)
    (isLast : (dropBack test chars).getLast? = some last) : test last = false := by
  simp only [dropBack, List.getLast?_reverse] at isLast
  exact Bool.eq_false_iff.mpr fun holds => by
    have := List.head?_dropWhile_not test chars.reverse
    simp [isLast, holds] at this

/-- Trimming at the back a second time changes nothing. -/
theorem dropBack_dropBack (test : Char → Bool) (chars : List Char) :
    dropBack test (dropBack test chars) = dropBack test chars := by
  cases rest : chars.reverse.dropWhile test with
  | nil => simp [dropBack, rest]
  | cons first others =>
    have kept : test first = false := by
      have := List.head?_dropWhile_not test chars.reverse
      simpa [rest] using this
    simp [dropBack, rest, kept]

/-- Nothing is trimmed at the back exactly when the last character, if there is one, stays. -/
theorem dropBack_eq_self_iff {test : Char → Bool} {chars : List Char} :
    dropBack test chars = chars ↔ ∀ last, chars.getLast? = some last → test last = false := by
  constructor
  · intro kept last isLast
    exact dropBack_getLast? test chars last (kept.symm ▸ isLast)
  · intro stays
    rw [dropBack]
    cases reversed : chars.reverse with
    | nil => rw [List.dropWhile_nil, ← reversed, List.reverse_reverse]
    | cons last others =>
      have isLast : chars.getLast? = some last := by
        rw [List.getLast?_eq_head?_reverse, reversed, List.head?_cons]
      rw [List.dropWhile_cons_of_neg (by simp [stays last isLast]), ← reversed,
        List.reverse_reverse]

/-- Trimming at the back keeps a beginning. -/
theorem dropBack_prefix (test : Char → Bool) (chars : List Char) :
    dropBack test chars <+: chars := by
  have ends : chars.reverse.dropWhile test <:+ chars.reverse := List.dropWhile_suffix test
  simpa [dropBack] using List.reverse_prefix.mpr ends

/-- Trimming at the front after trimming at both ends changes nothing. -/
theorem dropFront_dropBack (test : Char → Bool) (chars : List Char) :
    dropFront test (dropBack test (dropFront test chars)) =
      dropBack test (dropFront test chars) := by
  have begins := dropBack_prefix test (dropFront test chars)
  cases trimmed : dropBack test (dropFront test chars) with
  | nil => rfl
  | cons first others =>
    obtain ⟨rest, whole⟩ := trimmed ▸ begins
    have kept : test first = false := by
      have := List.head?_dropWhile_not test chars
      rw [← dropFront, ← whole] at this
      simpa using this
    simp [dropFront, kept]

/-- Trimming a second time changes nothing. -/
theorem trim_trim (text : String) : trim (trim text) = trim text := by
  simp only [trim, String.toList_ofList, dropFront_dropBack, dropBack_dropBack]

end Polyglot.Text
