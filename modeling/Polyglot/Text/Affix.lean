/-!
# Beginnings and placeholders

A text may begin with another, and what stands behind the beginning is then the rest.
A placeholder is replaced from left to right: an occurrence that is found is replaced,
and the search goes on behind it.
-/

set_option autoImplicit false

namespace Polyglot.Text

/-- What stands behind a beginning, if the characters begin that way. -/
def behind? : List Char → List Char → Option (List Char)
  | [], chars => some chars
  | _ :: _, [] => none
  | expected :: beginning, c :: chars =>
    if c = expected then behind? beginning chars else none

/-- Characters begin in a way exactly if they are the beginning and the rest. -/
theorem behind?_eq_some_iff {beginning chars rest : List Char} :
    behind? beginning chars = some rest ↔ chars = beginning ++ rest := by
  induction beginning generalizing chars with
  | nil => simp [behind?, eq_comm]
  | cons expected beginning ih =>
    cases chars with
    | nil => simp [behind?]
    | cons c chars =>
      by_cases same : c = expected
      · simp [behind?, same, ih]
      · simp [behind?, same]

/--
The characters with every occurrence of a placeholder replaced, from left to right.
The count bounds the number of characters.
-/
def substituteWithin (placeholder replacement : List Char) : Nat → List Char → List Char
  | 0, chars => chars
  | _ + 1, [] => []
  | count + 1, c :: chars =>
    match placeholder, behind? placeholder (c :: chars) with
    | _ :: _, some rest => replacement ++ substituteWithin placeholder replacement count rest
    | _, _ => c :: substituteWithin placeholder replacement count chars

/-- The text with every occurrence of a placeholder replaced. -/
def substitute (placeholder replacement text : String) : String :=
  String.ofList
    (substituteWithin placeholder.toList replacement.toList text.toList.length text.toList)

end Polyglot.Text
