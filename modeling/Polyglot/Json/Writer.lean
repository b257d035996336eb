import Polyglot.Data

/-!
# Writing JSON texts

Texts are written with the escapes that JSON demands and no others: the quote, the
backslash and the control characters below the space. Five controls have letters of
their own, the rest are written as four hexadecimal digits. Nothing is written between
the parts of a value, and members stand in the order in which they are given.

The main statement is that a written text contains no line break, whatever the text.
-/

set_option autoImplicit false

namespace Polyglot.Json

/-- How a character is written inside a JSON string. -/
def escapedChar (c : Char) : List Char :=
  if c = '"' then ['\\', '"']
  else if c = '\\' then ['\\', '\\']
  else if c.toNat = 8 then ['\\', 'b']
  else if c.toNat = 12 then ['\\', 'f']
  else if c = '\n' then ['\\', 'n']
  else if c = '\r' then ['\\', 'r']
  else if c = '\t' then ['\\', 't']
  else if c.toNat < 32 then
    ['\\', 'u', '0', '0', Text.hexDigit (c.toNat / 16), Text.hexDigit (c.toNat % 16)]
  else [c]

/-- The characters of a JSON string with the given value. -/
def stringChars (text : String) : List Char :=
  '"' :: text.toList.flatMap escapedChar ++ ['"']

/-- The JSON string with the given value. -/
def string (text : String) : String :=
  String.ofList (stringChars text)

/-- The JSON object with the given members, whose values are already written. -/
def object (members : List (String × String)) : String :=
  "\x7b" ++ ",".intercalate (members.map fun entry => string entry.1 ++ ":" ++ entry.2) ++ "\x7d"

/-- The JSON array with the given elements, which are already written. -/
def array (items : List String) : String :=
  "[" ++ ",".intercalate items ++ "]"

mutual

/-- The JSON text of a structured value. -/
def render : Data → String
  | .null => "null"
  | .boolean true => "true"
  | .boolean false => "false"
  | .integer value => toString value
  | .float negative magnitude => Decimal.floatText negative magnitude
  | .unbounded spelling => string spelling
  | .moment spelling => string spelling
  | .text value => string value
  | .list items => array (renderItems items)
  | .table members => object (renderMembers members)

/-- The JSON texts of the elements of a sequence. -/
def renderItems : List Data → List String
  | [] => []
  | item :: items => render item :: renderItems items

/-- The members of a table with their values written. -/
def renderMembers : List (String × Data) → List (String × String)
  | [] => []
  | (name, value) :: members => (name, render value) :: renderMembers members

end

/-- No character is written with a line break. -/
theorem newline_not_mem_escapedChar (c : Char) : '\n' ∉ escapedChar c := by
  unfold escapedChar
  repeat' split
  all_goals try decide
  · have digit_ne (n : Nat) (isDigit : n < 16) : '\n' ≠ Text.hexDigit n := by
      revert n; decide
    rename_i below
    simp only [List.mem_cons, List.not_mem_nil, or_false, not_or]
    refine ⟨by decide, by decide, by decide, by decide, ?_, ?_⟩
    · exact digit_ne _ (by omega)
    · exact digit_ne _ (Nat.mod_lt _ (by decide))
  · rename_i notNewline _ _ _
    simpa using fun same => notNewline same.symm

/-- No text is written with a line break. -/
theorem newline_not_mem_stringChars (text : String) : '\n' ∉ stringChars text := by
  simp only [stringChars, List.cons_append, List.mem_cons, List.mem_append, List.mem_flatMap,
    List.not_mem_nil, or_false, not_or, not_exists, not_and]
  exact ⟨by decide, fun c _ => newline_not_mem_escapedChar c, by decide⟩

end Polyglot.Json
