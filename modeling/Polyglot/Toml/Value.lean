import Polyglot.Toml.Item
import Polyglot.Toml.Lexeme

/-!
# Values in a TOML text

A value is a string, a truth value, a number, a date or time, an array or an inline
table. An array may stretch over several lines and may end in a comma; an inline table
may do neither. Arrays and inline tables are nested to a bounded depth.
-/

set_option autoImplicit false

namespace Polyglot.Toml

/-- Reads the elements of an array and its closing bracket, with the given reader. -/
def readElements (reader : List Char → Option (Data × List Char)) :
    Nat → List Data → List Char → Option (List Data × List Char)
  | 0, _, _ => none
  | count + 1, reversed, chars => do
    match ← skipLines chars.length chars with
    | ']' :: rest => some (reversed.reverse, rest)
    | chars =>
      let (item, rest) ← reader chars
      match ← skipLines rest.length rest with
      | ',' :: rest => readElements reader count (item :: reversed) rest
      | ']' :: rest => some ((item :: reversed).reverse, rest)
      | _ => none

/-- Reads a key, an equals sign and a value with the given reader, and the blanks around them. -/
def readAssignment (reader : List Char → Option (Data × List Char)) (chars : List Char) :
    Option ((List String × String × Data) × List Char) := do
  let ((path, name), rest) ← readKey chars
  let (data, rest) ← reader (skipBlanks (← expect '=' rest))
  some ((path, name, data), skipBlanks rest)

/-- Reads the members of an inline table and its closing brace, with the given reader. -/
def readInline (reader : List Char → Option (Data × List Char)) :
    Nat → Item → List Char → Option (Item × List Char)
  | 0, _, _ => none
  | count + 1, table, chars => do
    let ((path, name, data), rest) ← readAssignment reader chars
    let table ← table.assign path name data
    match rest with
    | ',' :: rest => readInline reader count table rest
    | '\x7d' :: rest => some (table, rest)
    | _ => none

/-- An inline table without members. -/
def emptyInline : Item := .table false false []

/-- Reads a literal word. -/
def readWord (word : String) (data : Data) (chars : List Char) : Option (Data × List Char) :=
  let letters := word.toList
  if chars.take letters.length = letters then some (data, chars.drop letters.length) else none

/-- Reads a value whose arrays and inline tables are nested less deeply than the given limit. -/
def readValue : Nat → List Char → Option (Data × List Char)
  | 0, _ => none
  | _ + 1, [] => none
  | depth + 1, c :: rest =>
    if c = '"' ∨ c = apostrophe then
      (readString (c :: rest)).map fun found => (.text found.1, found.2)
    else if c = '[' then
      if depth = 0 then none
      else (readElements (readValue depth) (rest.length + 1) [] rest).map fun found =>
        (.list found.1, found.2)
    else if c = '\x7b' then
      if depth = 0 then none
      else match skipBlanks rest with
        | '\x7d' :: rest => some (.table [], rest)
        | rest =>
          (readInline (readValue depth) (rest.length + 1) emptyInline rest).map fun found =>
            (found.1.toData, found.2)
    else if c = 't' then readWord "true" (.boolean true) (c :: rest)
    else if c = 'f' then readWord "false" (.boolean false) (c :: rest)
    else readNumber (c :: rest)

end Polyglot.Toml
