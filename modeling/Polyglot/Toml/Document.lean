import Polyglot.Toml.Value

/-!
# TOML texts

A text is a sequence of lines. A line assigns a value to a key of the table that is
open, opens a table by its header, or opens the next table of an array of tables. The
table that is open is kept apart from the others until the next header closes it.
-/

set_option autoImplicit false

namespace Polyglot.Toml

/-- The header of the table that is open. -/
structure Header where
  /-- Whether the table is one of an array of tables. -/
  inArray : Bool
  /-- The tables on the way. -/
  path : List String
  /-- The last part of the header. -/
  name : String
  deriving DecidableEq, Repr

/-- The tables closed so far, and the one that is open. -/
structure Draft where
  /-- The tables closed so far. -/
  root : Item
  /-- The header of the open table, unless it is the outermost one. -/
  header : Option Header
  /-- The open table. -/
  current : Item

namespace Draft

/-- The draft of a text without lines. -/
def empty : Draft :=
  ⟨.table false false [], none, .table false false []⟩

/-- Puts a closed table under its name; an array of tables takes it at its end. -/
def place (header : Header) (closed : Item) : Item → Option Item
  | .table implied dotted members =>
    let back (item : Item) : Item := .table implied dotted (Item.put header.name item members)
    if header.inArray then
      match Item.lookup header.name members with
      | none => some (back (.tables [closed]))
      | some (.tables elements) => some (back (.tables (elements ++ [closed])))
      | some _ => none
    else
      match Item.lookup header.name members with
      | none => some (back closed)
      | some (.table true _ _) => some (back closed)
      | some _ => none
  | _ => none

/-- The tables after the open one is closed. -/
def close (draft : Draft) : Option Item :=
  match draft.header with
  | none => some draft.current
  | some header => draft.root.update false (place header draft.current) header.path

/-- What a header finds under its name, and the table it opens. -/
def opened (header : Header) : Item → Option Item
  | .table _ _ members =>
    match Item.lookup header.name members, header.inArray with
    | none, _ => some (.table false false [])
    | some (.tables _), true => some (.table false false [])
    | some (.table true false held), false => some (.table false false held)
    | some _, _ => none
  | _ => none

/-- The table without the member that a header takes over. -/
def vacate (header : Header) : Item → Option Item
  | .table implied dotted members =>
    if header.inArray then some (.table implied dotted members)
    else some (.table implied dotted (members.filter fun member => member.1 != header.name))
  | _ => none

/-- The table that a path leads to, with tables coming into being on the way. -/
def reach (path : List String) (root : Item) : Option Item :=
  match path, root with
  | [], item => some item
  | name :: path, .table _ _ members =>
    match (Item.lookup name members).getD (Item.passing false) with
    | .value _ => none
    | .tables elements => elements.getLast?.bind (reach path)
    | child => reach path child
  | _ :: _, _ => none

/-- Closes the open table and opens another. -/
def openTable (draft : Draft) (header : Header) : Option Draft := do
  let root ← draft.close
  let current ← opened header (← reach header.path root)
  let root ← root.update false (vacate header) header.path
  some ⟨root, some header, current⟩

/-- Assigns a value to a key of the open table. -/
def assign (draft : Draft) (path : List String) (name : String) (data : Data) : Option Draft := do
  some ⟨draft.root, draft.header, ← draft.current.assign path name data⟩

end Draft

/-- Reads a header and the rest of its line. -/
def readHeader : List Char → Option (Header × List Char)
  | '[' :: '[' :: rest => do
    let ((path, name), rest) ← readKey rest
    let rest ← expect ']' (← expect ']' rest)
    some (⟨true, path, name⟩, ← skipTrailing rest)
  | '[' :: rest => do
    let ((path, name), rest) ← readKey rest
    some (⟨false, path, name⟩, ← skipTrailing (← expect ']' rest))
  | _ => none

/-- Reads the lines that are left. The count bounds their number. -/
def readLines : Nat → Draft → List Char → Option Draft
  | 0, draft, _ => some draft
  | count + 1, draft, chars =>
    match skipBlanks chars with
    | [] => some draft
    | '#' :: rest => (skipLineEnd (rest.dropWhile isPrintable)).bind (readLines count draft)
    | '[' :: rest => do
      let (header, rest) ← readHeader ('[' :: rest)
      readLines count (← draft.openTable header) rest
    | '\n' :: rest => readLines count draft rest
    | '\r' :: rest => (skipNewline ('\r' :: rest)).bind (readLines count draft)
    | chars => do
      let ((path, name, data), rest) ← readAssignment (readValue nestingLimit) chars
      readLines count (← draft.assign path name data) (← skipTrailing rest)

/-- A text without the mark that some editors put at its front. -/
def dropMark : List Char → List Char
  | c :: rest => if c.toNat = 0xFEFF then rest else c :: rest
  | [] => []

/-- The value that a TOML text denotes, if it denotes one. -/
def read (text : String) : Option Data := do
  let chars := dropMark text.toList
  let draft ← readLines (chars.length + 1) Draft.empty chars
  some (← draft.close).toData

end Polyglot.Toml
