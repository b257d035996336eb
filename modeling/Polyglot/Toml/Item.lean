import Polyglot.Data

/-!
# Tables under construction

A TOML text builds its tables piece by piece. A table may be opened by a header, come
into being because a longer header or a dotted key passes through it, or be one of an
array of tables. How it came into being decides what may still be added to it: a table
that a dotted key passed through may be extended by dotted keys only, a table with a
header of its own is closed for dotted keys, and a table that a longer header passed
through may still be given its own header once.
-/

set_option autoImplicit false

namespace Polyglot.Toml

/-- A member of a table under construction. -/
inductive Item where
  /-- A finished value. -/
  | value (data : Data)
  /-- A table; `implied` if no header opened it, `dotted` if a dotted key made it. -/
  | table (implied dotted : Bool) (members : List (String × Item))
  /-- An array of tables. -/
  | tables (elements : List Item)

namespace Item

/-- The member with the given name. -/
def lookup (name : String) : List (String × Item) → Option Item
  | [] => none
  | (other, item) :: rest => if other = name then some item else lookup name rest

/-- The members with the one of the given name replaced or added. -/
def put (name : String) (item : Item) : List (String × Item) → List (String × Item)
  | [] => [(name, item)]
  | (other, held) :: rest =>
    if other = name then (name, item) :: rest else (other, held) :: put name item rest

/-- A table without members that came into being in passing. -/
def passing (dotted : Bool) : Item :=
  .table true dotted []

/--
Changes the table that a path leads to. Missing tables on the way come into being, of
an array of tables the last one is taken, and a dotted path does not pass through a
table that has a header of its own.
-/
def update (dotted : Bool) (change : Item → Option Item) : List String → Item → Option Item
  | [], item => change item
  | name :: path, .table implied wasDotted members =>
    let back (child : Item) : Item := .table implied wasDotted (put name child members)
    match (lookup name members).getD (passing dotted) with
    | .value _ => none
    | .tables elements =>
      match elements.getLast? with
      | none => none
      | some last => do
        let last ← update dotted change path last
        some (back (.tables (elements.dropLast ++ [last])))
    | .table childImplied childDotted childMembers =>
      if dotted && !childImplied then none
      else do some (back (← update dotted change path (.table childImplied childDotted childMembers)))
  | _ :: _, _ => none

/-- Adds a value under a name that is still free; `viaDots` tells whether dotted keys led here. -/
def addValue (viaDots : Bool) (name : String) (data : Data) : Item → Option Item
  | .table implied dotted members =>
    if dotted != viaDots then none
    else match lookup name members with
      | some _ => none
      | none => some (.table implied dotted (put name (.value data) members))
  | _ => none

/-- Adds a value under a dotted key. -/
def assign (path : List String) (name : String) (data : Data) (item : Item) : Option Item :=
  update true (addValue (!path.isEmpty) name data) path item

mutual

/-- The finished value of a member. -/
def toData : Item → Data
  | .value data => data
  | .table _ _ members => .table (membersToData members)
  | .tables elements => .list (elementsToData elements)

/-- The finished values of the members of a table. -/
def membersToData : List (String × Item) → List (String × Data)
  | [] => []
  | (name, item) :: rest => (name, item.toData) :: membersToData rest

/-- The finished values of the tables of an array. -/
def elementsToData : List Item → List Data
  | [] => []
  | item :: rest => item.toData :: elementsToData rest

end

end Item

end Polyglot.Toml
