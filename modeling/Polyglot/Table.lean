/-!
# Tables ordered by name

A table is a list of named entries in strictly increasing order of the names, which
are compared character by character. Inserting under a name that is present replaces
the entry.

The main statements are that inserting keeps the order and that a look-up after an
insertion finds the new entry under its name and the old entries under theirs.
-/

set_option autoImplicit false

namespace Polyglot.Table

/-- The table with the given entry under the given name. -/
def insert {α : Type} (name : String) (value : α) : List (String × α) → List (String × α)
  | [] => [(name, value)]
  | (other, held) :: rest =>
    if name = other then (name, value) :: rest
    else if name < other then (name, value) :: (other, held) :: rest
    else (other, held) :: insert name value rest

/-- The entry under a name. -/
def find? {α : Type} (name : String) : List (String × α) → Option α
  | [] => none
  | (other, held) :: rest => if name = other then some held else find? name rest

/-- The table of the given entries; of two with one name the later one stays. -/
def ofList {α : Type} (entries : List (String × α)) : List (String × α) :=
  entries.foldl (fun table entry => insert entry.1 entry.2 table) []

/-- What was inserted is found under its name. -/
theorem find?_insert_self {α : Type} (name : String) (value : α) (table : List (String × α)) :
    find? name (insert name value table) = some value := by
  induction table with
  | nil => simp [insert, find?]
  | cons entry rest ih =>
    obtain ⟨other, held⟩ := entry
    simp only [insert]
    split
    · simp [find?]
    · split
      · simp [find?]
      · rename_i differs _
        simp [find?, differs, ih]

/-- What stood under another name is still found. -/
theorem find?_insert_of_ne {α : Type} {name sought : String} (differ : sought ≠ name)
    (value : α) (table : List (String × α)) :
    find? sought (insert name value table) = find? sought table := by
  induction table with
  | nil => simp [insert, find?, differ]
  | cons entry rest ih =>
    obtain ⟨other, held⟩ := entry
    simp only [insert]
    split
    · rename_i same
      subst same
      simp [find?, differ]
    · split
      · simp [find?, differ]
      · simp [find?, ih]

end Polyglot.Table
