import Polyglot.Host.Tree

/-!
# Patterns for names

A pattern for names consists of characters that stand for themselves, stars for any
run of characters, question marks for any one character, and brackets for one of
several characters. A quoted character always stands for itself. A pattern for paths
is matched name by name; a name that begins with a point is matched only by a pattern
that does.
-/

set_option autoImplicit false

namespace Polyglot.Host

/-- A character of a word, and whether it was quoted. -/
structure Mark where
  /-- The character. -/
  char : Char
  /-- Whether it stands for itself only. -/
  quoted : Bool
  deriving DecidableEq, Repr

namespace Glob

/-- One part of a pattern. -/
inductive Part where
  /-- The given character. -/
  | exactly (c : Char)
  /-- Any one character. -/
  | any
  /-- Any run of characters. -/
  | star
  /-- One character that lies in one of the ranges, or in none of them. -/
  | oneOf (negated : Bool) (ranges : List (Char × Char))
  deriving DecidableEq, Repr

/-- The ranges of a bracket up to its end, and what stands behind it. -/
def bracket : Nat → List Mark → Option (List (Char × Char) × List Mark)
  | 0, _ => none
  | _ + 1, [] => none
  | count + 1, mark :: rest =>
    match mark.char, mark.quoted, rest with
    | ']', false, _ => some ([], rest)
    | low, _, ⟨'-', false⟩ :: high :: more =>
      if high.char = ']' && !high.quoted then
        (bracket count rest).map fun found => ((low, low) :: found.1, found.2)
      else (bracket count more).map fun found => ((low, high.char) :: found.1, found.2)
    | low, _, _ => (bracket count rest).map fun found => ((low, low) :: found.1, found.2)

/-- The parts of a pattern. -/
def parts : Nat → List Mark → List Part
  | 0, _ => []
  | _ + 1, [] => []
  | count + 1, mark :: rest =>
    if mark.quoted then .exactly mark.char :: parts count rest
    else if mark.char = '*' then .star :: parts count rest
    else if mark.char = '?' then .any :: parts count rest
    else if mark.char = '[' then
      let (negated, inner) := match rest with
        | ⟨'!', false⟩ :: inner => (true, inner)
        | inner => (false, inner)
      let found := match inner with
        | ⟨']', false⟩ :: more =>
          (bracket inner.length more).map fun found => ((']', ']') :: found.1, found.2)
        | inner => bracket (inner.length + 1) inner
      match found with
      | some (ranges, behind) => .oneOf negated ranges :: parts count behind
      | none => .exactly '[' :: parts count rest
    else .exactly mark.char :: parts count rest

/-- Whether a part matches one character. -/
def Part.accepts (c : Char) : Part → Bool
  | .exactly expected => expected == c
  | .any => true
  | .star => false
  | .oneOf negated ranges => (ranges.any fun range => range.1 ≤ c && c ≤ range.2) != negated

/-- The ends of a list, from the whole down to the empty one. -/
def ends {α : Type} : List α → List (List α)
  | [] => [[]]
  | first :: rest => (first :: rest) :: ends rest

/-- Whether the parts match all of the characters. -/
def accepts : List Part → List Char → Bool
  | [], chars => chars.isEmpty
  | .star :: rest, chars => (ends chars).any (accepts rest)
  | part :: rest, c :: chars => part.accepts c && accepts rest chars
  | _ :: _, [] => false

/-- Whether a word contains a character that can match others. -/
def isPattern (word : List Mark) : Bool :=
  word.any fun mark => !mark.quoted && (mark.char == '*' || mark.char == '?' || mark.char == '[')

/-- Whether a word, as a pattern, matches a text. -/
def covers (word : List Mark) (text : List Char) : Bool :=
  accepts (parts word.length word) text

/-- The text of a word. -/
def textOf (word : List Mark) : String :=
  String.ofList (word.map (·.char))

/-- The pieces of a word between slashes. -/
def segments : List Mark → List (List Mark)
  | [] => [[]]
  | mark :: rest =>
    if mark.char = '/' then [] :: segments rest
    else match segments rest with
      | segment :: others => (mark :: segment) :: others
      | [] => [[mark]]

/-- The names in a directory that match a segment. -/
def namesIn (tree : Tree) (directory base : String) (segment : List Mark) : List String :=
  let place := if base.isEmpty then "." else base
  match tree.lookup directory place with
  | .ok (_, node) =>
    (node.entries.map (·.1)).filter fun name =>
      let chars := name.toList
      covers segment chars &&
        (chars.head? != some '.' || segment.head?.map (·.char) == some '.')
  | .error _ => []

/-- The paths that begin with a base and go on with the given segments. -/
def expandFrom (tree : Tree) (directory : String) : String → List (List Mark) → List String
  | base, [] => [base]
  | base, segment :: rest =>
    let slash := if rest.isEmpty then "" else "/"
    if isPattern segment then
      (namesIn tree directory base segment).flatMap fun name =>
        let path := base ++ name
        if rest.isEmpty then [path]
        else if tree.isDirectory directory path then expandFrom tree directory (path ++ slash) rest
        else []
    else
      let path := base ++ textOf segment
      if rest.isEmpty then
        if segment.isEmpty then [path]
        else match tree.locate directory path false with
          | .ok (_, some _) => [path]
          | _ => []
      else expandFrom tree directory (path ++ slash) rest

/-- The paths that a word stands for: the word itself if nothing matches. -/
def expand (tree : Tree) (directory : String) (word : List Mark) : List String :=
  if isPattern word then
    match expandFrom tree directory "" (segments word) with
    | [] => [textOf word]
    | paths => paths
  else [textOf word]

end Glob

end Polyglot.Host
