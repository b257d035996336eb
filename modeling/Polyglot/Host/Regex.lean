import Polyglot.Text.Utf8

/-!
# Regular expressions of the stream editor

A regular expression over bytes: characters, the point, brackets, stars, counted
repetitions, groups, references to earlier groups, the two anchors, and alternatives. In
the basic form the operators for groups, counts and alternatives are escaped, in the
extended form they stand for themselves. A match is the first one that a search with
backtracking finds, in which every repetition takes as much as it can.
-/

set_option autoImplicit false

namespace Polyglot.Host.Regex

open Polyglot.Text (Bytes)

/-- What a repetition repeats. -/
inductive Atom where
  /-- The given byte. -/
  | byte (value : UInt8)
  /-- Any byte. -/
  | any
  /-- A byte that lies in one of the ranges, or in none of them. -/
  | oneOf (negated : Bool) (ranges : List (UInt8 × UInt8))
  /-- What the group with the given number matched. -/
  | again (group : Nat)
  deriving DecidableEq, Repr

/-- One part of a regular expression. -/
inductive Part where
  /-- An atom, repeated. -/
  | repeated (atom : Atom) (least : Nat) (most : Option Nat)
  /-- A group opens. -/
  | opens (group : Nat)
  /-- A group closes. -/
  | closes (group : Nat)
  /-- The beginning of the text. -/
  | first
  /-- The end of the text. -/
  | last
  deriving DecidableEq, Repr

/-- A byte that an escape of the editor stands for. -/
def escapeOf (byte : UInt8) : UInt8 :=
  if byte = 0x6E then 10 else if byte = 0x74 then 9 else if byte = 0x72 then 13 else byte

/-- The ranges of a bracket up to its end, and what stands behind it. -/
def bracket : Nat → Bytes → Option (List (UInt8 × UInt8) × Bytes)
  | 0, _ => none
  | _ + 1, [] => none
  | count + 1, byte :: rest =>
    if byte = 0x5D then some ([], rest)
    else match byte, rest with
      | low, 0x2D :: high :: more =>
        if high = 0x5D then (bracket count rest).map fun found => ((low, low) :: found.1, found.2)
        else (bracket count more).map fun found => ((low, high) :: found.1, found.2)
      | 0x5C, 0x6E :: more => (bracket count more).map fun found => ((10, 10) :: found.1, found.2)
      | low, _ => (bracket count rest).map fun found => ((low, low) :: found.1, found.2)

/-- Reads a bracket behind its opening. -/
def readBracket (bytes : Bytes) : Option (Atom × Bytes) :=
  let (negated, inner) := match bytes with
    | 0x5E :: inner => (true, inner)
    | inner => (false, inner)
  match inner with
  | 0x5D :: more =>
    (bracket inner.length more).map fun found => (.oneOf negated ((0x5D, 0x5D) :: found.1), found.2)
  | inner => (bracket (inner.length + 1) inner).map fun found => (.oneOf negated found.1, found.2)

/-- Reads a natural in base ten. -/
def readNatural (bytes : Bytes) : Option Nat × Bytes :=
  let isDigit (byte : UInt8) : Bool := 48 ≤ byte && byte ≤ 57
  let digits := bytes.takeWhile isDigit
  (if digits.isEmpty then none
   else some (digits.foldl (fun value byte => value * 10 + (byte.toNat - 48)) 0),
   bytes.drop digits.length)

/-- Reads the bounds of a counted repetition behind its opening. -/
def readBounds (bytes : Bytes) : Option ((Nat × Option Nat) × Bytes) :=
  match readNatural bytes with
  | (some least, 0x5C :: 0x7D :: rest) => some ((least, some least), rest)
  | (least, 0x2C :: rest) =>
    match readNatural rest with
    | (most, 0x5C :: 0x7D :: rest) => some ((least.getD 0, most), rest)
    | _ => none
  | _ => none

/-- Attaches a repetition to an atom. -/
def withRepetition (atom : Atom) (bytes : Bytes) : Option (Part × Bytes) :=
  match bytes with
  | 0x2A :: rest => some (.repeated atom 0 none, rest)
  | 0x5C :: 0x2B :: rest => some (.repeated atom 1 none, rest)
  | 0x5C :: 0x3F :: rest => some (.repeated atom 0 (some 1), rest)
  | 0x5C :: 0x7B :: rest => do
    let (bounds, rest) ← readBounds rest
    some (.repeated atom bounds.1 bounds.2, rest)
  | rest => some (.repeated atom 1 (some 1), rest)

/-- Reads the parts of an expression; the open groups are listed, innermost first. -/
def readParts : Nat → Bool → Nat → List Nat → Bytes → Option (List Part)
  | 0, _, _, _, _ => none
  | _ + 1, _, _, open_, [] => if open_.isEmpty then some [] else none
  | count + 1, atStart, groups, open_, byte :: rest =>
    let go (part : Part) (rest : Bytes) : Option (List Part) :=
      (readParts count false groups open_ rest).map (part :: ·)
    let repeatedGo (atom : Atom) (rest : Bytes) : Option (List Part) :=
      (withRepetition atom rest).bind fun found => go found.1 found.2
    if byte = 0x5C then
      match rest with
      | 0x28 :: rest =>
        (readParts count true (groups + 1) ((groups + 1) :: open_) rest).map
          (.opens (groups + 1) :: ·)
      | 0x29 :: rest =>
        match open_ with
        | group :: outer => (readParts count false groups outer rest).map (.closes group :: ·)
        | [] => none
      | escaped :: rest =>
        if 49 ≤ escaped.toNat ∧ escaped.toNat ≤ 57 then repeatedGo (.again (escaped.toNat - 48)) rest
        else repeatedGo (.byte (escapeOf escaped)) rest
      | [] => none
    else if byte = 0x5E ∧ atStart then (readParts count true groups open_ rest).map (.first :: ·)
    else if byte = 0x24 ∧ (rest.isEmpty ∨ rest.take 2 = [0x5C, 0x29]) then go .last rest
    else if byte = 0x2E then repeatedGo .any rest
    else if byte = 0x5B then (readBracket rest).bind fun found => repeatedGo found.1 found.2
    else if byte = 0x2A ∧ atStart then go (.repeated (.byte 0x2A) 1 (some 1)) rest
    else repeatedGo (.byte byte) rest

/-- An expression: its alternatives. -/
abbrev Regex := List (List Part)

/-- The expression that matches some bytes and nothing else. -/
def exactly (bytes : Bytes) : Regex :=
  [bytes.map fun byte => .repeated (.byte byte) 1 (some 1)]

/-- Whether a byte is an operator in an extended expression and an ordinary one in a basic one. -/
def isExtendedOperator (byte : UInt8) : Bool :=
  byte == 0x28 || byte == 0x29 || byte == 0x7B || byte == 0x7D || byte == 0x2B || byte == 0x3F ||
    byte == 0x7C

/-- The basic form of an extended expression, in which operators are escaped. -/
def basicOfExtended (inBracket : Bool) : Bytes → Bytes
  | [] => []
  | 0x5C :: next :: rest =>
    if inBracket then 0x5C :: basicOfExtended inBracket (next :: rest)
    else if isExtendedOperator next then next :: basicOfExtended inBracket rest
    else 0x5C :: next :: basicOfExtended inBracket rest
  | byte :: rest =>
    if inBracket then byte :: basicOfExtended (byte != 0x5D) rest
    else if isExtendedOperator byte then 0x5C :: byte :: basicOfExtended inBracket rest
    else byte :: basicOfExtended (byte == 0x5B) rest

/-- The alternatives of a basic expression that stand outside groups. -/
def alternatives : Nat → Bytes → Bytes → List Bytes
  | _, reversed, [] => [reversed.reverse]
  | depth, reversed, 0x5C :: next :: rest =>
    if next = 0x7C ∧ depth = 0 then reversed.reverse :: alternatives depth [] rest
    else
      let depth := if next = 0x28 then depth + 1 else if next = 0x29 then depth - 1 else depth
      alternatives depth (next :: 0x5C :: reversed) rest
  | depth, reversed, byte :: rest => alternatives depth (byte :: reversed) rest

/-- Reads a basic or an extended expression. -/
def read? (extended : Bool) (bytes : Bytes) : Option Regex :=
  let basic := if extended then basicOfExtended false bytes else bytes
  (alternatives 0 [] basic).mapM fun part => readParts (part.length + 1) true 0 [] part

/-- What the groups matched: the number of a group, and its bytes. -/
abbrev Groups := List (Nat × Bytes)

/-- The text behind one match of an atom. -/
def Atom.step (groups : Groups) (atom : Atom) (text : Bytes) : Option Bytes :=
  match atom, text with
  | .byte value, next :: rest => if next = value then some rest else none
  | .any, _ :: rest => some rest
  | .oneOf negated ranges, next :: rest =>
    if (ranges.any fun range => range.1 ≤ next && next ≤ range.2) != negated then some rest else none
  | .again group, text =>
    match groups.lookup group with
    | some held => if text.take held.length = held then some (text.drop held.length) else none
    | none => none
  | _, [] => none

/-- The texts behind one, two and more matches of an atom, the longest run first. -/
def Atom.run (groups : Groups) (atom : Atom) : Nat → List Bytes → Bytes → List Bytes
  | 0, found, text => text :: found
  | count + 1, found, text =>
    match atom.step groups text with
    | some rest =>
      if rest.length < text.length then run groups atom count (text :: found) rest
      else text :: found
    | none => text :: found

/-- A match so far: where the open groups began, and what the closed ones matched. -/
structure Found where
  /-- The open groups with the text at their beginning. -/
  begun : List (Nat × Bytes)
  /-- The closed groups. -/
  groups : Groups

/-- The text behind a match of the parts at the front of a text, and what the groups matched. -/
def search (atStart : Bool) : List Part → Found → Bytes → Option (Bytes × Groups)
  | [], found, text => some (text, found.groups)
  | .first :: rest, found, text => if atStart then search atStart rest found text else none
  | .last :: rest, found, text => if text.isEmpty then search atStart rest found text else none
  | .opens group :: rest, found, text =>
    search atStart rest { found with begun := (group, text) :: found.begun } text
  | .closes group :: rest, found, text =>
    let start := (found.begun.lookup group).getD text
    let held := start.take (start.length - text.length)
    search atStart rest { found with groups := (group, held) :: found.groups } text
  | .repeated atom least most :: rest, found, text =>
    let tails := atom.run found.groups (min (text.length + 1) (most.getD (text.length + 1))) [] text
    let enough := tails.take (tails.length - least)
    enough.findSome? fun tail => search (atStart && tail.length == text.length) rest found tail

/-- The longest match of one of the alternatives at the front of a text. -/
def front (regex : Regex) (atStart : Bool) (text : Bytes) : Option (Bytes × Groups) :=
  (regex.filterMap fun parts => search atStart parts ⟨[], []⟩ text).foldl (fun best found =>
    match best with
    | some other => if found.1.length < other.1.length then some found else best
    | none => some found) none

/-- Where an expression first matches: what stands in front, the match, its groups, and the rest. -/
def find (regex : Regex) (atStart : Bool) :
    List UInt8 → Bytes → Option (Bytes × Bytes × Groups × Bytes)
  | reversed, text =>
    match front regex (atStart && reversed.isEmpty) text with
    | some (rest, groups) =>
      some (reversed.reverse, text.take (text.length - rest.length), groups, rest)
    | none =>
      match text with
      | [] => none
      | byte :: text => find regex atStart (byte :: reversed) text

end Polyglot.Host.Regex
