import Polyglot.Host.Format
import Polyglot.Host.Regex
import Polyglot.Host.Tool.Call

/-!
# The stream editor

A script consists of commands, each for the lines that its address selects: a line by
its number, the last line, the lines with a match, or a range from one such line to
another. The commands are applied to every line in turn.

What a command does to a line is recorded in the state of the line: the text, what is
printed in front of it and behind it, and whether the line is dropped or the last one.
-/

set_option autoImplicit false

namespace Polyglot.Host.Tool

open Polyglot.Host.Regex (Regex)
open Polyglot.Text (Bytes utf8)

/-! ## Scripts -/

/-- A place among the lines. -/
inductive Point where
  /-- The line with the given number. -/
  | number (n : Nat)
  /-- The last line. -/
  | last
  /-- The lines that contain a match. -/
  | hits (regex : Regex)
  deriving DecidableEq, Repr

/-- Which lines a command applies to. -/
inductive Address where
  /-- Every line. -/
  | all
  /-- The lines at a place. -/
  | single (point : Point)
  /-- The lines from one place to another. -/
  | range (first final : Point)
  deriving DecidableEq, Repr

/-- What a command does to a line. -/
inductive Edit where
  /-- Replaces the match with the given number, or from it on every match. -/
  | substitute (regex : Regex) (replacement : Bytes) (every : Bool) (nth : Nat) (prints : Bool)
  /-- Replaces bytes one by one. -/
  | translate (source target : Bytes)
  /-- Prints the line. -/
  | print
  /-- Prints the number of the line. -/
  | number
  /-- Drops the line. -/
  | delete
  /-- Ends after the line. -/
  | quit
  /-- Prints a text in front of the line. -/
  | insert (text : Bytes)
  /-- Prints a text behind the line. -/
  | append (text : Bytes)
  /-- Prints a text in place of the line. -/
  | change (text : Bytes)
  deriving DecidableEq, Repr

/-- A command of a script. -/
structure EditCommand where
  /-- Which lines it applies to. -/
  address : Address
  /-- Whether it applies to the other lines instead. -/
  negated : Bool
  /-- What it does. -/
  edit : Edit
  deriving DecidableEq, Repr

/-- What is wrong with a script. -/
inductive EditFault where
  /-- A letter is no command. -/
  | unknownCommand (letter : Bytes)
  /-- The command behind an address is missing. -/
  | missingCommand
  /-- A replacement is not closed. -/
  | unterminated (letter : Bytes)
  /-- A flag of a replacement is unknown. -/
  | unknownOption (letter : Bytes)
  /-- Something follows a command. -/
  | extraCharacters
  deriving DecidableEq, Repr

/-- The wording of a fault. -/
def EditFault.message : EditFault → String
  | .unknownCommand letter => "unknown command: `" ++ Text.lossy letter ++ "'"
  | .missingCommand => "missing command"
  | .unterminated letter => "unterminated `" ++ Text.lossy letter ++ "' command"
  | .unknownOption _ => "unknown option to `s'"
  | .extraCharacters => "extra characters after command"

/-- A fault with the number of bytes of the script that are behind it. -/
abbrev EditError := EditFault × Nat

/-- The text up to an unescaped delimiter, in which an escaped delimiter stands for itself. -/
def upToDelimiter (delimiter : UInt8) : Bytes → Option (Bytes × Bytes)
  | [] => none
  | 0x5C :: next :: rest =>
    (upToDelimiter delimiter rest).map fun found =>
      (if next = delimiter then next :: found.1 else 0x5C :: next :: found.1, found.2)
  | byte :: rest =>
    if byte = delimiter then some ([], rest)
    else (upToDelimiter delimiter rest).map fun found => (byte :: found.1, found.2)

/-- Reads a place, if one comes next. -/
def readPoint (extended : Bool) : Bytes → Option (Point × Bytes)
  | 0x24 :: rest => some (.last, rest)
  | 0x2F :: rest =>
    (upToDelimiter 0x2F rest).map fun found =>
      (.hits ((Regex.read? extended found.1).getD []), found.2)
  | bytes =>
    match leadingNatural bytes with
    | (some n, rest) => some (.number n, rest)
    | (none, _) => none

/-- Reads an address. -/
def readAddress (extended : Bool) (bytes : Bytes) : Address × Bytes :=
  match readPoint extended bytes with
  | none => (.all, bytes)
  | some (first, 0x2C :: rest) =>
    match readPoint extended rest with
    | some (final, rest) => (.range first final, rest)
    | none => (.single first, 0x2C :: rest)
  | some (first, rest) => (.single first, rest)

/-- Whether a byte is a blank in a script. -/
def isScriptBlank (byte : UInt8) : Bool :=
  byte == 32 || byte == 9

/-- Whether a byte separates commands. -/
def separatesCommands (byte : UInt8) : Bool :=
  byte == 10 || byte == 0x3B

/-- The text of a command that prints it. -/
def readText (bytes : Bytes) : Bytes × Bytes :=
  let bytes := bytes.dropWhile isScriptBlank
  let bytes := match bytes with
    | 0x5C :: 10 :: rest => rest
    | 0x5C :: rest => rest.dropWhile isScriptBlank
    | bytes => bytes
  let text := bytes.takeWhile (· != 10)
  (text, bytes.drop text.length)

/-- Reads a command behind its address. -/
def readEdit (extended : Bool) (bytes : Bytes) : Except EditError (Edit × Bytes) :=
  match bytes with
  | [] => .error (.missingCommand, 0)
  | letter :: rest =>
    let fault (fault : EditFault) : Except EditError (Edit × Bytes) := .error (fault, 0)
    match Char.ofNat letter.toNat with
    | 's' =>
      match rest with
      | [] => fault (.unterminated [letter])
      | delimiter :: rest =>
        match upToDelimiter delimiter rest with
        | none => fault (.unterminated [letter])
        | some (pattern, rest) =>
          match upToDelimiter delimiter rest with
          | none => fault (.unterminated [letter])
          | some (replacement, rest) =>
            let flags := rest.takeWhile fun byte =>
              !separatesCommands byte && byte != 32 && byte != 0x7D
            let rest := rest.drop flags.length
            let known (byte : UInt8) : Bool :=
              (48 ≤ byte && byte ≤ 57) || byte == 0x67 || byte == 0x70 || byte == 0x49 || byte == 0x69
            match flags.find? fun byte => !known byte with
            | some flag => .error (.unknownOption [flag], (flags.dropWhile known).length - 1 + rest.length)
            | none =>
              match Regex.read? extended pattern with
              | none => fault (.unterminated [letter])
              | some regex =>
                .ok (.substitute regex replacement (flags.contains 0x67)
                  ((leadingNatural (flags.filter fun byte => 48 ≤ byte && byte ≤ 57)).1.getD 1)
                  (flags.contains 0x70), rest)
    | 'y' =>
      match rest with
      | [] => fault (.unterminated [letter])
      | delimiter :: rest =>
        match upToDelimiter delimiter rest with
        | none => fault (.unterminated [letter])
        | some (source, rest) =>
          match upToDelimiter delimiter rest with
          | none => fault (.unterminated [letter])
          | some (target, rest) => .ok (.translate (unescaped source).1 (unescaped target).1, rest)
    | 'p' => .ok (.print, rest)
    | '=' => .ok (.number, rest)
    | 'd' => .ok (.delete, rest)
    | 'q' => .ok (.quit, rest)
    | 'i' => let (text, rest) := readText rest
      .ok (.insert text, rest)
    | 'a' => let (text, rest) := readText rest
      .ok (.append text, rest)
    | 'c' => let (text, rest) := readText rest
      .ok (.change text, rest)
    | _ => .error (.unknownCommand [letter], rest.length)

/-- Reads the commands of a script, with semicolons or line breaks between them. -/
def readScript (extended : Bool) : Nat → Bytes → Except EditError (List EditCommand)
  | 0, _ => .ok []
  | steps + 1, bytes =>
    match bytes.dropWhile fun byte => isScriptBlank byte || separatesCommands byte with
    | [] => .ok []
    | bytes => do
      let (address, rest) := readAddress extended bytes
      let rest := rest.dropWhile isScriptBlank
      let (negated, rest) := match rest with
        | 0x21 :: rest => (true, rest.dropWhile isScriptBlank)
        | rest => (false, rest)
      let (edit, rest) ← readEdit extended rest
      match rest.dropWhile isScriptBlank with
      | [] => .ok [⟨address, negated, edit⟩]
      | byte :: behind =>
        if separatesCommands byte then
          .ok (⟨address, negated, edit⟩ :: (← readScript extended steps behind))
        else .error (.extraCharacters, behind.length)

/-! ## Lines -/

/-- The replacement of a match. -/
def replacementOf (found : Bytes) (groups : Regex.Groups) : Bytes → Bytes
  | [] => []
  | 0x5C :: next :: rest =>
    (if 48 ≤ next.toNat ∧ next.toNat ≤ 57 then
      if next = 48 then found else (groups.lookup (next.toNat - 48)).getD []
     else [Regex.escapeOf next]) ++ replacementOf found groups rest
  | 0x26 :: rest => found ++ replacementOf found groups rest
  | byte :: rest => byte :: replacementOf found groups rest

/-- Replaces matches in a line, and tells whether there was one. -/
def substitute (regex : Regex) (replacement : Bytes) (every : Bool) :
    Nat → Nat → Bool → Bytes → Bytes × Bool
  | 0, _, _, text => (text, false)
  | steps + 1, nth, atStart, text =>
    match Regex.find regex atStart [] text with
    | none => (text, false)
    | some (front, found, groups, rest) =>
      let (emptyStep, rest) : Bytes × Bytes := if found.isEmpty then (rest.take 1, rest.drop 1) else ([], rest)
      let isLast := found.isEmpty && emptyStep.isEmpty
      if nth > 1 then
        let (tail, hit) := if isLast then (rest, false)
          else substitute regex replacement every steps (nth - 1) false rest
        (front ++ found ++ emptyStep ++ tail, hit)
      else
        let tail := if every && !isLast then (substitute regex replacement every steps 1 false rest).1 else rest
        (front ++ replacementOf found groups replacement ++ emptyStep ++ tail, true)

/-- What the commands have made of a line. -/
structure LineState where
  /-- The text. -/
  text : Bytes
  /-- The line break behind the text, if there is one. -/
  ending : Bytes
  /-- What is printed in front of it. -/
  before : Bytes
  /-- What is printed behind it. -/
  behind : Bytes
  /-- Whether it is dropped. -/
  dropped : Bool
  /-- Whether it is the last line that is edited. -/
  quits : Bool
  deriving DecidableEq, Repr

/-- Whether a line stands at a place. -/
def Point.covers (number : Nat) (isLast : Bool) (text : Bytes) : Point → Bool
  | .number n => n == number
  | .last => isLast
  | .hits regex => (Regex.find regex true [] text).isSome

/-- Whether a command applies to a line, and whether its range is open behind the line. -/
def Address.covers (number : Nat) (isLast : Bool) (text : Bytes) (isOpen : Bool) : Address → Bool × Bool
  | .all => (true, false)
  | .single point => (point.covers number isLast text, false)
  | .range first final =>
    if isOpen then
      match final with
      | .number n => (number ≤ n, number < n)
      | final => (true, !final.covers number isLast text)
    else if first.covers number isLast text then
      match final with
      | .number n => (true, number < n)
      | .last => (true, !isLast)
      | .hits _ => (true, true)
    else (false, false)

/-- A line after one more edit. -/
def LineState.apply (number : Nat) (state : LineState) : Edit → LineState
  | .substitute regex replacement every nth prints =>
    let (text, hit) := substitute regex replacement every (state.text.length + 1) nth true state.text
    let state := { state with text := text }
    if hit && prints then { state with before := state.before ++ text ++ [10] } else state
  | .translate source target =>
    { state with text := state.text.map fun byte =>
        ((source.idxOf? byte).bind fun i => target[i]?).getD byte }
  | .print => { state with before := state.before ++ state.text ++ [10] }
  | .number => { state with before := state.before ++ utf8 (toString number) ++ [10] }
  | .delete => { state with dropped := true }
  | .quit => { state with quits := true }
  | .insert text => { state with before := state.before ++ text ++ [10] }
  | .append text => { state with behind := state.behind ++ text ++ [10] }
  | .change text => { state with dropped := true, before := state.before ++ text ++ [10] }

/-- Applies commands, each with its range open or not, and answers which ranges are open behind the line. -/
def editLine (number : Nat) (isLast : Bool) :
    List (EditCommand × Bool) → LineState → LineState × List (EditCommand × Bool)
  | [], state => (state, [])
  | (command, isOpen) :: rest, state =>
    let (covered, opened) := command.address.covers number isLast state.text isOpen
    let state := if covered != command.negated then state.apply number command.edit else state
    if state.dropped || state.quits then (state, (command, opened) :: rest)
    else
      let (state, rest) := editLine number isLast rest state
      (state, (command, opened) :: rest)

/-- What is printed for a line; a text that the line alone would repeat keeps its missing line break. -/
def LineState.output (silent : Bool) (state : LineState) : Bytes :=
  let shown := if silent || state.dropped then [] else state.text ++ state.ending
  let all := state.before ++ shown
  let all := if shown.isEmpty && state.ending.isEmpty && !state.before.isEmpty then all.dropLast else all
  if state.behind.isEmpty then all
  else (if all.getLast? == some 10 || all.isEmpty then all else all ++ [10]) ++ state.behind

/-- A line that no command has changed. -/
def LineState.ofLine (line : Bytes) : LineState :=
  ⟨bare line, if line.getLast? = some 10 then [10] else [], [], [], false, false⟩

/-- What is printed for some lines, of which the first has the given number. -/
def editLines (silent : Bool) : List (EditCommand × Bool) → Nat → List Bytes → Bytes
  | _, _, [] => []
  | commands, number, line :: rest =>
    let (state, commands) := editLine number rest.isEmpty commands (.ofLine line)
    state.output silent ++ (if state.quits then [] else editLines silent commands (number + 1) rest)

/-- Edits the standard input line by line as it comes. -/
def editInput (silent : Bool) : Nat → List (EditCommand × Bool) → Nat → Action Exit
  | 0, _, _ => .done fine
  | steps + 1, commands, number => do
    let line ← Action.input .line
    if line.isEmpty then .done fine
    else do
      let (state, commands) := editLine number (line.getLast? != some 10) commands (.ofLine line)
      Action.put (state.output silent)
      if state.quits then .done fine else editInput silent steps commands (number + 1)

/-! ## The program -/

/-- The scripts that options carry, and the other arguments. -/
def splitScripts : List String → List String × List String
  | "-e" :: script :: rest =>
    let (scripts, others) := splitScripts rest
    (script :: scripts, others)
  | "-ne" :: script :: rest =>
    let (scripts, others) := splitScripts rest
    (script :: scripts, "-n" :: others)
  | argument :: rest =>
    let (scripts, others) := splitScripts rest
    (scripts, argument :: others)
  | [] => ([], [])

/-- Edits lines by a script. -/
def sed (call : Invocation) : Action Exit := do
  let (scripts, others) := splitScripts call.arguments
  let (options, operands) := splitOptions others
  let flags := letters options
  let extended := flags.contains 'E' || flags.contains 'r'
  let (script, paths) := if scripts.isEmpty then (operands.head?.getD "", operands.drop 1)
    else ("\n".intercalate scripts, operands)
  if scripts.isEmpty && operands.isEmpty then do
    Action.complain ("Usage: " ++ call.name ++ " [OPTION]... \x7bscript-only-if-no-other-script\x7d [input-file]...\n")
    .done (.status 1)
  else match readScript extended (script.utf8ByteSize + 1) (utf8 script) with
    | .error (fault, behind) =>
      refuse call 1 ("-e expression #1, char " ++ toString (script.utf8ByteSize - behind) ++ ": " ++
        fault.message)
    | .ok commands =>
      let commands := commands.map fun command => (command, false)
      let silent := flags.contains 'n'
      if flags.contains 'i' then
        changeEach call "can't read" (fun path tree => do
          let bytes ← tree.read call.directory path
          tree.write call.directory path (editLines silent commands 1 (linesOf bytes)) false) paths true
      else if paths.isEmpty && flags.contains 'u' then editInput silent longLife commands 1
      else do
        let (exit, files) ← readEach { call with name := call.name ++ ": can't read" } (filesOrInput paths) true
        Action.put (editLines silent commands 1 (linesOf (files.flatMap (·.2))))
        .done (if exit = fine then fine else .status 2)

end Polyglot.Host.Tool
