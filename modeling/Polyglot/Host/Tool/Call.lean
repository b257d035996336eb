import Polyglot.Host.Action

/-!
# Calling an installed program

An installed program is called with arguments, in a directory, and with the variables
of its environment. It answers what it will do.

Most programs treat their arguments alike: those that begin with a dash are options,
and the others name files, of which a dash is the standard input. A program that works
through its whole input does so in steps, of which there are at most as many as a fixed
bound; the bound is far above any input.
-/

set_option autoImplicit false

namespace Polyglot.Host

open Polyglot.Text (Bytes utf8)

/-- How a program is started. -/
structure Invocation where
  /-- The name under which it was started. -/
  name : String
  /-- The arguments. -/
  arguments : List String
  /-- The directory in which it runs. -/
  directory : String
  /-- The variables of its environment. -/
  bindings : List (String × String)
  deriving DecidableEq, Repr

/-- The greatest number of steps of a program. -/
def longLife : Nat := 1000000

namespace Tool

/-- The status of success. -/
def fine : Exit := .status 0

/-- Complains and ends. -/
def refuse (call : Invocation) (status : Nat) (text : String) : Action Exit := do
  Action.complain (call.name ++ ": " ++ text)
  .done (.status status)

/-- Complains about a wrong use, points to the description of the program, and ends. -/
def misused (call : Invocation) (status : Nat) (text : String) : Action Exit :=
  refuse call status (text ++ "\nTry '" ++ call.name ++ " --help' for more information.")

/-! ## Options -/

/-- Splits off the arguments that begin with a dash. -/
def splitOptions : List String → List String × List String
  | [] => ([], [])
  | argument :: rest =>
    if argument = "--" then ([], rest)
    else if argument.length > 1 && argument.toList.head? == some '-' then
      let (options, operands) := splitOptions rest
      (argument :: options, operands)
    else ([], argument :: rest)

/-- The letters of the options. -/
def letters (options : List String) : List Char :=
  options.flatMap fun option => option.toList.drop 1

/--
The value that the first option with a letter carries, in the same argument or in the
next one, and the other arguments.
-/
def valueOption (letter : Char) : List String → Option (String × List String)
  | [] => none
  | argument :: rest =>
    match argument.toList with
    | '-' :: found :: inner =>
      if found = letter then
        if inner.isEmpty then rest.head?.map fun value => (value, rest.drop 1)
        else some (String.ofList inner, rest)
      else (valueOption letter rest).map fun found => (found.1, argument :: found.2)
    | _ => (valueOption letter rest).map fun found => (found.1, argument :: found.2)

/-! ## Input -/

/-- Everything on the standard input. -/
def slurp : Nat → List Bytes → Action Bytes
  | 0, kept => .done kept.reverse.flatten
  | steps + 1, kept => do
    let bytes ← Action.input .some
    if bytes.isEmpty then .done kept.reverse.flatten else slurp steps (bytes :: kept)

/-- Everything on the standard input. -/
def wholeInput : Action Bytes :=
  slurp longLife []

/-- The contents of a file, or of the standard input for a dash. -/
def contentsOf (call : Invocation) (path : String) : Action (Except OsError Bytes) :=
  if path = "-" then (wholeInput >>= fun bytes => .done (.ok bytes))
  else .look fun tree => .done (tree.read call.directory path)

/-- Works through files, or through the standard input if there are none. -/
def overFiles (call : Invocation) (work : String → Bytes → Action Unit) :
    List String → Bool → Action Exit
  | [], sound => .done (.status (if sound then 0 else 1))
  | path :: rest, sound => do
    match ← contentsOf call path with
    | .ok bytes =>
      work path bytes
      overFiles call work rest sound
    | .error reason =>
      Action.complain (call.name ++ ": " ++ path ++ ": " ++ reason.words)
      overFiles call work rest false

/-- The contents of files, or of the standard input for a dash, with complaints about the others. -/
def readEach (call : Invocation) : List String → Bool → Action (Exit × List (String × Bytes))
  | [], sound => .done (.status (if sound then 0 else 1), [])
  | path :: rest, sound => do
    match ← contentsOf call path with
    | .ok bytes =>
      let (exit, files) ← readEach call rest sound
      .done (exit, (path, bytes) :: files)
    | .error reason =>
      Action.complain (call.name ++ ": " ++ path ++ ": " ++ reason.words)
      readEach call rest false

/-- The files that a program works through. -/
def filesOrInput (paths : List String) : List String :=
  if paths.isEmpty then ["-"] else paths

/-- Puts out what becomes of the contents of every file. -/
def mapFiles (call : Invocation) (work : Bytes → Bytes) (paths : List String) : Action Exit :=
  overFiles call (fun _ bytes => Action.put (work bytes)) (filesOrInput paths) true

/-- The contents of all files, one behind the other. -/
def joinFiles (call : Invocation) (paths : List String) : Action (Exit × Bytes) :=
  Action.capture (mapFiles call id paths)

/-! ## Lines -/

/-- The lines of some bytes, each with its line break if it has one. -/
def linesOf (bytes : Bytes) : List Bytes :=
  go [] bytes
where
  /-- The lines, of which the first one begins with the given bytes in reverse. -/
  go : Bytes → Bytes → List Bytes
    | [], [] => []
    | reversed, [] => [reversed.reverse]
    | reversed, byte :: rest =>
      if byte = 10 then (byte :: reversed).reverse :: go [] rest else go (byte :: reversed) rest

/-- A line without its line break. -/
def bare (line : Bytes) : Bytes :=
  if line.getLast? = some 10 then line.dropLast else line

/-- The pieces of some bytes between separators. -/
def splitBytes (separator : UInt8) : Bytes → List Bytes
  | [] => [[]]
  | byte :: rest =>
    if byte = separator then [] :: splitBytes separator rest
    else match splitBytes separator rest with
      | piece :: pieces => (byte :: piece) :: pieces
      | [] => [[byte]]

/-- Lines, each with a line break behind it. -/
def withBreaks (lines : List Bytes) : Bytes :=
  lines.flatMap (· ++ [10])

/-! ## Changes of the file tree -/

/-- Applies a change for every path and complains about those that are refused. -/
def changeEach (call : Invocation) (verb : String)
    (operation : String → Tree → Except OsError Tree) : List String → Bool → Action Exit
  | [], sound => .done (.status (if sound then 0 else 1))
  | path :: rest, sound => do
    match ← Action.change (operation path) with
    | none => changeEach call verb operation rest sound
    | some reason =>
      Action.complain (call.name ++ ": " ++ verb ++ " '" ++ path ++ "': " ++ reason.words)
      changeEach call verb operation rest false

end Tool

end Polyglot.Host
