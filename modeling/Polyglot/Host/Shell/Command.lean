import Polyglot.Host.Shell.Token

/-!
# Commands of the command language

Commands are simple ones, pipelines, conditional and repeated ones, groups and
function definitions. A command text is read line by line, where a command may go on
over several lines, so that the lines in front of a mistake are still run.
-/

set_option autoImplicit false

namespace Polyglot.Host.Shell

/-- A redirection of a stream. -/
structure Redirect where
  /-- The number of the stream. -/
  stream : Nat
  /-- The operator. -/
  operator : String
  /-- The file, or the number of another stream. -/
  target : Word
  deriving DecidableEq, Repr

/-- A command. -/
inductive Command where
  /-- Nothing. -/
  | nothing
  /-- Assignments, words and redirections on a line. -/
  | simple (line : Nat) (assignments : List (String × Word)) (words : List Word)
      (redirects : List Redirect)
  /-- The output of one command is the input of another. -/
  | pipe (left right : Command)
  /-- The opposite status. -/
  | negated (command : Command)
  /-- The second command runs if the first one succeeds. -/
  | both (left right : Command)
  /-- The second command runs if the first one fails. -/
  | either (left right : Command)
  /-- One command after the other. -/
  | sequence (left right : Command)
  /-- A command that nobody waits for. -/
  | background (command : Command)
  /-- A group of commands, in a process of its own or not. -/
  | group (separate : Bool) (body : Command) (redirects : List Redirect)
  /-- One of two commands, as a condition decides. -/
  | branch (condition yes no : Command)
  /-- A command that runs while a condition succeeds, or until it does. -/
  | loop (untilSuccess : Bool) (condition body : Command)
  /-- A command that runs for every word, or for every argument. -/
  | each (name : String) (words : Option (List Word)) (body : Command)
  /-- The first command whose patterns match a word. -/
  | choice (word : Word) (arms : List (List Word × Command))
  /-- The definition of a function. -/
  | define (name : String) (body : Command)
  deriving Repr

/-- The tokens that are left, with their lines. -/
abbrev Tokens := List (Token × Nat)

/-- Where reading stops, and what should stand there. -/
structure Mistake where
  /-- The tokens that are left. -/
  rest : Tokens
  /-- What should stand there, if that is known. -/
  expecting : Option String
  /-- The complaint, if it does not name the token that stands there. -/
  complaint : Option String
  deriving Repr

/-- What is being read, or where reading stops. -/
abbrev Reading (α : Type) := Except Mistake α

/-- Nothing fits the tokens that are left. -/
def unexpected {α : Type} (rest : Tokens) : Reading α :=
  .error ⟨rest, none, none⟩

/-- Something else should stand in front of the tokens that are left. -/
def expecting {α : Type} (what : String) (rest : Tokens) : Reading α :=
  .error ⟨rest, some what, none⟩

/-- The tokens that are left are wrong for another reason. -/
def mistaken {α : Type} (complaint : String) (rest : Tokens) : Reading α :=
  .error ⟨rest, none, some complaint⟩

/-- What is left behind the line breaks that come next. -/
def skipBreaks : Tokens → Tokens
  | (.operator "\n", _) :: rest => skipBreaks rest
  | tokens => tokens

/-- The word that comes next, if it is plain. -/
def nextPlain? : Tokens → Option String
  | (.word parts, _) :: _ => plainText? parts
  | _ => none

/-- Consumes a plain word that must come next. -/
def expectWord (text : String) (tokens : Tokens) : Reading Tokens :=
  if nextPlain? tokens = some text then .ok (tokens.drop 1)
  else expecting ("\"" ++ text ++ "\"") tokens

/-- Consumes an operator that must come next. -/
def expectOperator (text : String) (tokens : Tokens) : Reading Tokens :=
  match tokens with
  | (.operator found, _) :: rest =>
    if found = text then .ok rest else expecting ("\"" ++ text ++ "\"") tokens
  | _ => expecting ("\"" ++ text ++ "\"") tokens

/-- Whether a text is the name of a variable or a function. -/
def isName (text : String) : Bool :=
  text.toList.head?.any isNameStart && text.toList.all isNameChar

/-- The words that end or divide compound commands. -/
def closers : List String := ["then", "else", "elif", "fi", "do", "done", "esac", "in", "\x7d"]

/-- Splits an assignment off a word. -/
def assignment? : Word → Option (String × Word)
  | .plain text :: rest =>
    let name := text.takeWhile isNameChar
    match text.drop name.length, name.head? with
    | '=' :: value, some c =>
      if isNameStart c then
        some (String.ofList name, if value.isEmpty then rest else .plain value :: rest)
      else none
    | _, _ => none
  | _ => none

/-- The stream that a redirection changes when no number is given. -/
def defaultStream (operator : String) : Nat :=
  if operator.toList.head? = some '<' then 0 else 1

/-- Reads the redirections that come next. -/
def readRedirects : Nat → Tokens → Reading (List Redirect × Tokens)
  | 0, tokens => .ok ([], tokens)
  | steps + 1, tokens =>
    match tokens with
    | (.redirection stream operator, _) :: (.word target, _) :: rest => do
      let (others, rest) ← readRedirects steps rest
      .ok (⟨stream.getD (defaultStream operator), operator, target⟩ :: others, rest)
    | (.redirection _ _, _) :: rest => unexpected rest
    | tokens => .ok ([], tokens)

/-- Reads the rest of a simple command. -/
def readSimple (line : Nat) : Nat → List (String × Word) → List Word → List Redirect → Tokens →
    Reading (Command × Tokens)
  | 0, assignments, words, redirects, tokens =>
    .ok (.simple line assignments.reverse words.reverse redirects.reverse, tokens)
  | steps + 1, assignments, words, redirects, tokens =>
    match tokens with
    | (.redirection stream operator, _) :: (.word target, _) :: rest =>
      readSimple line steps assignments words
        (⟨stream.getD (defaultStream operator), operator, target⟩ :: redirects) rest
    | (.redirection _ _, _) :: rest => unexpected rest
    | (.word parts, _) :: rest =>
      match words, assignment? parts with
      | [], some assignment => readSimple line steps (assignment :: assignments) words redirects rest
      | _, _ => readSimple line steps assignments (parts :: words) redirects rest
    | tokens => .ok (.simple line assignments.reverse words.reverse redirects.reverse, tokens)

/-- Reads words up to the end of a list of words. -/
def readWords : Tokens → List Word × Tokens
  | (.word parts, _) :: rest =>
    let (others, rest) := readWords rest
    (parts :: others, rest)
  | tokens => ([], tokens)

/-- Reads the patterns of an arm. -/
def readPatterns : Tokens → Reading (List Word × Tokens)
  | (.word parts, _) :: (.operator "|", _) :: rest => do
    let (others, rest) ← readPatterns rest
    .ok (parts :: others, rest)
  | (.word parts, _) :: (.operator ")", _) :: rest => .ok ([parts], rest)
  | (.word _, _) :: rest => expecting "\")\"" rest
  | tokens => expecting "\")\"" tokens

mutual

/-- Reads commands up to a word or operator that cannot begin one. -/
def readList : Nat → Tokens → Reading (Command × Tokens)
  | 0, tokens => unexpected tokens
  | steps + 1, tokens => do
    let tokens := skipBreaks tokens
    let ended := match tokens with
      | [] => true
      | (.operator ")", _) :: _ => true
      | (.operator ";;", _) :: _ => true
      | tokens => match nextPlain? tokens with
        | some text => closers.contains text
        | none => false
    if ended then .ok (.nothing, tokens)
    else
      let (command, rest) ← readChain steps tokens
      let go (command : Command) (rest : Tokens) : Reading (Command × Tokens) := do
        let (others, rest) ← readList steps rest
        match others with
        | .nothing => .ok (command, rest)
        | others => .ok (.sequence command others, rest)
      match rest with
      | (.operator ";", _) :: rest => go command rest
      | (.operator "&", _) :: rest => go (.background command) rest
      | (.operator "\n", _) :: rest => go command rest
      | rest => .ok (command, rest)

/-- Reads commands of which there must be one, unless the text ends. -/
def readSome : Nat → Tokens → Reading (Command × Tokens)
  | 0, tokens => unexpected tokens
  | steps + 1, tokens => do
    match ← readList steps tokens with
    | (.nothing, []) => .ok (.nothing, [])
    | (.nothing, rest) => unexpected rest
    | found => .ok found

/-- Reads pipelines that depend on each other. -/
def readChain : Nat → Tokens → Reading (Command × Tokens)
  | 0, tokens => unexpected tokens
  | steps + 1, tokens => do
    let (first, rest) ← readPipeline steps tokens
    readChainRest steps first rest

/-- Reads on behind a pipeline. -/
def readChainRest : Nat → Command → Tokens → Reading (Command × Tokens)
  | 0, _, tokens => unexpected tokens
  | steps + 1, left, tokens =>
    match tokens with
    | (.operator "&&", _) :: rest => do
      let (right, rest) ← readPipeline steps (skipBreaks rest)
      readChainRest steps (.both left right) rest
    | (.operator "||", _) :: rest => do
      let (right, rest) ← readPipeline steps (skipBreaks rest)
      readChainRest steps (.either left right) rest
    | tokens => .ok (left, tokens)

/-- Reads a pipeline. -/
def readPipeline : Nat → Tokens → Reading (Command × Tokens)
  | 0, tokens => unexpected tokens
  | steps + 1, tokens => do
    if nextPlain? tokens = some "!" then
      let (command, rest) ← readPipeline steps (tokens.drop 1)
      .ok (.negated command, rest)
    else
      let (first, rest) ← readCommand steps tokens
      match rest with
      | (.operator "|", _) :: rest =>
        let (others, rest) ← readPipeline steps (skipBreaks rest)
        .ok (.pipe first others, rest)
      | rest => .ok (first, rest)

/-- Reads the rest of a condition behind its first word. -/
def readBranch : Nat → Tokens → Reading (Command × Tokens)
  | 0, tokens => unexpected tokens
  | steps + 1, tokens => do
    let (condition, rest) ← readSome steps tokens
    let (yes, rest) ← readSome steps (← expectWord "then" rest)
    match nextPlain? rest with
    | some "elif" =>
      let (no, rest) ← readBranch steps (rest.drop 1)
      .ok (.branch condition yes no, rest)
    | some "else" =>
      let (no, rest) ← readSome steps (rest.drop 1)
      .ok (.branch condition yes no, ← expectWord "fi" rest)
    | _ => .ok (.branch condition yes .nothing, ← expectWord "fi" rest)

/-- Reads the body of a loop. -/
def readBody : Nat → Tokens → Reading (Command × Tokens)
  | 0, tokens => unexpected tokens
  | steps + 1, tokens => do
    let (body, rest) ← readSome steps (← expectWord "do" (skipBreaks tokens))
    .ok (body, ← expectWord "done" rest)

/-- Reads the arms of a choice. -/
def readArms : Nat → Tokens → Reading (List (List Word × Command) × Tokens)
  | 0, tokens => unexpected tokens
  | steps + 1, tokens => do
    let tokens := skipBreaks tokens
    if nextPlain? tokens = some "esac" then .ok ([], tokens.drop 1)
    else
      let tokens := match tokens with
        | (.operator "(", _) :: rest => rest
        | tokens => tokens
      let (patterns, rest) ← readPatterns tokens
      let (body, rest) ← readList steps rest
      let rest := match rest with
        | (.operator ";;", _) :: rest => rest
        | rest => rest
      let (others, rest) ← readArms steps rest
      .ok ((patterns, body) :: others, rest)

/-- Reads one command. -/
def readCommand : Nat → Tokens → Reading (Command × Tokens)
  | 0, tokens => unexpected tokens
  | steps + 1, tokens => do
    let redirected (command : Command) (rest : Tokens) : Reading (Command × Tokens) := do
      let (redirects, rest) ← readRedirects rest.length rest
      .ok (if redirects.isEmpty then command else .group false command redirects, rest)
    match tokens with
    | (.operator "(", _) :: rest =>
      let (body, rest) ← readSome steps rest
      let (redirects, rest) ← readRedirects rest.length (← expectOperator ")" rest)
      .ok (.group true body redirects, rest)
    | (.word parts, line) :: rest =>
      match plainText? parts with
      | some "\x7b" =>
        let (body, rest) ← readSome steps rest
        redirected body (← expectWord "\x7d" rest)
      | some "if" =>
        let (command, rest) ← readBranch steps rest
        redirected command rest
      | some "while" =>
        let (condition, rest) ← readSome steps rest
        let (body, rest) ← readBody steps rest
        redirected (.loop false condition body) rest
      | some "until" =>
        let (condition, rest) ← readSome steps rest
        let (body, rest) ← readBody steps rest
        redirected (.loop true condition body) rest
      | some "for" =>
        match nextPlain? rest with
        | none => mistaken "Bad for loop variable" rest
        | some name =>
          if !isName name then mistaken "Bad for loop variable" rest
          else
            let rest := skipBreaks (rest.drop 1)
            let (words, rest) := match nextPlain? rest with
              | some "in" =>
                let (words, rest) := readWords (rest.drop 1)
                (some words, rest)
              | _ => (none, rest)
            match words, rest with
            | some _, [] => unexpected []
            | words, rest =>
              let rest := match rest with
                | (.operator ";", _) :: rest => rest
                | rest => rest
              let (body, rest) ← readBody steps rest
              redirected (.each name words body) rest
      | some "case" =>
        match rest with
        | (.word subject, _) :: rest =>
          let (arms, rest) ← readArms steps (← expectWord "in" (skipBreaks rest))
          redirected (.choice subject arms) rest
        | rest => expecting "word" rest
      | some text =>
        if closers.contains text then unexpected tokens
        else match rest with
          | (.operator "(", _) :: (.operator ")", _) :: rest =>
            if !isName text then mistaken "Bad function name" rest
            else
              let (body, rest) ← readCommand steps (skipBreaks rest)
              .ok (.define text body, rest)
          | (.operator "(", _) :: rest => expecting "\")\"" rest
          | _ => readSimple line tokens.length [] [] [] tokens
      | none => readSimple line tokens.length [] [] [] tokens
    | (.redirection _ _, line) :: _ => readSimple line tokens.length [] [] [] tokens
    | tokens => unexpected tokens

end

/-- A command text: the commands of its lines, and the complaint about the first mistake. -/
structure Script where
  /-- The commands in order. -/
  commands : List Command
  /-- The line of the first mistake, and what is wrong there. -/
  mistake : Option (Nat × String)
  deriving Repr

/-- The complaint about the tokens at which reading stopped. -/
def complaintAt (lastLine : Nat) (unclosed : Option Unclosed) (mistake : Mistake) : Nat × String :=
  let line := (mistake.rest.head?.map (·.2)).getD lastLine
  match mistake.complaint, mistake.rest, unclosed with
  | some complaint, _, _ => (line, complaint)
  | none, [], some unclosed => (lastLine, unclosed.message)
  | none, rest, _ =>
    let found := match rest with
      | [] => "end of file"
      | (.operator "\n", _) :: _ => "newline"
      | (.operator text, _) :: _ => "\"" ++ text ++ "\""
      | (.redirection _ _, _) :: _ => "redirection"
      | (.word parts, _) :: _ =>
        match plainText? parts with
        | some text => if closers.contains text then "\"" ++ text ++ "\"" else "word"
        | none => "word"
    let expected := match mistake.expecting with
      | some what => " (expecting " ++ what ++ ")"
      | none => ""
    (line, found ++ " unexpected" ++ expected)

/-- Reads the commands up to the end of a line that ends no command too early. -/
def readLineOfCommands : Nat → Tokens → Reading (Command × Tokens)
  | 0, tokens => unexpected tokens
  | steps + 1, tokens => do
    let (command, rest) ← readChain (4 * tokens.length + 20) tokens
    let go (command : Command) (rest : Tokens) : Reading (Command × Tokens) :=
      match rest with
      | [] => .ok (command, [])
      | (.operator "\n", _) :: rest => .ok (command, rest)
      | rest => do
        let (others, rest) ← readLineOfCommands steps rest
        .ok (.sequence command others, rest)
    match rest with
    | [] => .ok (command, [])
    | (.operator "\n", _) :: rest => .ok (command, rest)
    | (.operator ";", _) :: rest => go command rest
    | (.operator "&", _) :: rest => go (.background command) rest
    | rest => unexpected rest

/-- Reads the commands of all lines. -/
def readLines (lastLine : Nat) (unclosed : Option Unclosed) : Nat → Tokens → Script
  | 0, _ => ⟨[], none⟩
  | steps + 1, tokens =>
    match skipBreaks tokens with
    | [] => ⟨[], unclosed.map fun unclosed => (lastLine, unclosed.message)⟩
    | tokens =>
      match readLineOfCommands (tokens.length + 1) tokens with
      | .error mistake => ⟨[], some (complaintAt lastLine unclosed mistake)⟩
      | .ok (command, rest) =>
        if rest.isEmpty && unclosed.isSome then
          ⟨[], unclosed.map fun unclosed => (lastLine, unclosed.message)⟩
        else
          let script := readLines lastLine unclosed steps rest
          ⟨command :: script.commands, script.mistake⟩

/-- The script that a command text denotes. -/
def Script.ofText (text : List Char) : Script :=
  let (found, unclosed) := tokens (text.length + 1) 1 text
  readLines (text.count '\n' + 1) unclosed (found.length + 1) found

end Polyglot.Host.Shell
