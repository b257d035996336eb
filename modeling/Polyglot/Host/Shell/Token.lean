import Polyglot.Host.Glob

/-!
# Words and tokens of the command language

A command text is cut into words and operators. A word is made of parts: plain text,
quoted text, and things that are replaced when the command runs. Commands to be
replaced by their output are kept as text and read when they are run.
-/

set_option autoImplicit false

namespace Polyglot.Host.Shell

/-- A part of a word. -/
inductive WordPart where
  /-- Text outside quotes. -/
  | plain (text : List Char)
  /-- Text inside quotes. -/
  | quoted (text : List Char)
  /-- The value of a variable, altered by an operator and a word if they are given. -/
  | value (name : String) (operator : String) (word : List Char) (inQuotes : Bool)
  /-- The output of a command. -/
  | output (source : List Char) (inQuotes : Bool)
  /-- The value of an arithmetic expression. -/
  | arithmetic (source : List Char) (inQuotes : Bool)
  deriving DecidableEq, Repr

/-- A word of a command. -/
abbrev Word := List WordPart

/-- A piece of a command text. -/
inductive Token where
  /-- A word. -/
  | word (parts : Word)
  /-- An operator or a line break. -/
  | operator (text : String)
  /-- A redirection, with the number of the stream in front of it if there is one. -/
  | redirection (stream : Option Nat) (text : String)
  deriving DecidableEq, Repr

/-- The backquote. -/
def backquote : Char := Char.ofNat 0x60

/-- The single quote. -/
def singleQuote : Char := Char.ofNat 0x27

/-- Whether a character may begin the name of a variable. -/
def isNameStart (c : Char) : Bool := c.isAlpha || c == '_'

/-- Whether a character may stand in the name of a variable. -/
def isNameChar (c : Char) : Bool := c.isAlphanum || c == '_'

/-- Whether a character is the name of a special variable. -/
def isSpecialName (c : Char) : Bool :=
  c.isDigit || c == '@' || c == '*' || c == '#' || c == '?' || c == '$' || c == '!' || c == '-'

/-- What is left open at the end of a command text. -/
inductive Unclosed where
  /-- A quote. -/
  | quote
  /-- A backquote. -/
  | backquote
  /-- The brace of a variable. -/
  | brace
  /-- The parenthesis of a command. -/
  | parenthesis
  /-- The parentheses of an arithmetic expression. -/
  | arithmetic
  deriving DecidableEq, Repr

/-- The complaint about something left open. -/
def Unclosed.message : Unclosed → String
  | .quote => "Unterminated quoted string"
  | .backquote => "EOF in backquote substitution"
  | .brace => "Missing '\x7d'"
  | .parenthesis => "end of file unexpected (expecting \")\")"
  | .arithmetic => "Missing '))'"

/--
The text up to the character that closes the outermost of some nested constructs, which
are given innermost first, and what stands behind it. Single quotes hide their contents.
-/
def upToClosing : Nat → List Unclosed → List Char → List Char → Except Unclosed (List Char × List Char)
  | 0, _, _, _ => .error .quote
  | _ + 1, [], reversed, rest => .ok (reversed.drop 1 |>.reverse, rest)
  | _ + 1, inner :: _, _, [] => .error inner
  | steps + 1, inner :: outer, reversed, c :: rest =>
    let close : Except Unclosed (List Char × List Char) := upToClosing steps outer (c :: reversed) rest
    let pass : Except Unclosed (List Char × List Char) :=
      upToClosing steps (inner :: outer) (c :: reversed) rest
    let open_ (construct : Unclosed) (next : Char) (rest : List Char) :
        Except Unclosed (List Char × List Char) :=
      upToClosing steps (construct :: inner :: outer) (next :: c :: reversed) rest
    if c = '\\' then
      match rest with
      | next :: rest => upToClosing steps (inner :: outer) (next :: c :: reversed) rest
      | [] => .error inner
    else if c = singleQuote ∧ inner ≠ .quote then
      let text := rest.takeWhile (· != singleQuote)
      match rest.drop text.length with
      | quote :: rest => upToClosing steps (inner :: outer) (quote :: text.reverse ++ c :: reversed) rest
      | [] => .error .quote
    else if c = '"' then
      if inner = .quote then close else upToClosing steps (.quote :: inner :: outer) (c :: reversed) rest
    else if c = backquote then
      if inner = .backquote then close
      else upToClosing steps (.backquote :: inner :: outer) (c :: reversed) rest
    else if c = ')' ∧ (inner = .parenthesis ∨ inner = .arithmetic) then close
    else if c = '\x7d' ∧ inner = .brace then close
    else if c = '(' ∧ (inner = .parenthesis ∨ inner = .arithmetic) then
      upToClosing steps (inner :: inner :: outer) (c :: reversed) rest
    else if c = '$' then
      match rest with
      | '(' :: rest => open_ .parenthesis '(' rest
      | '\x7b' :: rest => open_ .brace '\x7b' rest
      | _ => pass
    else pass

/-- The text up to the end of a construct that is open, and what stands behind it. -/
def upToEnd (construct : Unclosed) (chars : List Char) : Except Unclosed (List Char × List Char) :=
  upToClosing (chars.length + 2) [construct] [] chars

/-- Splits the inside of braces into a name, an operator and a word. -/
def readBraced (inQuotes : Bool) (inside : List Char) : WordPart :=
  let named (chars : List Char) : String × List Char :=
    match chars with
    | c :: rest =>
      if isNameStart c then
        let name := chars.takeWhile isNameChar
        (String.ofList name, chars.drop name.length)
      else if c.isDigit then
        let name := chars.takeWhile Char.isDigit
        (String.ofList name, chars.drop name.length)
      else (String.singleton c, rest)
    | [] => ("", [])
  match inside with
  | '#' :: c :: rest =>
    let (name, behind) := named (c :: rest)
    if behind.isEmpty then .value name "#" [] inQuotes else .value "#" "" [] inQuotes
  | inside =>
    let (name, rest) := named inside
    match rest with
    | ':' :: c :: word => .value name (String.ofList [':', c]) word inQuotes
    | '%' :: '%' :: word => .value name "%%" word inQuotes
    | '#' :: '#' :: word => .value name "##" word inQuotes
    | c :: word => .value name (String.singleton c) word inQuotes
    | [] => .value name "" [] inQuotes

/-- Reads what stands behind a dollar sign. -/
def readDollar (inQuotes : Bool) (chars : List Char) : Except Unclosed (WordPart × List Char) :=
  match chars with
  | '(' :: '(' :: rest => do
    let (source, behind) ← upToEnd .arithmetic rest
    match behind with
    | ')' :: behind => .ok (.arithmetic source inQuotes, behind)
    | _ => .error .arithmetic
  | '(' :: rest => do
    let (source, behind) ← upToEnd .parenthesis rest
    .ok (.output source inQuotes, behind)
  | '\x7b' :: rest => do
    let (source, behind) ← upToEnd .brace rest
    .ok (readBraced inQuotes source, behind)
  | c :: rest =>
    if isNameStart c then
      let name := chars.takeWhile isNameChar
      .ok (.value (String.ofList name) "" [] inQuotes, chars.drop name.length)
    else if isSpecialName c then .ok (.value (String.singleton c) "" [] inQuotes, rest)
    else .ok (if inQuotes then .quoted ['$'] else .plain ['$'], chars)
  | [] => .ok (if inQuotes then .quoted ['$'] else .plain ['$'], [])

/-- Text between backquotes with its own escapes removed. -/
def unescapeBackquoted : List Char → List Char
  | '\\' :: c :: rest =>
    if c = backquote ∨ c = '\\' ∨ c = '$' then c :: unescapeBackquoted rest
    else '\\' :: c :: unescapeBackquoted rest
  | c :: rest => c :: unescapeBackquoted rest
  | [] => []

/-- Reads the inside of double quotes and the closing quote. -/
def readDouble : Nat → Word → List Char → Except Unclosed (Word × List Char)
  | 0, _, _ => .error .quote
  | _ + 1, _, [] => .error .quote
  | steps + 1, reversed, c :: rest =>
    if c = '"' then .ok (reversed.reverse, rest)
    else if c = '\\' then
      match rest with
      | next :: rest =>
        if next = '\n' then readDouble steps reversed rest
        else if next = '$' ∨ next = backquote ∨ next = '"' ∨ next = '\\' then
          readDouble steps (.quoted [next] :: reversed) rest
        else readDouble steps (.quoted ['\\', next] :: reversed) rest
      | [] => .error .quote
    else if c = '$' then do
      let (part, rest) ← readDollar true rest
      readDouble steps (part :: reversed) rest
    else if c = backquote then do
      let (source, rest) ← upToEnd .backquote rest
      readDouble steps (.output (unescapeBackquoted source) true :: reversed) rest
    else readDouble steps (.quoted [c] :: reversed) rest

/-- Whether a character ends a word that is not quoted. -/
def endsWord (c : Char) : Bool :=
  c == ' ' || c == '\t' || c == '\n' || c == ';' || c == '&' || c == '|' || c == '<' || c == '>' ||
    c == '(' || c == ')'

/-- Reads a word. -/
def readWord : Nat → Word → List Char → Except Unclosed (Word × List Char)
  | 0, _, _ => .error .quote
  | _ + 1, reversed, [] => .ok (reversed.reverse, [])
  | steps + 1, reversed, c :: rest =>
    if endsWord c then .ok (reversed.reverse, c :: rest)
    else if c = '\\' then
      match rest with
      | '\n' :: rest => readWord steps reversed rest
      | next :: rest => readWord steps (.quoted [next] :: reversed) rest
      | [] => .ok ((.quoted ['\\'] :: reversed).reverse, [])
    else if c = singleQuote then
      let inner := rest.takeWhile (· != singleQuote)
      match rest.drop inner.length with
      | _ :: rest => readWord steps (.quoted inner :: reversed) rest
      | [] => .error .quote
    else if c = '"' then do
      let (parts, rest) ← readDouble (rest.length + 1) [] rest
      let parts := if parts.isEmpty then [.quoted []] else parts
      readWord steps (parts.reverse ++ reversed) rest
    else if c = '$' then do
      let (part, rest) ← readDollar false rest
      readWord steps (part :: reversed) rest
    else if c = backquote then do
      let (source, rest) ← upToEnd .backquote rest
      readWord steps (.output (unescapeBackquoted source) false :: reversed) rest
    else
      let text := (c :: rest).takeWhile fun c =>
        !endsWord c && c != '\\' && c != singleQuote && c != '"' && c != '$' && c != backquote
      readWord steps (.plain text :: reversed) ((c :: rest).drop text.length)

/-- The text of a word that is plain throughout. -/
def plainText? : Word → Option String
  | [.plain text] => some (String.ofList text)
  | _ => none

/-! ## Documents in a command text -/

/-- The text of a word without its quotes, as far as it is text. -/
def rawText (word : Word) : List Char :=
  word.flatMap fun part => match part with
    | .plain text => text
    | .quoted text => text
    | .value name _ _ _ => '$' :: name.toList
    | _ => []

/-- Whether a part of a word is quoted. -/
def hasQuotes (word : Word) : Bool :=
  word.any fun part => match part with
    | .quoted _ => true
    | _ => false

/-- A text as it is written in double quotes to keep its own double quotes. -/
def escapeQuotes : List Char → List Char
  | '\\' :: '"' :: rest => '\\' :: '\\' :: '\\' :: '"' :: escapeQuotes rest
  | '\\' :: c :: rest => '\\' :: c :: escapeQuotes rest
  | '"' :: rest => '\\' :: '"' :: escapeQuotes rest
  | c :: rest => c :: escapeQuotes rest
  | [] => []

/-- The lines up to one that holds only the given text, and what stands behind it. -/
def upToLine (end_ : List Char) (stripsTabs : Bool) : Nat → List Char → List Char × List Char
  | 0, chars => ([], chars)
  | steps + 1, chars =>
    if chars.isEmpty then ([], [])
    else
      let line := chars.takeWhile (· != '\n')
      let rest := chars.drop (line.length + 1)
      let shown := if stripsTabs then line.dropWhile (· == '\t') else line
      if shown = end_ then ([], rest)
      else
        let (document, behind) := upToLine end_ stripsTabs steps rest
        (shown ++ (if line.length < chars.length then '\n' :: document else document), behind)

/--
A document whose end is marked by a word: its text as a word, and the command text
without it. The document begins on the next line; it is taken as it stands if a part of
the mark is quoted.
-/
def takeDocument (stripsTabs : Bool) (chars : List Char) : Except Unclosed (Word × List Char) := do
  let (mark, rest) ← readWord (chars.length + 1) [] (chars.dropWhile fun c => c == ' ' || c == '\t')
  let line := rest.takeWhile (· != '\n')
  let (document, behind) :=
    upToLine (rawText mark) stripsTabs (rest.length + 1) (rest.drop (line.length + 1))
  let word ← if hasQuotes mark then .ok [.quoted document]
    else do
      let text := escapeQuotes document ++ ['"']
      .ok (← readDouble (text.length + 1) [] text).1
  .ok (word, line ++ (if line.length < rest.length then '\n' :: behind else behind))

/-! ## Tokens of a text -/

/-- Reads an operator, if one comes next. -/
def readOperator : List Char → Option (Token × List Char)
  | '&' :: '&' :: rest => some (.operator "&&", rest)
  | '|' :: '|' :: rest => some (.operator "||", rest)
  | ';' :: ';' :: rest => some (.operator ";;", rest)
  | '>' :: '>' :: rest => some (.redirection none ">>", rest)
  | '>' :: '&' :: rest => some (.redirection none ">&", rest)
  | '<' :: '&' :: rest => some (.redirection none "<&", rest)
  | '<' :: '<' :: '-' :: rest => some (.redirection none "<<-", rest)
  | '<' :: '<' :: rest => some (.redirection none "<<", rest)
  | '<' :: '>' :: rest => some (.redirection none "<>", rest)
  | '>' :: '|' :: rest => some (.redirection none ">", rest)
  | '>' :: rest => some (.redirection none ">", rest)
  | '<' :: rest => some (.redirection none "<", rest)
  | '&' :: rest => some (.operator "&", rest)
  | '|' :: rest => some (.operator "|", rest)
  | ';' :: rest => some (.operator ";", rest)
  | '(' :: rest => some (.operator "(", rest)
  | ')' :: rest => some (.operator ")", rest)
  | '\n' :: rest => some (.operator "\n", rest)
  | _ => none

/-- The tokens of a command text with their lines, and what is left open behind them. -/
def tokens : Nat → Nat → List Char → List (Token × Nat) × Option Unclosed
  | 0, _, _ => ([], none)
  | steps + 1, line, chars =>
    match chars with
    | [] => ([], none)
    | ' ' :: rest => tokens steps line rest
    | '\t' :: rest => tokens steps line rest
    | '\\' :: '\n' :: rest => tokens steps (line + 1) rest
    | '#' :: rest => tokens steps line (rest.dropWhile (· != '\n'))
    | chars =>
      let go (found : List Token) (breaks : Nat) (rest : List Char) :
          List (Token × Nat) × Option Unclosed :=
        let (others, unclosed) := tokens steps (line + breaks) rest
        (found.map (fun token => (token, line)) ++ others, unclosed)
      let redirected (stream : Option Nat) (operator : String) (rest : List Char) :
          List (Token × Nat) × Option Unclosed :=
        if operator = "<<" ∨ operator = "<<-" then
          if (rest.dropWhile fun c => c == ' ' || c == '\t').head?.all endsWord then
            go [.redirection stream "<<"] 0 rest
          else match takeDocument (operator == "<<-") rest with
            | .ok (document, rest) => go [.redirection stream "<<", .word document] 0 rest
            | .error unclosed => ([], some unclosed)
        else go [.redirection stream operator] 0 rest
      let digits := chars.takeWhile Char.isDigit
      match readOperator (chars.drop digits.length), readOperator chars with
      | some (.redirection _ operator, rest), _ =>
        redirected (String.ofList digits).toNat? operator rest
      | _, some (token, rest) => go [token] (if token = .operator "\n" then 1 else 0) rest
      | _, none =>
        match readWord (chars.length + 1) [] chars with
        | .ok (parts, rest) =>
          go [.word parts] ((chars.take (chars.length - rest.length)).count '\n') rest
        | .error unclosed => ([], some unclosed)

end Polyglot.Host.Shell
