import Polyglot.Host.Format
import Polyglot.Host.Regex
import Polyglot.Host.Tool.Call

/-!
# Programs for bytes and lines

These programs read files or their standard input and put out a changed, shortened,
rearranged or counted form of it.
-/

set_option autoImplicit false

namespace Polyglot.Host.Tool

open Polyglot.Text (Bytes utf8)

/-! ## Copying -/

/-- Copies the standard input to the standard output as it comes. -/
def copyInput : Nat → Action Exit
  | 0 => .done fine
  | steps + 1 => do
    let bytes ← Action.input .some
    if bytes.isEmpty then .done fine
    else
      Action.put bytes
      copyInput steps

/-- A number in front of a line. -/
def numbered (number : Nat) (line : Bytes) : Bytes :=
  let digits := utf8 (toString number)
  List.replicate (6 - digits.length) 32 ++ digits ++ 9 :: line

/-- Copies files to the standard output, with numbered lines or marked ends if asked to. -/
def cat (call : Invocation) : Action Exit :=
  let (options, paths) := splitOptions call.arguments
  let flags := letters options
  let shown (line : Bytes) : Bytes :=
    if flags.contains 'E' && line.getLast? == some 10 then bare line ++ [0x24, 10] else line
  if flags.contains 'n' then do
    let (exit, bytes) ← joinFiles call paths
    Action.put (((linesOf bytes).zipIdx 1).flatMap fun entry => numbered entry.2 (shown entry.1))
    .done exit
  else if flags.contains 'E' then mapFiles call (fun bytes => (linesOf bytes).flatMap shown) paths
  else if paths.isEmpty || paths == ["-"] then copyInput longLife
  else mapFiles call id paths

/-- Numbers the lines that are not empty, from the given number on. -/
def numberLines : Nat → List Bytes → Bytes
  | _, [] => []
  | number, line :: rest =>
    if line.isEmpty then List.replicate 7 32 ++ 10 :: numberLines number rest
    else numbered number line ++ 10 :: numberLines (number + 1) rest

/-- Numbers the lines that are not empty. -/
def nl (call : Invocation) : Action Exit := do
  let (exit, bytes) ← joinFiles call (splitOptions call.arguments).2
  Action.put (numberLines 1 ((linesOf bytes).map bare))
  .done exit

/-- Puts out lines in reverse order. -/
def tac (call : Invocation) : Action Exit :=
  mapFiles call (fun bytes => (linesOf bytes).reverse.flatten) call.arguments

/-- Puts out every line backwards. -/
def rev (call : Invocation) : Action Exit :=
  mapFiles call (fun bytes => (linesOf bytes).flatMap fun line =>
    (bare line).reverse ++ (if line.getLast? = some 10 then [10] else [])) call.arguments

/-- Copies the standard input to the standard output and to files. -/
def tee (call : Invocation) : Action Exit := do
  let (options, paths) := splitOptions call.arguments
  let atEnd := (letters options).contains 'a'
  let bytes ← wholeInput
  Action.put bytes
  changeEach call "cannot open" (fun path tree => tree.write call.directory path bytes atEnd)
    paths true

/-! ## Taking parts -/

/-- Copies lines from the standard input as they come, up to the given count. -/
def copyLines : Nat → Nat → Action Exit
  | 0, _ => .done fine
  | _ + 1, 0 => .done fine
  | steps + 1, count => do
    let bytes ← Action.input .some
    if bytes.isEmpty then .done fine
    else
      let lines := (linesOf bytes).take count
      Action.put lines.flatten
      copyLines steps (count - (lines.filter fun line => line.getLast? == some 10).length)

/-- What a count selects: items from one end, or all but some from the other end. -/
structure Extent where
  /-- The number of items. -/
  count : Nat
  /-- Whether the count stands for the items that are left out. -/
  rest : Bool
  deriving DecidableEq, Repr

/-- The extent that an option names; for the back of the input a plus begins at an item. -/
def Extent.ofText (front : Bool) (text : String) : Extent :=
  let digits := text.toList.filter Char.isDigit
  let count := (String.ofList digits).toNat?.getD 0
  if front then ⟨count, text.toList.head? == some '-'⟩
  else if text.toList.head? == some '+' then ⟨count - 1, true⟩
  else ⟨count, false⟩

/-- The selected items. -/
def Extent.take {α : Type} (extent : Extent) (front : Bool) (items : List α) : List α :=
  match front, extent.rest with
  | true, false => items.take extent.count
  | true, true => items.take (items.length - extent.count)
  | false, false => items.drop (items.length - extent.count)
  | false, true => items.drop extent.count

/-- Takes the front or the back of files, by bytes or by lines. -/
def endOf (front : Bool) (call : Invocation) : Action Exit :=
  let arguments := match call.arguments with
    | first :: rest =>
      let digits := first.toList.drop 1
      if first.toList.head? == some '-' && !digits.isEmpty && digits.all Char.isDigit then
        "-n" :: String.ofList digits :: rest
      else call.arguments
    | [] => []
  let (byBytes, extent, paths) : Bool × Extent × List String :=
    match valueOption 'c' arguments, valueOption 'n' arguments with
    | some (count, rest), _ => (true, .ofText front count, rest)
    | none, some (count, rest) => (false, .ofText front count, rest)
    | none, none => (false, ⟨10, false⟩, arguments)
  let work (bytes : Bytes) : Bytes :=
    if byBytes then extent.take front bytes else (extent.take front (linesOf bytes)).flatten
  let isZeros (tree : Tree) (path : String) : Bool :=
    match tree.lookup call.directory path with
    | .ok (_, .device zeros) => zeros
    | _ => false
  .look fun tree =>
    match paths with
    | [] =>
      if front && !byBytes && !extent.rest then copyLines longLife extent.count
      else mapFiles call work []
    | [path] =>
      if byBytes && isZeros tree path then do
        Action.put (List.replicate extent.count 0)
        .done fine
      else mapFiles call work [path]
    | paths =>
      let headed (path : String) (bytes : Bytes) : Action Unit := do
        Action.say ((if some path == paths.head? then "" else "\n") ++ "==> " ++ path ++ " <==\n")
        Action.put (work bytes)
      overFiles call headed paths true

/-- The positions that a list of ranges selects. -/
def selects (ranges : String) (position : Nat) : Bool :=
  (ranges.splitOn ",").any fun range =>
    match (range.splitOn "-").map String.toNat? with
    | [some only] => position == only
    | [some low, some high] => low ≤ position && position ≤ high
    | [some low, none] => low ≤ position
    | [none, some high] => position ≤ high
    | _ => false

/-- The elements at selected positions, counted from one. -/
def selected {α : Type} (ranges : String) (items : List α) : List α :=
  ((items.zipIdx 1).filter fun item => selects ranges item.2).map (·.1)

/-- Cuts positions or fields out of every line. -/
def cut (call : Invocation) : Action Exit :=
  let byPosition := (valueOption 'c' call.arguments).or (valueOption 'b' call.arguments)
  let (separator, arguments) := match valueOption 'd' call.arguments with
    | some (text, rest) => ((utf8 text).head?.getD 9, rest)
    | none => (9, call.arguments)
  let (onlyDelimited, arguments) := (arguments.contains "-s", arguments.filter (· != "-s"))
  let whole (work : Bytes → Option Bytes) (paths : List String) : Action Exit :=
    mapFiles call (fun bytes => withBreaks (((linesOf bytes).map bare).filterMap work)) paths
  match byPosition, valueOption 'f' arguments with
  | some (ranges, rest), _ => whole (fun line => some (selected ranges line)) rest
  | none, some (ranges, rest) =>
    whole (fun line =>
      if line.contains separator then
        some ([separator].intercalate (selected ranges (splitBytes separator line)))
      else if onlyDelimited then none else some line) rest
  | none, none => misused call 1 "you must specify a list of bytes, characters, or fields"

/-! ## Replacing characters -/

/-- The bytes of a class by name. -/
def classBytes (name : String) : Bytes :=
  let all := (List.range 128).map UInt8.ofNat
  let chosen (test : Char → Bool) := all.filter fun byte => test (Char.ofNat byte.toNat)
  match name with
  | "upper" => chosen Char.isUpper
  | "lower" => chosen Char.isLower
  | "digit" => chosen Char.isDigit
  | "alpha" => chosen Char.isAlpha
  | "alnum" => chosen Char.isAlphanum
  | "punct" => chosen fun c => 32 < c.toNat && c.toNat < 127 && !c.isAlphanum
  | "print" => chosen fun c => 32 ≤ c.toNat && c.toNat < 127
  | "cntrl" => chosen fun c => c.toNat < 32 || c.toNat == 127
  | "space" => [9, 10, 11, 12, 13, 32]
  | "blank" => [9, 32]
  | _ => []

/-- The bytes of a set of characters, with ranges, escapes and classes. -/
def setBytes : Nat → Bytes → Bytes
  | 0, _ => []
  | _ + 1, [] => []
  | steps + 1, 0x5B :: 0x3A :: rest =>
    let name := rest.takeWhile (· != 0x3A)
    classBytes (Text.lossy name) ++ setBytes steps (rest.drop (name.length + 2))
  | steps + 1, byte :: rest =>
    let (low, rest) :=
      if byte = 0x5C then
        match rest with
        | letter :: behind =>
          match controlOf? letter with
          | some control => (control, behind)
          | none =>
            if (octalDigit? letter).isSome then
              let (value, behind) := readOctal 3 0 rest
              (UInt8.ofNat value, behind)
            else (letter, behind)
        | [] => (byte, [])
      else (byte, rest)
    match rest with
    | 0x2D :: high :: behind =>
      ((List.range (high.toNat + 1 - low.toNat)).map fun i => UInt8.ofNat (low.toNat + i)) ++
        setBytes steps behind
    | rest => low :: setBytes steps rest

/-- The members of a set of characters. -/
def setOf (text : String) : Bytes :=
  let bytes := utf8 text
  setBytes (bytes.length + 1) bytes

/-- Removes the repetitions of neighbours that lie in a set. -/
def squeeze (inSet : UInt8 → Bool) : Bytes → Bytes
  | [] => []
  | [byte] => [byte]
  | byte :: next :: rest =>
    if byte = next ∧ inSet byte then squeeze inSet (next :: rest)
    else byte :: squeeze inSet (next :: rest)

/-- Replaces, deletes or squeezes characters of the standard input. -/
def tr (call : Invocation) : Action Exit :=
  let (options, sets) := splitOptions call.arguments
  let flags := letters options
  let complement := flags.contains 'c' || flags.contains 'C'
  match sets with
  | [] => misused call 1 "missing operand"
  | only :: others => do
    let first := setOf only
    let second := setOf (others.head?.getD "")
    let inFirst (byte : UInt8) : Bool := first.contains byte != complement
    let translate (byte : UInt8) : UInt8 :=
      if complement then if inFirst byte then second.getLast?.getD byte else byte
      else match first.idxOf? byte with
        | some i => (second[i]?).getD (second.getLast?.getD byte)
        | none => byte
    let bytes ← wholeInput
    let changed :=
      if flags.contains 'd' then bytes.filter fun byte => !inFirst byte
      else if second.isEmpty then bytes
      else bytes.map translate
    let squeezed (byte : UInt8) : Bool :=
      if others.isEmpty then inFirst byte else second.contains byte
    Action.put (if flags.contains 's' then squeeze squeezed changed else changed)
    .done fine

/-! ## Counting and arranging -/

/-- The number of words in some bytes. -/
def wordCount (bytes : Bytes) : Nat :=
  go false bytes
where
  /-- Counts on, inside or outside a word. -/
  go : Bool → Bytes → Nat
    | _, [] => 0
    | inside, byte :: rest =>
      if byte = 32 || (9 ≤ byte && byte ≤ 13) then go false rest
      else (if inside then 0 else 1) + go true rest

/-- A number at the right end of a field. -/
def padded (width n : Nat) : String :=
  let digits := toString n
  String.ofList (List.replicate (width - digits.length) ' ') ++ digits

/-- Counts lines, words and bytes, of each file and of several files together. -/
def wc (call : Invocation) : Action Exit := do
  let (options, paths) := splitOptions call.arguments
  let flags := letters options
  let isWanted (flag : Char) : Bool := flags.isEmpty || flags.contains flag
  let counts (bytes : Bytes) : List Nat :=
    (if isWanted 'l' then [bytes.count 10] else []) ++
    (if isWanted 'w' then [wordCount bytes] else []) ++
    (if flags.contains 'm' then [(Text.pieces bytes).length] else []) ++
    (if isWanted 'c' then [bytes.length] else [])
  let (exit, files) ← readEach call (filesOrInput paths) true
  let width := if paths.length < 2 && (counts []).length < 2 then 0
    else if paths.isEmpty then 7
    else (toString ((files.map fun file => file.2.length).foldl (· + ·) 0)).length
  let shown (numbers : List Nat) (name : String) : Action Unit :=
    Action.say (" ".intercalate (numbers.map (padded width)) ++ name ++ "\n")
  files.forM fun file => shown (counts file.2) (if paths.isEmpty then "" else " " ++ file.1)
  if paths.length > 1 then
    shown ((files.map fun file => counts file.2).foldl (fun sums numbers =>
      List.zipWith (· + ·) sums numbers) ((counts []).map fun _ => 0)) " total"
  .done exit

/-- Whether bytes stand before others in the order of their values. -/
def bytesLe : Bytes → Bytes → Bool
  | [], _ => true
  | _ :: _, [] => false
  | a :: as_, b :: bs => if a < b then true else if b < a then false else bytesLe as_ bs

/-- The field of a line with the given number, counted from one, between blanks. -/
def blankField (number : Nat) (line : Bytes) : Bytes :=
  let isBlank (byte : UInt8) : Bool := byte == 32 || byte == 9
  (((splitBytes 32 (line.map fun byte => if isBlank byte then 32 else byte)).filter
    fun piece => !piece.isEmpty)[number - 1]?).getD []

/-- Sorts lines. -/
def sort (call : Invocation) : Action Exit := do
  let (key, arguments) := match valueOption 'k' call.arguments with
    | some (text, rest) => ((String.ofList (text.toList.takeWhile Char.isDigit)).toNat?.getD 0, rest)
    | none => (0, call.arguments)
  let (options, paths) := splitOptions arguments
  let flags := letters options
  let part (line : Bytes) : Bytes := if key = 0 then line else blankField key line
  let rank (a b : Bytes) : Bool :=
    if flags.contains 'n' then
      if Numeral.leading (part a) = Numeral.leading (part b) then bytesLe a b
      else Numeral.leading (part a) < Numeral.leading (part b)
    else if part a = part b then bytesLe a b
    else bytesLe (part a) (part b)
  let order (a b : Bytes) : Bool := if flags.contains 'r' then rank b a else rank a b
  let (exit, bytes) ← joinFiles call paths
  let lines := ((linesOf bytes).map bare).mergeSort order
  Action.put (withBreaks (if flags.contains 'u' then lines.eraseDups else lines))
  .done exit

/-- The runs of equal neighbours, each with its length. -/
def runsOf : List Bytes → List (Bytes × Nat)
  | [] => []
  | line :: rest =>
    match runsOf rest with
    | (next, count) :: others =>
      if line = next then (line, count + 1) :: others else (line, 1) :: (next, count) :: others
    | [] => [(line, 1)]

/-- Removes the repetitions of neighbouring lines, or counts or selects them. -/
def uniq (call : Invocation) : Action Exit :=
  let (options, paths) := splitOptions call.arguments
  let flags := letters options
  let isShown (run : Bytes × Nat) : Bool :=
    (!flags.contains 'd' || run.2 > 1) && (!flags.contains 'u' || run.2 == 1)
  let shown (run : Bytes × Nat) : Bytes :=
    if flags.contains 'c' then utf8 (padded 7 run.2) ++ 32 :: run.1 else run.1
  mapFiles call (fun bytes =>
    withBreaks (((runsOf ((linesOf bytes).map bare)).filter isShown).map shown)) paths

/-- The lines of several files side by side. -/
def sideBySide : Nat → Bytes → List (List Bytes) → List Bytes
  | 0, _, _ => []
  | steps + 1, separator, files =>
    if files.all List.isEmpty then []
    else separator.intercalate (files.map fun lines => lines.head?.getD []) ::
      sideBySide steps separator (files.map (·.drop 1))

/-- Puts the lines of files side by side, or all lines of a file into one. -/
def paste (call : Invocation) : Action Exit := do
  let (separator, arguments) := match valueOption 'd' call.arguments with
    | some (text, rest) => ((unescaped (utf8 text)).1.take 1, rest)
    | none => ([9], call.arguments)
  let (options, paths) := splitOptions arguments
  let (exit, contents) ← readEach call (filesOrInput paths) true
  let files := contents.map fun file => (linesOf file.2).map bare
  let lines := if (letters options).contains 's' then files.map separator.intercalate
    else sideBySide longLife separator files
  Action.put (withBreaks lines)
  .done exit

/-- Cuts lines into pieces of at most the given length. -/
def fold (call : Invocation) : Action Exit :=
  let (width, paths) := match valueOption 'w' call.arguments with
    | some (text, rest) => (text.toNat?.getD 80, rest)
    | none => (80, call.arguments)
  let rec pieces : Nat → Bytes → List Bytes
    | 0, line => [line]
    | steps + 1, line =>
      if line.length ≤ width || width = 0 then [line]
      else line.take width :: pieces steps (line.drop width)
  mapFiles call (fun bytes => (linesOf bytes).flatMap fun line =>
    [10].intercalate (pieces line.length (bare line)) ++
      (if line.getLast? = some 10 then [10] else [])) paths

/-! ## Searching -/

/-- The letters of a text in lower case, as far as they are in ASCII. -/
def lowered (bytes : Bytes) : Bytes :=
  bytes.map fun byte => if 65 ≤ byte && byte ≤ 90 then byte + 32 else byte

/-- Selects the lines that contain a match. -/
def grep (call : Invocation) : Action Exit :=
  let (options, operands) := splitOptions call.arguments
  let flags := letters options
  match operands with
  | [] => do
    Action.complain "Usage: grep [OPTION]... PATTERNS [FILE]...\nTry 'grep --help' for more information."
    .done (.status 2)
  | pattern :: paths => do
    let plain (bytes : Bytes) : Bytes := if flags.contains 'i' then lowered bytes else bytes
    let sought := plain (utf8 pattern)
    let regex := if flags.contains 'F' then Regex.exactly sought
      else (Regex.read? (flags.contains 'E') sought).getD []
    let keep (entry : Bytes × Nat) : Bool :=
      let hit := match Regex.find regex true [] (plain entry.1) with
        | some (front, _, _, behind) => !flags.contains 'x' || (front.isEmpty && behind.isEmpty)
        | none => false
      hit != flags.contains 'v'
    let shown (name : String) (entry : Bytes × Nat) : Bytes :=
      let line := if flags.contains 'o' then
          match Regex.find regex true [] (plain entry.1) with
          | some (front, found, _, _) => (entry.1.drop front.length).take found.length
          | none => entry.1
        else entry.1
      utf8 (if flags.contains 'n' then name ++ toString entry.2 ++ ":" else name) ++ line
    let (exit, files) ← readEach call (filesOrInput paths) true
    let found := files.map fun file => (file.1, (((linesOf file.2).map bare).zipIdx 1).filter keep)
    found.forM fun file => do
      let name := if paths.length > 1 && !flags.contains 'h' then file.1 ++ ":" else ""
      if flags.contains 'q' then .done ()
      else if flags.contains 'l' then
        if file.2.isEmpty then .done ()
        else Action.say ((if file.1 = "-" then "(standard input)" else file.1) ++ "\n")
      else if flags.contains 'c' then Action.say (name ++ toString file.2.length ++ "\n")
      else Action.put (withBreaks (file.2.map (shown name)))
    .done (if exit != fine then .status 2
      else .status (if found.any fun file => !file.2.isEmpty then 0 else 1))

/-! ## Dumping -/

/-- The bytes in runs of the given length. -/
def chunks (length : Nat) : Nat → Bytes → List Bytes
  | 0, _ => []
  | steps + 1, bytes =>
    if bytes.isEmpty then [] else bytes.take length :: chunks length steps (bytes.drop length)

/-- Digits in a base, filled with zeros. -/
def filledDigits (base width n : Nat) : String :=
  let digits := Nat.toDigits base n
  String.ofList (List.replicate (width - digits.length) '0' ++ digits)

/-- A byte as a character, an escape or octal digits. -/
def namedByte (byte : UInt8) : String :=
  match byte.toNat with
  | 0 => "\\0"
  | 7 => "\\a"
  | 8 => "\\b"
  | 9 => "\\t"
  | 10 => "\\n"
  | 11 => "\\v"
  | 12 => "\\f"
  | 13 => "\\r"
  | n => if 32 ≤ n && n < 127 then String.singleton (Char.ofNat n) else filledDigits 8 3 n

/-- Shows the bytes of files with their offsets, as characters or numbers. -/
def od (call : Invocation) : Action Exit := do
  let flags := letters (call.arguments.filter fun argument => argument.toList.head? == some '-')
  let (addresses, rest) := match valueOption 'A' call.arguments with
    | some (kind, rest) => (kind != "n", rest)
    | none => (true, call.arguments)
  let (kind, rest) := match valueOption 't' rest with
    | some (kind, rest) => (kind, rest)
    | none => (if flags.contains 'c' then "c" else if flags.contains 'b' then "o1" else "o2", rest)
  let (exit, bytes) ← joinFiles call (splitOptions rest).2
  let shownByte (byte : UInt8) : String :=
    match kind with
    | "c" => let name := namedByte byte
      String.ofList (List.replicate (4 - name.length) ' ') ++ name
    | "x1" => " " ++ filledDigits 16 2 byte.toNat
    | "u1" => padded 4 byte.toNat
    | "d1" => let value := Int.bmod byte.toNat 256
      let text := toString value
      String.ofList (List.replicate (5 - text.length) ' ') ++ text
    | _ => " " ++ filledDigits 8 3 byte.toNat
  let rec pairs : Bytes → String
    | [] => ""
    | [byte] => " " ++ filledDigits 8 6 byte.toNat
    | low :: high :: rest => " " ++ filledDigits 8 6 (low.toNat + 256 * high.toNat) ++ pairs rest
  let shown (run : Bytes) : String :=
    if kind = "o2" then pairs run else String.join (run.map shownByte)
  let address (offset : Nat) : String := if addresses then filledDigits 8 7 offset else ""
  let lines := (chunks 16 (bytes.length + 1) bytes).zipIdx.map fun entry =>
    address (16 * entry.2) ++ shown entry.1 ++ "\n"
  Action.say (String.join lines ++ (if addresses then address bytes.length ++ "\n" else ""))
  .done exit

/-- The letters of the encoding by 64 printable characters. -/
def base64Letters : List Char :=
  "ABCDEFGHIJKLMNOPQRSTUVWXYZabcdefghijklmnopqrstuvwxyz0123456789+/".toList

/-- Three bytes as four letters; missing bytes are filled up. -/
def encodeTriple (bytes : Bytes) : Bytes :=
  let value := (bytes ++ List.replicate (3 - bytes.length) 0).foldl (fun n (byte : UInt8) => n * 256 + byte.toNat) 0
  let letter (i : Nat) : Char := (base64Letters[value / Nat.pow 64 (3 - i) % 64]?).getD 'A'
  utf8 (String.ofList ((List.range 4).map fun i => if i ≤ bytes.length then letter i else '='))

/-- Four letters as at most three bytes. -/
def decodeQuadruple (letters : Bytes) : Bytes :=
  let values := letters.filterMap fun byte => base64Letters.idxOf? (Char.ofNat byte.toNat)
  let value := (values ++ List.replicate (4 - values.length) 0).foldl (fun n digit => n * 64 + digit) 0
  ((List.range 3).map fun i => UInt8.ofNat (value / Nat.pow 256 (2 - i) % 256)).take (values.length - 1)

/-- Encodes bytes by 64 printable characters, or decodes them. -/
def base64 (call : Invocation) : Action Exit := do
  let (width, rest) := match valueOption 'w' call.arguments with
    | some (text, rest) => (text.toNat?.getD 76, rest)
    | none => (76, call.arguments)
  let (options, paths) := splitOptions rest
  let (exit, bytes) ← joinFiles call paths
  if (letters options).contains 'd' then
    let kept := bytes.filter (· != 10)
    Action.put ((chunks 4 (kept.length + 1) kept).flatMap decodeQuadruple)
  else
    let text := (chunks 3 (bytes.length + 1) bytes).flatMap encodeTriple
    Action.put (if width = 0 then text else withBreaks (chunks width (text.length + 1) text))
  .done exit

end Polyglot.Host.Tool
