import Polyglot.Host.Glob
import Polyglot.Host.Tool.Call

/-!
# Programs for files

These programs list, make, copy, move and remove files and directories, and take paths
apart.
-/

set_option autoImplicit false

namespace Polyglot.Host.Tool

open Polyglot.Text (Bytes utf8)

/-! ## Listing -/

/-- A node below a path with everything below it, each with its path, in order. -/
def descend : Nat → String → Node → List (String × Node)
  | 0, path, node => [(path, node)]
  | depth + 1, path, node =>
    (path, node) :: node.entries.flatMap fun entry => descend depth (path ++ "/" ++ entry.1) entry.2

/-- The greatest depth of a file tree that is looked at. -/
def deepest : Nat := 100

/-- A name with the sign of its kind. -/
def marked (flags : List Char) (name : String) (node : Node) : String :=
  if flags.contains 'F' then
    name ++ (match node with
      | .directory _ => "/"
      | .link _ => "@"
      | node => if node.isExecutable then "*" else "")
  else if flags.contains 'p' && node.isDirectory then name ++ "/"
  else name

/-- The lines for the entries of a directory. -/
def listing (flags : List Char) (node : Node) : String :=
  let inner := node.entries.filter fun entry =>
    flags.contains 'a' || flags.contains 'A' || entry.1.toList.head? != some '.'
  let names := inner.map fun entry => marked flags entry.1 entry.2
  let names := if flags.contains 'a' then "." :: ".." :: names else names
  String.join ((if flags.contains 'r' then names.reverse else names).map (· ++ "\n"))

/-- Lists files, and behind them directories, each in order. -/
def ls (call : Invocation) : Action Exit := do
  let (options, operands) := splitOptions call.arguments
  let flags := letters options
  let paths := if operands.isEmpty then ["."] else operands.mergeSort fun a b => a ≤ b
  let tree ← Action.tree
  let answers := paths.map fun path => (path, tree.lookup call.directory path)
  answers.forM fun answer => match answer.2 with
    | .error reason =>
      Action.complain (call.name ++ ": cannot access '" ++ answer.1 ++ "': " ++ reason.words)
    | .ok _ => .done ()
  let found := answers.filterMap fun answer => match answer.2 with
    | .ok (_, node) => some (answer.1, node)
    | .error _ => none
  let isListed (entry : String × Node) : Bool := entry.2.isDirectory && !flags.contains 'd'
  let files := String.join ((found.filter fun entry => !isListed entry).map fun entry =>
    marked flags entry.1 entry.2 ++ "\n")
  let directories := (found.filter isListed).flatMap fun entry =>
    if flags.contains 'R' then (descend deepest entry.1 entry.2).filter (·.2.isDirectory) else [entry]
  let headed := paths.length > 1 || flags.contains 'R'
  let blocks := directories.map fun entry =>
    (if headed then entry.1 ++ ":\n" else "") ++ listing flags entry.2
  Action.say ("\n".intercalate (if files.isEmpty then blocks else files :: blocks))
  .done (.status (if found.length = answers.length then 0 else 2))

/-- Finds everything below directories, by name and kind. -/
def find (call : Invocation) : Action Exit := do
  let paths := call.arguments.takeWhile fun argument => argument.toList.head? != some '-'
  let tests := call.arguments.drop paths.length
  let argumentOf (name : String) : Option String :=
    (tests.idxOf? name).bind fun position => tests[position + 1]?
  let tree ← Action.tree
  let lastName (path : String) : List Char := (path.toList.reverse.takeWhile (· != '/')).reverse
  let fits (entry : String × Node) : Bool :=
    (match argumentOf "-name" with
      | some pattern => Glob.covers (pattern.toList.map fun c => ⟨c, false⟩) (lastName entry.1)
      | none => true) &&
    (match argumentOf "-type", entry.2 with
      | some "d", .directory _ => true
      | some "l", .link _ => true
      | some "f", .file _ _ => true
      | some "f", .program _ => true
      | none, _ => true
      | _, _ => false)
  let below (path : String) (node : Node) : List (String × Node) :=
    match (argumentOf "-maxdepth").bind String.toNat? with
    | some depth => descend depth path node
    | none => descend deepest path node
  let sound ← (if paths.isEmpty then ["."] else paths).foldlM (fun sound path =>
    match tree.lookup call.directory path with
    | .ok (_, node) => do
      let found := ((below path node).filter fits).drop
        (if (argumentOf "-mindepth").isSome then 1 else 0)
      Action.say (String.join (found.map (·.1 ++ "\n")))
      .done sound
    | .error reason => do
      Action.complain (call.name ++ ": '" ++ path ++ "': " ++ reason.words)
      .done false) true
  .done (.status (if sound then 0 else 1))

/-- The permissions of a node in octal digits. -/
def permissions (node : Node) : String :=
  match node with
  | .link _ => "777"
  | .device _ => "666"
  | node => if node.isExecutable || node.isDirectory then "755" else "644"

/-- Tells what is known about files by a format. -/
def stat (call : Invocation) : Action Exit :=
  match valueOption 'c' call.arguments with
  | none => refuse call 1 "missing operand"
  | some (layout, paths) => do
    let tree ← Action.tree
    let rec filled (path : String) (node : Node) : List Char → String
      | '%' :: letter :: rest =>
        (match letter with
          | 'a' => permissions node
          | 'n' => path
          | 's' => toString (match node with
            | .file contents _ => contents.length
            | _ => 4096)
          | 'F' => (match node with
            | .directory _ => "directory"
            | .file [] _ => "regular empty file"
            | _ => "regular file")
          | 'u' => "0"
          | 'U' => "root"
          | letter => String.singleton letter) ++ filled path node rest
      | c :: rest => String.singleton c ++ filled path node rest
      | [] => "\n"
    let sound ← paths.foldlM (fun sound path =>
      match tree.lookup call.directory path with
      | .ok (_, node) => do
        Action.say (filled path node layout.toList)
        .done sound
      | .error reason => do
        Action.complain (call.name ++ ": cannot statx '" ++ path ++ "': " ++ reason.words)
        .done false) true
    .done (.status (if sound then 0 else 1))

/-! ## Making and removing -/

/-- Makes directories. -/
def mkdir (call : Invocation) : Action Exit :=
  let (options, paths) := splitOptions call.arguments
  let withParents := (letters options).contains 'p'
  if paths.isEmpty then misused call 1 "missing operand"
  else changeEach call "cannot create directory" (fun path tree =>
    if withParents then tree.makeDirectories call.directory path
    else tree.makeDirectory call.directory path) paths true

/-- Makes empty files, and leaves files alone that are there. -/
def touch (call : Invocation) : Action Exit :=
  let (_, paths) := splitOptions call.arguments
  if paths.isEmpty then misused call 1 "missing file operand"
  else changeEach call "cannot touch" (fun path tree =>
    match tree.lookup call.directory path with
    | .ok _ => .ok tree
    | .error _ => tree.write call.directory path [] false) paths true

/-- Removes files, and directories if asked to. -/
def rm (call : Invocation) : Action Exit :=
  let (options, paths) := splitOptions call.arguments
  let flags := letters options
  let deep := flags.contains 'r' || flags.contains 'R'
  if paths.isEmpty && !flags.contains 'f' then misused call 1 "missing operand"
  else changeEach call "cannot remove" (fun path tree =>
    match tree.locate call.directory path false with
    | .ok (_, none) => if flags.contains 'f' then .ok tree else .error .notFound
    | .ok (_, some (.directory _)) =>
      if deep then tree.remove call.directory path else .error .isDirectory
    | .ok _ => tree.remove call.directory path
    | .error reason => if flags.contains 'f' && reason == .notFound then .ok tree else .error reason)
    paths true

/-- Removes empty directories. -/
def rmdir (call : Invocation) : Action Exit :=
  let (_, paths) := splitOptions call.arguments
  if paths.isEmpty then misused call 1 "missing operand"
  else changeEach call "failed to remove" (fun path tree => do
    match ← tree.lookup call.directory path with
    | (_, .directory []) => tree.remove call.directory path
    | (_, .directory _) => .error .notEmpty
    | _ => .error .notDirectory) paths true

/-- The last name of a path. -/
def lastName (path : String) : String :=
  (Path.pieces path).getLast?.getD "/"

/-- The path of a file that goes to a destination: below it if it is a directory. -/
def destination (tree : Tree) (call : Invocation) (target source : String) : String :=
  if tree.isDirectory call.directory target then Path.join target (lastName source) else target

/-- Makes links. -/
def ln (call : Invocation) : Action Exit :=
  let (options, paths) := splitOptions call.arguments
  let flags := letters options
  let verb := if flags.contains 's' then "failed to create symbolic link" else "failed to create hard link"
  let cleared (tree : Tree) (path : String) : Tree :=
    if flags.contains 'f' then ((tree.remove call.directory path).toOption).getD tree else tree
  match paths with
  | [target] => changeEach call verb
      (fun path tree => (cleared tree path).makeLink call.directory target path) [lastName target] true
  | [target, path] => changeEach call verb (fun path tree =>
      let place := destination tree call path target
      if flags.contains 's' then (cleared tree place).makeLink call.directory target place
      else do
        let bytes ← tree.read call.directory target
        (cleared tree place).write call.directory place bytes false) [path] true
  | _ => misused call 1 "missing file operand"

/-- Copies or moves files. -/
def transfer (moves : Bool) (call : Invocation) : Action Exit := do
  let (options, paths) := splitOptions call.arguments
  let flags := letters options
  let deep := moves || flags.contains 'r' || flags.contains 'R' || flags.contains 'a'
  match paths.reverse with
  | [] => misused call 1 "missing file operand"
  | [only] => misused call 1 ("missing destination file operand after '" ++ only ++ "'")
  | target :: reversed => do
    let tree ← Action.tree
    let isLeftOut (source : String) : Bool := !deep && tree.isDirectory call.directory source
    let (left, sources) := reversed.reverse.partition isLeftOut
    left.forM fun source =>
      Action.complain (call.name ++ ": -r not specified; omitting directory '" ++ source ++ "'")
    changeEach call "cannot stat" (fun source tree => do
      let (location, node) ← tree.lookup call.directory source
      match ← tree.locate call.directory (destination tree call target source) true with
      | (place, _) => .ok ((if moves then tree.delete location else tree).put place node))
      sources left.isEmpty

/-- Changes the permission to execute files. -/
def chmod (call : Invocation) : Action Exit :=
  match call.arguments with
  | [] => misused call 1 "missing operand"
  | mode :: paths =>
    let executable := if mode.toList.contains 'x' then !mode.toList.contains '-'
      else mode.toList.any fun c => c == '1' || c == '3' || c == '5' || c == '7'
    let concerns := mode.toList.contains 'x' || mode.toList.all Char.isDigit
    changeEach call "cannot access" (fun path tree => do
      match ← tree.lookup call.directory path with
      | (location, .file contents _) =>
        .ok (if concerns then tree.put location (.file contents executable) else tree)
      | _ => .ok tree) paths true

/-- Cuts files to a size, or fills them up with zeros. -/
def truncate (call : Invocation) : Action Exit :=
  match valueOption 's' call.arguments with
  | none => misused call 1 "you must specify either '--size' or '--reference'"
  | some (size, paths) =>
    let count := size.toNat?.getD 0
    changeEach call "cannot open" (fun path tree => do
      let old := match tree.read call.directory path with
        | .ok bytes => bytes
        | .error _ => []
      tree.write call.directory path (old.take count ++ List.replicate (count - old.length) 0) false)
      paths true

/-- Copies blocks of bytes between files. -/
def dd (call : Invocation) : Action Exit := do
  let value? (key : String) : Option String :=
    call.arguments.findSome? fun argument =>
      if argument.toList.takeWhile (· != '=') = key.toList then
        some (String.ofList (argument.toList.drop (key.length + 1)))
      else none
  let size := ((value? "bs").bind String.toNat?).getD 512
  let count? := (value? "count").bind String.toNat?
  let tree ← Action.tree
  let input? ← match value? "if" with
    | none => do
      let bytes ← wholeInput
      .done (some bytes)
    | some path => match tree.lookup call.directory path with
      | .ok (_, .device true) => .done (some (List.replicate (size * count?.getD 0) 0))
      | _ => .done (tree.read call.directory path).toOption
  match input? with
  | none => refuse call 1 ("failed to open '" ++ (value? "if").getD "" ++ "': " ++ OsError.notFound.words)
  | some input => do
    let bytes := match count? with
      | some count => input.take (size * count)
      | none => input
    let report := toString (bytes.length / size) ++ "+" ++ (if bytes.length % size = 0 then "0" else "1") ++
      " records "
    match value? "of" with
    | none => Action.put bytes
    | some path => do
      let _ ← Action.change fun tree => tree.write call.directory path bytes false
      .done ()
    Action.complain (report ++ "in\n" ++ report ++ "out\n" ++ toString bytes.length ++
      " bytes copied, 0 s, 0 B/s")
    .done fine

/-! ## Comparing -/

/-- The position of the first difference between bytes, if there is one, and of the line it is in. -/
def difference : Nat → Nat → Bytes → Bytes → Option (Nat × Nat)
  | byte, line, a :: as_, b :: bs =>
    if a = b then difference (byte + 1) (if a = 10 then line + 1 else line) as_ bs else some (byte, line)
  | _, _, [], [] => none
  | byte, line, _, _ => some (byte, line)

/-- Tells whether two files hold the same bytes. -/
def cmp (call : Invocation) : Action Exit := do
  let (options, paths) := splitOptions call.arguments
  match paths with
  | [left, right] => do
    let tree ← Action.tree
    match tree.read call.directory left, tree.read call.directory right with
    | .ok a, .ok b =>
      match difference 1 1 a b with
      | none => .done fine
      | some (byte, line) => do
        if (letters options).contains 's' then .done ()
        else if a.length < byte || b.length < byte then
          Action.complain (call.name ++ ": EOF on " ++ (if a.length < byte then left else right) ++
            (if byte = 1 then " which is empty"
             else " after byte " ++ toString (byte - 1) ++ ", in line " ++ toString line))
        else
          Action.say (left ++ " " ++ right ++ " differ: byte " ++ toString byte ++ ", line " ++
            toString line ++ "\n")
        .done (.status 1)
    | .error reason, _ => refuse call 2 (left ++ ": " ++ reason.words)
    | _, .error reason => refuse call 2 (right ++ ": " ++ reason.words)
  | _ => misused call 2 "missing operand"

/-! ## Paths -/

/-- Prints the last name of a path, without an ending if one is given. -/
def basename (call : Invocation) : Action Exit := do
  let name := lastName (call.arguments.head?.getD "")
  let ending := (call.arguments.drop 1).head?.getD ""
  let chars := name.toList
  let stem := if chars.length > ending.length && chars.drop (chars.length - ending.length) == ending.toList
    then String.ofList (chars.take (chars.length - ending.length)) else name
  Action.say (stem ++ "\n")
  .done fine

/-- Prints a path without its last name. -/
def dirname (call : Invocation) : Action Exit := do
  let path := call.arguments.head?.getD ""
  let above := (Path.pieces path).dropLast
  let text := if Path.isAbsolute path then Tree.pathOf above
    else if above.isEmpty then "." else "/".intercalate above
  Action.say (text ++ "\n")
  .done fine

/-- The path of a place without links and steps upwards. -/
def truePath (tree : Tree) (directory path : String) : Except OsError String := do
  let (location, _) ← tree.lookup directory path
  .ok (Tree.pathOf location)

/-- Prints the directory in which it runs. -/
def pwd (call : Invocation) : Action Exit := do
  let tree ← Action.tree
  Action.say (((truePath tree "/" call.directory).toOption).getD call.directory ++ "\n")
  .done fine

/-- Prints paths without links and steps upwards. -/
def realpath (call : Invocation) : Action Exit := do
  let tree ← Action.tree
  let sound ← (splitOptions call.arguments).2.foldlM (fun sound path =>
    match truePath tree call.directory path with
    | .ok place => do
      Action.say (place ++ "\n")
      .done sound
    | .error reason => do
      Action.complain (call.name ++ ": " ++ path ++ ": " ++ reason.words)
      .done false) true
  .done (.status (if sound then 0 else 1))

/-- Prints where a link leads, in one step or in all. -/
def readlink (call : Invocation) : Action Exit := do
  let (options, paths) := splitOptions call.arguments
  let tree ← Action.tree
  let sound ← paths.foldlM (fun sound path =>
    let answer? := if (letters options).contains 'f' then
        (truePath tree call.directory path).toOption
      else match tree.locate call.directory path false with
        | .ok (_, some (.link target)) => some target
        | _ => none
    match answer? with
    | some answer => do
      Action.say (answer ++ "\n")
      .done sound
    | none => .done false) true
  .done (.status (if sound then 0 else 1))

end Polyglot.Host.Tool
