import Polyglot.Host.OsError
import Polyglot.Path
import Polyglot.Table
import Polyglot.Text.Utf8

/-!
# The file tree

A tree of directories holds files, installed programs, two devices and symbolic links.
A location is the list of names from the root to a place in the tree; a path is a text
that is followed, link by link, to a location.

An operation either succeeds and answers the changed tree, or is refused and changes
nothing; only the making of missing ancestors may stop half-way.
-/

set_option autoImplicit false

namespace Polyglot.Host

open Polyglot.Text (Bytes)

/-- What stands at a place in the tree. -/
inductive Node where
  /-- A file with its contents. -/
  | file (contents : Bytes) (executable : Bool)
  /-- An installed program, known by its name. -/
  | program (name : String)
  /-- A device that swallows what is written, and yields nothing or zeros. -/
  | device (zeros : Bool)
  /-- A directory with its entries in the order of their names. -/
  | directory (entries : List (String × Node))
  /-- A symbolic link. -/
  | link (target : String)
  deriving Repr

/-- The names from the root to a place. -/
abbrev Location := List String

namespace Node

/-- A directory without entries. -/
def emptyDirectory : Node := .directory []

/-- Whether the node is a directory. -/
def isDirectory : Node → Bool
  | .directory _ => true
  | _ => false

/-- Whether the node can be started as a program. -/
def isExecutable : Node → Bool
  | .file _ executable => executable
  | .program _ => true
  | _ => false

/-- The entries of a directory. -/
def entries : Node → List (String × Node)
  | .directory entries => entries
  | _ => []

/-- What stands at a location. -/
def get? : Location → Node → Option Node
  | [], node => some node
  | name :: rest, .directory entries => (Table.find? name entries).bind (get? rest)
  | _ :: _, _ => none

/-- The tree with a node put at a location whose directory exists. -/
def put : Node → Location → Node → Node
  | _, [], new => new
  | .directory entries, name :: rest, new =>
    let child := (Table.find? name entries).getD emptyDirectory
    .directory (Table.insert name (put child rest new) entries)
  | node, _ :: _, _ => node

/-- The tree without what stands at a location. -/
def delete : Location → Node → Node
  | [name], .directory entries => .directory (entries.filter fun entry => entry.1 != name)
  | name :: rest, .directory entries =>
    match Table.find? name entries with
    | some child => .directory (Table.insert name (delete rest child) entries)
    | none => .directory entries
  | _, node => node

end Node

/-- A file tree. -/
abbrev Tree := Node

namespace Tree

/-- The greatest number of bytes in a name. -/
def nameLimit : Nat := 255

/-- The number of bytes in a path that is too long. -/
def pathLimit : Nat := 4096

/-- Follows the steps of a path from a location, with a bound on the number of steps. -/
def follow (tree : Tree) (throughLast : Bool) :
    Nat → Location → List String → Except OsError (Location × Option Node)
  | _, here, [] => .ok (here, tree.get? here)
  | 0, _, _ => .error .tooManyLinks
  | steps + 1, here, step :: rest =>
    match tree.get? here with
    | some (.directory entries) =>
      if step = "." then follow tree throughLast steps here rest
      else if step = ".." then follow tree throughLast steps here.dropLast rest
      else if nameLimit < step.utf8ByteSize then .error .nameTooLong
      else match Table.find? step entries with
        | none => if rest.isEmpty then .ok (here ++ [step], none) else .error .notFound
        | some (.link target) =>
          if rest.isEmpty && !throughLast then .ok (here ++ [step], some (.link target))
          else
            let origin := if Path.isAbsolute target then [] else here
            follow tree throughLast steps origin (Path.pieces target ++ rest)
        | some _ => follow tree throughLast steps (here ++ [step]) rest
    | some _ => .error .notDirectory
    | none => .error .notFound

/-- The location of a path taken relative to a directory, and what stands there. -/
def locate (tree : Tree) (directory path : String) (throughLast : Bool) :
    Except OsError (Location × Option Node) :=
  if path.toList.any fun c => c.toNat == 0 then .error .zeroInName
  else if path.isEmpty then .error .notFound
  else if pathLimit ≤ path.utf8ByteSize then .error .nameTooLong
  else
    let whole := Path.join directory path
    let steps := Path.pieces whole
    tree.follow (throughLast || Path.endsInSlash path) (steps.length + 200) [] steps

/-- What a path leads to. -/
def lookup (tree : Tree) (directory path : String) : Except OsError (Location × Node) := do
  match ← tree.locate directory path true with
  | (_, none) => .error .notFound
  | (location, some node) =>
    if Path.endsInSlash path && !node.isDirectory then .error .notDirectory
    else .ok (location, node)

/-- Whether a path leads to a directory. -/
def isDirectory (tree : Tree) (directory path : String) : Bool :=
  match tree.lookup directory path with
  | .ok (_, node) => node.isDirectory
  | .error _ => false

/-- The contents of the file that a path leads to. -/
def read (tree : Tree) (directory path : String) : Except OsError Bytes := do
  match ← tree.lookup directory path with
  | (_, .file contents _) => .ok contents
  | (_, .directory _) => .error .isDirectory
  | _ => .ok []

/-- The tree with a file of the given contents; an old file keeps its permissions. -/
def write (tree : Tree) (directory path : String) (contents : Bytes) (atEnd : Bool) :
    Except OsError Tree := do
  match ← tree.locate directory path true with
  | (location, none) =>
    if Path.endsInSlash path then .error .isDirectory
    else .ok (tree.put location (.file contents false))
  | (location, some node) =>
    if Path.endsInSlash path && !node.isDirectory then .error .notDirectory
    else match node with
      | .directory _ => .error .isDirectory
      | .file old executable =>
        .ok (tree.put location (.file (if atEnd then old ++ contents else contents) executable))
      | .program _ => .error .accessDenied
      | _ => .ok tree

/-- The tree with one more directory. -/
def makeDirectory (tree : Tree) (directory path : String) : Except OsError Tree := do
  match ← tree.locate directory path false with
  | (_, some _) => .error .exists
  | (location, none) => .ok (tree.put location .emptyDirectory)

/-- The paths from a path up to its outermost ancestor. -/
def ancestry (path : String) : List String :=
  go (Path.components path).reverse
where
  /-- The paths of the reversed components and of all their ends. -/
  go : List Path.Component → List String
    | [] => []
    | last :: above =>
      (last :: above).reverse.foldl (fun path step => Path.join path step.text) "" :: go above

/--
Makes the missing directories of a list of paths, of which each is the parent of the
one before. What was made before a refusal stays.
-/
def makeChain (tree : Tree) (directory : String) : List String → Except OsError Unit × Tree
  | [] => (.error .notFound, tree)
  | path :: parents =>
    match tree.makeDirectory directory path with
    | .ok tree => (.ok (), tree)
    | .error .notFound =>
      match makeChain tree directory parents with
      | (.error reason, tree) => (.error reason, tree)
      | (.ok _, tree) =>
        match tree.makeDirectory directory path with
        | .ok tree => (.ok (), tree)
        | .error reason => (settle tree path reason, tree)
    | .error reason => (settle tree path reason, tree)
where
  /-- A refusal does not matter where a directory stands. -/
  settle (tree : Tree) (path : String) (reason : OsError) : Except OsError Unit :=
    if tree.isDirectory directory path then .ok () else .error reason

/-- Makes a directory and all its missing ancestors; what was made before a refusal stays. -/
def ensureDirectory (tree : Tree) (directory path : String) : Except OsError Unit × Tree :=
  if path.isEmpty then (.ok (), tree)
  else tree.makeChain directory (path :: (ancestry path).drop 1)

/-- The tree with a directory and all its missing ancestors. -/
def makeDirectories (tree : Tree) (directory path : String) : Except OsError Tree :=
  match tree.ensureDirectory directory path with
  | (.ok _, tree) => .ok tree
  | (.error reason, _) => .error reason

/-- The tree without what a path leads to, links not followed. -/
def remove (tree : Tree) (directory path : String) : Except OsError Tree := do
  match ← tree.locate directory path false with
  | (_, none) => .error .notFound
  | (location, some _) => .ok (tree.delete location)

/-- The tree with a symbolic link. -/
def makeLink (tree : Tree) (directory target path : String) : Except OsError Tree := do
  match ← tree.locate directory path false with
  | (_, some _) => .error .exists
  | (location, none) => .ok (tree.put location (.link target))

/-- The absolute path of a location. -/
def pathOf (location : Location) : String :=
  "/" ++ "/".intercalate location

end Tree

end Polyglot.Host
