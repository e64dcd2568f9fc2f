/-
A file system as a value, where its paths lead, and what a walk of a directory meets.

A file system is what stands in its directories, and a working directory. Its places are lists of
names, read from its root through real directories. A place is never reached through a link; where a
link leads is the business of path resolution.

This leaves out some of what the file system of a machine has. Nothing is refused: there are no
permissions, so the only directory that cannot be opened, and the only file that cannot be read, is
one with a path that is too long. Nothing stands under two names: there are no hard links, and two
files with the same bytes are two files. Names are text, so there is none that is not UTF-8. And an
entry is a file, a link or a directory, and no device or socket. What is said of listings and of
surveys is said of file systems of this kind.

A path is followed part by part, from the root or from the working directory. `.` and an empty part
stay where they are, so a slash at the end asks for a directory. `..` goes to the parent of the
directory that has been reached, which behind a link is the parent of the link's target; the root
is its own parent. A link is replaced by its target, read from the directory that holds the link,
and the rest of the path is followed from there. A file that is not the end of the path leads
nowhere. Three limits apply: a path has at most 4095 bytes and no null character, and at most 40
links are followed for one path, so a circle of links leads nowhere.

A walk visits the entries of a directory in the order of the bytes of their names, files and
directories mixed; the entries of a directory come where the directory stands. So `a/x.c` comes
before `a b.c`. Links are met but never entered. Directories named `.git` are passed over. A
directory that cannot be opened is noted and passed over as well. The order in which a directory
lists its entries has no influence: each of them is visited on its own, and what was met is put in
order afterwards.
-/
import LongFunctions.Path

set_option autoImplicit false

namespace LongFunctions

/-! ## 1. Nodes -/

/-- What a directory entry can be. -/
inductive Node where
  /-- A regular file with its bytes. -/
  | file (content : ByteArray)
  /-- A symbolic link with the text of its target. -/
  | link (target : String)
  /-- A directory with its entries, in the order in which it lists them. -/
  | dir (entries : List (String × Node))

/-- The entries of a directory: names and what stands under them. -/
abbrev Entries := List (String × Node)

namespace Node

/-- The node behind these names, each of which is looked up in the directory before it. -/
def find? (node : Node) : List String → Option Node
  | [] => some node
  | name :: rest =>
    match node with
    | .dir entries => (entries.lookup name).bind (·.find? rest)
    | _ => none

end Node

namespace Entries

/-- The entries with the one of this name changed by `f`, or a new one made by it at the end. -/
def alter (name : String) (f : Option Node → Node) : Entries → Entries
  | [] => [(name, f none)]
  | (other, node) :: rest =>
    if other = name then (other, f (some node)) :: rest else (other, node) :: alter name f rest

end Entries

/-- The node with `added` put behind these names. Directories that are missing on the way are made,
and a directory that stands there already stays when a directory is added. Nothing changes when
the way leads through a file or a link. -/
def Node.insert (added : Node) : List String → Node → Node
  | [], old =>
    match added, old with
    | .dir [], .dir entries => .dir entries
    | _, _ => added
  | name :: rest, .dir entries =>
    .dir (Entries.alter name (fun found => added.insert rest (found.getD (.dir []))) entries)
  | _ :: _, other => other

/-! ## 2. File systems -/

/-- A file system with a working directory. -/
structure FileSystem where
  /-- The entries of the root directory. -/
  top : Entries := []
  /-- The place of the working directory. -/
  cwd : List String := []

namespace FileSystem

/-- What stands at a place. -/
def find? (fs : FileSystem) (place : List String) : Option Node :=
  (Node.dir fs.top).find? place

/-- The file system with a node put at a place; see `Node.insert`. -/
def insert (fs : FileSystem) (place : List String) (node : Node) : FileSystem :=
  match node.insert place (.dir fs.top) with
  | .dir top => { fs with top }
  | _ => fs

end FileSystem

/-! ## 3. The limits -/

/-- The number of bytes from which on a path is too long. -/
def pathLimit : Nat := 4096

/-- The number of links that are followed for one path. -/
def linkLimit : Nat := 40

/-- Whether a text can be a path at all. -/
def isPathText (text : String) : Bool :=
  !text.isEmpty && text.utf8ByteSize < pathLimit && !text.toList.contains '\x00'

/-! ## 4. Following the parts -/

/-- How far parts lead without following a link. -/
inductive Stretch where
  /-- All parts are used up at this place. -/
  | arrived (place : List String)
  /-- A link stands in the way: the directory that holds it, its target, and the parts behind it. -/
  | atLink (directory : List String) (target : String) (rest : List String)
  /-- The next part leads nowhere. -/
  | missing

namespace FileSystem

/-- Follows parts from a directory up to the first link. -/
def advance (fs : FileSystem) (here : List String) : List String → Stretch
  | [] => .arrived here
  | part :: rest =>
    if part = "" ∨ part = "." then fs.advance here rest
    else if part = ".." then fs.advance here.dropLast rest
    else
      match fs.find? (here ++ [part]) with
      | some (.dir _) => fs.advance (here ++ [part]) rest
      | some (.file _) => if rest.isEmpty then .arrived (here ++ [part]) else .missing
      | some (.link target) => .atLink here target rest
      | none => .missing

/-- The directory in which the parts of a path are looked up first, when the path is read in
`here`. -/
def start (here : List String) (text : String) : List String :=
  if startsAtRoot text then [] else here

/-- Follows parts from a directory, through as many links as are given. -/
def follow (fs : FileSystem) (links : Nat) (here parts : List String) : Option (List String) :=
  match fs.advance here parts with
  | .arrived place => some place
  | .missing => none
  | .atLink directory target rest =>
    match links with
    | 0 => none
    | links + 1 => fs.follow links (start directory target) (slashParts target ++ rest)

/-! ## 5. Paths -/

/-- The place where a path leads: that of a directory or of a regular file. -/
def resolve? (fs : FileSystem) (text : String) : Option (List String) :=
  if isPathText text then fs.follow linkLimit (start fs.cwd text) (slashParts text) else none

/-- The entries of the directory where a path leads. -/
def entries? (fs : FileSystem) (text : String) : Option Entries :=
  match (fs.resolve? text).bind fs.find? with
  | some (.dir entries) => some entries
  | _ => none

/-- The bytes of the file where a path leads. -/
def read? (fs : FileSystem) (text : String) : Option ByteArray :=
  match (fs.resolve? text).bind fs.find? with
  | some (.file content) => some content
  | _ => none

end FileSystem

/-! ## 6. Walks -/

/-- Something that a walk meets, with the names that lead to it from the directory where the walk
starts. -/
inductive Finding where
  /-- A regular file. -/
  | file (names : List String)
  /-- A symbolic link. -/
  | link (names : List String)
  /-- A directory that could not be opened. -/
  | closedDir (names : List String)
deriving DecidableEq, Repr

/-- Whether an entry is a directory that walks pass over. -/
def isPruned (name : String) : Node → Bool
  | .dir _ => name = ".git"
  | _ => false

/-- Whether one name comes before another or is the same, in the order of their bytes. -/
def nameLE (a b : String) : Bool :=
  a.toUTF8.data.toList ≤ b.toUTF8.data.toList

mutual

/-- What a walk meets at a node, which stands behind the given names: the node itself or, when it
is a directory, what is below it. A directory can be opened when `opens` says so of its names. -/
def Node.findings (opens : List String → Bool) (names : List String) : Node → List Finding
  | .file _ => [.file names]
  | .link _ => [.link names]
  | .dir entries =>
    if opens names then
      ((entryFindings opens names entries).mergeSort fun a b => nameLE a.1 b.1).flatMap (·.2)
    else [.closedDir names]

/-- What a walk meets at each entry of a directory, which stands behind the given names. -/
def entryFindings (opens : List String → Bool) (names : List String) :
    List (String × Node) → List (String × List Finding)
  | [] => []
  | (name, node) :: rest =>
    (name, if isPruned name node then [] else node.findings opens (names ++ [name]))
      :: entryFindings opens names rest

end

end LongFunctions
