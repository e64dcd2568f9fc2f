/-
The source files below a root directory.

The root is given as the text of a path, which may lead through links. Everything below it is
walked. A source file is a regular file, or a link that leads to one, whose own name has the
extension asked for. Its path is the root followed by the names below it, and only these names
when the root is the working directory.

While it walks, the command writes paths below the working directory with `./` in front. These are
the paths that have to stay below the limit: a directory whose path is too long is not opened, and
a warning says so; a link whose path is too long leads nowhere. A regular file is listed all the
same.

The root `-` is not a directory: it stands for standard input, where there are no files to find.
-/
import LongFunctions.FileSystem
import LongFunctions.Path

set_option autoImplicit false

namespace LongFunctions

/-! ## 1. Paths on the way -/

/-- The text of the path that a walk from `root` uses for what is behind the names. -/
def walkedText (root : Path) (names : List String) : String :=
  let text := (root.below names).toString
  if root = Path.current ∧ names ≠ [] then "./" ++ text else text

/-- Whether a walk from `root` can open the directory behind the names. -/
def opensDir (root : Path) (names : List String) : Bool :=
  (walkedText root names).utf8ByteSize < pathLimit

/-! ## 2. Files and warnings -/

/-- What a walk has found. -/
structure Listing where
  /-- The paths of the source files, in the order of the walk. -/
  files : List Path := []
  /-- The warnings, in the order of the walk. -/
  warnings : List String := []
deriving DecidableEq, Repr

/-- The source file that a walk from `root` has met, if it is one. -/
def source? (fs : FileSystem) (root : Path) (ext : String) : Finding → Option Path
  | .file names =>
    let path := root.below names
    if path.hasExtension ext then some path else none
  | .link names =>
    let path := root.below names
    if path.hasExtension ext ∧ (fs.read? (walkedText root names)).isSome then some path else none
  | .closedDir _ => none

/-- The warning about a directory that could not be opened, because its path is too long. -/
def warning? (root : Path) : Finding → Option String
  | .closedDir names =>
    let path := walkedText root names
    some ("warning: " ++ path ++ ": IO error for operation on " ++ path
      ++ ": File name too long (os error 36)")
  | _ => none

/-- The source files with the extension below the root with this text. There are none when the
root is no directory. -/
def FileSystem.listing (fs : FileSystem) (root ext : String) : Listing :=
  let path := Path.ofString root
  match fs.entries? path.toString with
  | none => {}
  | some entries =>
    if path.toString = "-" then {}
    else
      let findings := (Node.dir entries).findings (opensDir path) []
      { files := findings.filterMap (source? fs path ext)
        warnings := findings.filterMap (warning? path) }

end LongFunctions
