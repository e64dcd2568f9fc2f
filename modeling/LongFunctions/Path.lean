/-
Paths: the form in which a path is shown, and its extension.

A path is a list of parts, taken from the root of the file system or from the working directory.
Its text separates the parts by slashes. Empty parts and `.` say nothing about where the path
leads, so they are dropped; `..` is kept, for it need not undo the part before it when that part is
a link. The path without parts is `/` or `.`.

The extension of a path is what stands behind the last dot of its last part. A dot that opens a name
makes a hidden file and no extension, so `.c` has none and `..c` has `c`. A path that ends in `..`,
or that has no parts, names no file and has no extension either.
-/

set_option autoImplicit false

namespace LongFunctions

/-! ## 1. The text between slashes -/

/-- The stretches of the text between its slashes, the empty ones included. -/
def slashParts (text : String) : List String :=
  (text.toList.splitOn '/').map String.ofList

/-- Whether the text of a path starts at the root. -/
def startsAtRoot (text : String) : Bool :=
  text.toList.head? = some '/'

/-! ## 2. Paths -/

/-- A path. -/
structure Path where
  /-- Whether the path starts at the root of the file system, and not at the working directory. -/
  absolute : Bool
  parts : List String
deriving DecidableEq, Repr

namespace Path

/-- The path with this text. -/
def ofString (text : String) : Path :=
  { absolute := startsAtRoot text
    parts := (slashParts text).filter fun part => part ≠ "" ∧ part ≠ "." }

/-- The text of a path. -/
def toString (path : Path) : String :=
  let joined := String.intercalate "/" path.parts
  if path.absolute then "/" ++ joined
  else if path.parts.isEmpty then "."
  else joined

/-- The path of the working directory itself. -/
def current : Path :=
  { absolute := false, parts := [] }

/-- The path of what lies below this one behind the given names. -/
def below (path : Path) (names : List String) : Path :=
  { path with parts := path.parts ++ names }

/-- The text of a path without what says nothing about where it leads. -/
def normalize (text : String) : String :=
  (ofString text).toString

end Path

/-! ## 3. Extensions -/

/-- The extension of a name, as characters: nothing if the name has no dot but perhaps the one
that opens it. -/
def extension? (name : List Char) : Option (List Char) :=
  match name.reverse.dropWhile (· ≠ '.') with
  | [] => none
  | [_] => none
  | _ :: _ :: _ => some (name.reverse.takeWhile (· ≠ '.')).reverse

namespace Path

/-- The name of the file that the path leads to, if its last part is a name. -/
def fileName? (path : Path) : Option String :=
  path.parts.getLast?.filter (· ≠ "..")

/-- Whether the path has exactly this extension. -/
def hasExtension (path : Path) (ext : String) : Bool :=
  match path.fileName? with
  | none => false
  | some name => extension? name.toList = some ext.toList

end Path

end LongFunctions
