/-
The functions of one source file, and how they are found.

A function has a name and covers lines of its file. The lines of a file are read once, from the
first to the last. Outside a function, a function head opens one. Inside a function, the braces of
each line are added to its depth, and the line on which the depth comes to be zero closes it. The
braces of the head start the count, but the head itself closes nothing; so a depth may begin at
zero, when the brace stands on a later line, and may go below zero and come back.

Empty lines, `//` comments and preprocessor lines are passed over, inside a function as well as
outside: their braces never count. They still are lines of the file, and count in the length of
the function around them. A function that is still open at the end of the file is dropped.
-/
import LongFunctions.FunctionHead

set_option autoImplicit false

namespace LongFunctions

/-! ## 1. Functions in a file -/

/-- The extent of a function inside its file. -/
structure Extent where
  name : String
  /-- The line of the head; the first line of a file is line 1. -/
  firstLine : Nat
  /-- The number of lines from the head through the line that closes the body, both
  included. -/
  length : Nat
deriving DecidableEq, Repr

/-- A function definition in a file. -/
structure Definition extends Extent where
  /-- The path of the file, as the summary shows it. -/
  path : String
deriving DecidableEq, Repr

/-- The definition with this extent in the file at `path`. -/
def Extent.inFile (extent : Extent) (path : String) : Definition :=
  { extent with path }

/-! ## 2. One line -/

/-- Whether a line, given without the white space around it, is passed over: it is empty, a `//`
comment or a preprocessor line. -/
def isInert (text : String) : Bool :=
  match text.toList with
  | [] => true
  | '#' :: _ => true
  | '/' :: '/' :: _ => true
  | _ => false

/-- How far the braces of a line lead into nested blocks: opening less closing ones. -/
def braceBalance (text : String) : Int :=
  text.toList.count '{' - text.toList.count '}'

/-! ## 3. Reading a file -/

/-- A function whose head has been read and whose body has not been closed. -/
structure Unclosed where
  name : String
  firstLine : Nat
  /-- The braces opened less the braces closed since the head, those of the head included. -/
  depth : Int
deriving DecidableEq, Repr

/-- How far a file has been read. -/
structure Progress where
  /-- The number of lines read. -/
  linesRead : Nat := 0
  /-- The function that the next line stands in. -/
  current : Option Unclosed := none
deriving DecidableEq, Repr

/-- Reads one line: how far the file has then been read, and the function that the line closed. -/
def Progress.read (progress : Progress) (line : String) : Progress × Option Extent :=
  let number := progress.linesRead + 1
  let text := trim line
  if isInert text then ({ progress with linesRead := number }, none)
  else
    match progress.current with
    | none =>
      let opened := (headName? text).map fun name =>
        { name, firstLine := number, depth := braceBalance text }
      ({ linesRead := number, current := opened }, none)
    | some f =>
      let depth := f.depth + braceBalance text
      if depth = 0 then
        ({ linesRead := number, current := none },
          some { name := f.name, firstLine := f.firstLine, length := number - f.firstLine + 1 })
      else ({ linesRead := number, current := some { f with depth } }, none)

/-- Reads one line more, and notes the function that it closed in front of those noted so far. -/
def Progress.note (state : Progress × List (Option Extent)) (line : String) :
    Progress × List (Option Extent) :=
  let (progress, closed) := state.1.read line
  (progress, closed :: state.2)

/-- For each line of a file the function that it closes, if it closes one. -/
def closings (lines : List String) : List (Option Extent) :=
  (lines.foldl Progress.note ({}, [])).2.reverse

/-- The functions of the file at `path` with the given lines, in the order in which they close. -/
def findDefinitions (lines : List String) (path : String) : List Definition :=
  (closings lines).filterMap fun closed => closed.map (·.inFile path)

end LongFunctions
