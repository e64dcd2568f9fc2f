/-
A survey: every C file below a root directory is read and scanned, and the functions found are
summed up.

A file that cannot be opened, or that is not UTF-8 text, has no functions. It does not stop the
survey.
-/
import LongFunctions.Summary
import LongFunctions.Definition
import LongFunctions.Listing
import LongFunctions.Text

set_option autoImplicit false

namespace LongFunctions

/-! ## 1. What is surveyed -/

/-- Functions longer than this many lines fail a survey. -/
def lineThreshold : Nat := 150

/-- The number of functions that a survey lists. -/
def listedFunctions : Nat := 5

/-- The extension of the files that are scanned. -/
def sourceExtension : String := "c"

namespace FileSystem

/-- The text of the file where a path leads, if the file can be opened and is UTF-8. -/
def readText? (fs : FileSystem) (path : String) : Option String :=
  (fs.read? path).bind String.fromUTF8?

/-- The functions of the file at a path. -/
def definitionsOf (fs : FileSystem) (path : Path) : List Definition :=
  match fs.readText? path.toString with
  | some content => findDefinitions (linesOf content) path.toString
  | none => []

/-- The functions of the files at some paths, file by file. -/
def definitionsIn (fs : FileSystem) (paths : List Path) : List Definition :=
  paths.flatMap fs.definitionsOf

end FileSystem

/-! ## 2. The survey -/

/-- What a survey has found out. -/
structure Survey where
  summary : Summary
  /-- The warnings about directories that were not searched. -/
  warnings : List String
deriving DecidableEq, Repr

/-- Surveys the source files below the root with this text. -/
def FileSystem.survey (fs : FileSystem) (root : String) : Survey :=
  let listing := fs.listing root sourceExtension
  { summary := Summary.ofDefinitions (fs.definitionsIn listing.files) listedFunctions lineThreshold
    warnings := listing.warnings }

/-! ## 3. What is shown of it -/

/-- What a command leaves behind. -/
structure Outcome where
  exitCode : Nat
  stdout : String := ""
  stderr : String := ""
deriving DecidableEq, Repr

/-- A summary in the form asked for: JSON or plain text. -/
def Summary.render (summary : Summary) (json : Bool) : String :=
  if json then summary.toJsonText else summary.toText

/-- The outcome of a survey: the summary is printed, each warning is a line on the error stream, and
the exit code tells the verdict. -/
def Survey.outcome (survey : Survey) (json : Bool) : Outcome :=
  { exitCode := survey.summary.verdict.exitCode
    stdout := survey.summary.render json
    stderr := joinLines survey.warnings }

end LongFunctions
