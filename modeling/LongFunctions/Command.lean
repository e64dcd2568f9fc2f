/-
The command: what it leaves behind for a list of arguments on a file system.

Help and the version are printed and end well. A usage error is told on the error stream and gives
exit code 2, with nothing surveyed. Without a path the command only says how it is called, whatever
the flags are, and gives exit code 1. All else is a survey.

Which usage error it is, and where it is told, is part of the command. The wording is not: command
lines are read by a library, which words its errors itself, at times names only a part of the
argument, and adds hints. The texts here stand in for that and say no more than what is wrong.
-/
import LongFunctions.Arguments
import LongFunctions.Survey

set_option autoImplicit false

namespace LongFunctions

/-! ## 1. Texts -/

/-- How the command is called, in the words of its help. -/
def synopsis : String := "Usage: longfn [OPTIONS] [PATH]"

/-- The short help. -/
def shortHelp : String :=
  joinLines
    ["Report the longest C functions in a source tree",
     "",
     synopsis,
     "",
     "Arguments:",
     "  [PATH]  Directory to scan recursively for .c files",
     "",
     "Options:",
     "      --json     Output as JSON",
     "  -h, --help     Print help (see more with '--help')",
     "  -V, --version  Print version"]

/-- The full help. -/
def fullHelp : String :=
  joinLines
    ["Report the longest C functions in a source tree.",
     "",
     "Every .c file under the directory is scanned with a line-oriented heuristic:",
     "a definition is a single line shaped like `[static] <type> <name>(<args>) [\x7b]`,",
     "and the function ends where its brace depth returns to zero. The five longest",
     "functions are listed. The command exits with status 1 if any function is",
     "longer than 150 lines, so it can gate a build.",
     "",
     synopsis,
     "",
     "Arguments:",
     "  [PATH]",
     "          Directory to scan recursively for .c files",
     "",
     "Options:",
     "      --json",
     "          Output as JSON",
     "",
     "  -h, --help",
     "          Print help (see a summary with '-h')",
     "",
     "  -V, --version",
     "          Print version"]

/-- The help in full or in short. -/
def helpText (full : Bool) : String :=
  if full then fullHelp else shortHelp

/-- The name of the command and its version. -/
def versionText : String :=
  joinLines ["longfn 0.1.0"]

/-- What is printed when no directory is given. -/
def missingPathText : String :=
  joinLines ["Usage: longfn <src_directory>"]

/-- What is wrong with the arguments, in a wording that stands in for that of the command. -/
def UsageError.message : UsageError → String
  | .unexpected argument => "unexpected argument '" ++ argument ++ "' found"
  | .unexpectedValue flag value =>
    "unexpected value '" ++ value ++ "' for '" ++ flag ++ "' found; no more were expected"
  | .repeatedFlag => "the argument '--json' cannot be used multiple times"
  | .emptyPath => "a value is required for '[PATH]' but none was supplied"

/-- What is told about arguments that are refused. The command tells it in another wording. -/
def UsageError.text (error : UsageError) : String :=
  joinLines
    ["error: " ++ error.message, "", synopsis, "", "For more information, try '--help'."]

/-! ## 2. The command -/

/-- What ends the command before a survey. -/
def Halt.outcome : Halt → Outcome
  | .help full => { exitCode := 0, stdout := helpText full }
  | .version => { exitCode := 0, stdout := versionText }
  | .usage error => { exitCode := 2, stderr := error.text }

/-- The outcome of the command with these arguments. -/
def runCommand (fs : FileSystem) (arguments : List String) : Outcome :=
  match Arguments.parse arguments with
  | .error halt => halt.outcome
  | .ok { path := none, .. } => { exitCode := 1, stdout := missingPathText }
  | .ok { path := some path, json } => (fs.survey path).outcome json

end LongFunctions
