/-
The arguments of the command line.

Arguments are read from left to right, and the first that settles the outcome wins: a request for
help or for the version, or a usage error. `--json` may be given once and takes no value; one path
may be given. Behind the first `--`, which itself is dropped, everything is a path, and `-` is a
path everywhere.

That a path is not empty is checked late: when the next flag is met that the command knows, or when
all arguments have been read. So an empty path does not hide an unknown argument behind it, nor a
second path.
-/

set_option autoImplicit false

namespace LongFunctions

/-! ## 1. What the arguments can ask for -/

/-- What a survey is asked to do. -/
structure Arguments where
  /-- The directory to survey. -/
  path : Option String := none
  /-- Whether the summary is to be JSON. -/
  json : Bool := false
deriving DecidableEq, Repr

/-- Why arguments are refused. -/
inductive UsageError where
  /-- The argument looks like a flag and is none, or a path has been given already. -/
  | unexpected (argument : String)
  /-- The flag was given a value, and takes none. -/
  | unexpectedValue (flag value : String)
  /-- The flag `--json` was given twice. -/
  | repeatedFlag
  /-- The path is empty. -/
  | emptyPath
deriving DecidableEq, Repr

/-- What ends the reading of arguments before a survey. -/
inductive Halt where
  /-- Help is asked for, in full or in short. -/
  | help (full : Bool)
  /-- The version is asked for. -/
  | version
  | usage (error : UsageError)
deriving DecidableEq, Repr

/-! ## 2. One argument -/

/-- The flags that the command knows. -/
inductive Flag where
  | json
  | help (full : Bool)
  | version
deriving DecidableEq, Repr

/-- The flag with this name behind two dashes. -/
def Flag.ofName? (name : List Char) : Option Flag :=
  if name = "json".toList then some .json
  else if name = "help".toList then some (.help true)
  else if name = "version".toList then some .version
  else none

/-- The flag with this letter behind one dash. -/
def Flag.ofLetter? (letter : Char) : Option Flag :=
  if letter = 'h' then some (.help false)
  else if letter = 'V' then some .version
  else none

/-- What a single argument says in front of the first `--`. -/
inductive Argument where
  /-- The argument `--`. -/
  | separator
  | path (text : String)
  | flag (flag : Flag)
  /-- A known flag with an equals sign and a value. -/
  | valuedFlag (flag value : String)
  /-- A dash, and behind it no known flag. -/
  | unknown
deriving DecidableEq, Repr

/-- What an argument says. Behind one dash only the first letter counts: it is a flag that ends the
reading, or there is no such flag. -/
def Argument.ofString (text : String) : Argument :=
  match text.toList with
  | ['-', '-'] => .separator
  | '-' :: '-' :: long =>
    let name := long.takeWhile (· ≠ '=')
    match Flag.ofName? name, long.dropWhile (· ≠ '=') with
    | some known, [] => .flag known
    | some _, _ :: value => .valuedFlag ("--" ++ String.ofList name) (String.ofList value)
    | none, _ => .unknown
  | '-' :: letter :: _ =>
    match Flag.ofLetter? letter with
    | some known => .flag known
    | none => .unknown
  | _ => .path text

/-! ## 3. All arguments -/

namespace Arguments

/-- Takes a path, which has to be the first one. -/
def addPath (seen : Arguments) (text : String) : Except Halt Arguments :=
  match seen.path with
  | none => .ok { seen with path := some text }
  | some _ => .error (.usage (.unexpected text))

/-- Takes arguments that are paths whatever they look like. -/
def addPaths (seen : Arguments) : List String → Except Halt Arguments
  | [] => .ok seen
  | text :: rest => (seen.addPath text).bind (·.addPaths rest)

/-- Refuses an empty path. -/
def checkPath (seen : Arguments) : Except Halt Arguments :=
  if seen.path = some "" then .error (.usage .emptyPath) else .ok seen

/-- Takes a flag. -/
def addFlag (seen : Arguments) : Flag → Except Halt Arguments
  | .json => if seen.json then .error (.usage .repeatedFlag) else .ok { seen with json := true }
  | .help full => .error (.help full)
  | .version => .error .version

/-- Takes arguments one by one. -/
def read (seen : Arguments) : List String → Except Halt Arguments
  | [] => seen.checkPath
  | text :: rest =>
    match Argument.ofString text with
    | .separator => (seen.addPaths rest).bind (·.checkPath)
    | .path text => (seen.addPath text).bind (·.read rest)
    | .flag flag => (seen.checkPath.bind (·.addFlag flag)).bind (·.read rest)
    | .valuedFlag flag value => .error (.usage (.unexpectedValue flag value))
    | .unknown => .error (.usage (.unexpected text))

/-- What the arguments of the command ask for. -/
def parse (arguments : List String) : Except Halt Arguments :=
  ({} : Arguments).read arguments

end Arguments

end LongFunctions
