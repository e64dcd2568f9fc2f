/-
The program: it takes a picture of the part of the file system that its arguments are about, hands
it to the command, and prints what the command leaves behind.

The picture holds what a survey of the root can come to: the directories and links that the root's
own path goes through, and the tree below the root. The system is asked where links lead, so a link
is pictured with the real place of its target. Links that do not lead to a file are left out of the
tree, for a walk does nothing with them. So are files that cannot be read, and entries whose paths
are so long that the system does not say what they are.

A directory that the system does not open is pictured as empty. When its path is too long, the
survey warns of it all the same. When permission is missing, nobody does: the picture has no
permissions, and the program passes over in silence what it should warn of.
-/
import LongFunctions.Command

set_option autoImplicit false

namespace LongFunctions

/-! ## 1. Places of the system -/

/-- The place that a real path names. -/
def placeOf (realPath : String) : List String :=
  (Path.ofString realPath).parts

/-- The path of a place, from the root. -/
def pathOf (place : List String) : String :=
  Path.toString { absolute := true, parts := place }

/-- A path as the system takes it. -/
def systemPath (path : String) :=
  ({ root := path, fileName := "" } : IO.FS.DirEntry).root

/-- The real place where a path leads, if it leads anywhere. -/
def realPlace? (path : String) : IO (Option (List String)) := do
  try return some (placeOf (← IO.FS.realPath path).toString)
  catch _ => return none

/-! ## 2. The tree below a root -/

/-- A file that a link leads to: its place and its bytes. -/
abbrev Target := List String × ByteArray

/-- The bytes of a file that the survey reads. Other files are pictured as empty. -/
def contentOf (path : String) : IO ByteArray :=
  if (Path.ofString path).hasExtension sourceExtension then IO.FS.readBinFile path else return .empty

/-- The entries of the directory that is reached from `root` through the given names, with all below
them, and the files that links among them lead to. A directory below that cannot be opened has no
entries here. -/
partial def readEntries (root : Path) (names : List String) : IO (Entries × List Target) := do
  let mut entries : Entries := []
  let mut targets : List Target := []
  for entry in ← (systemPath (walkedText root names)).readDir do
    let below := names ++ [entry.fileName]
    let path := (root.below below).toString
    try
      match (← (systemPath path).symlinkMetadata).type with
      | .dir =>
        let (inner, found) ← try readEntries root below catch _ => pure ([], [])
        entries := (entry.fileName, .dir inner) :: entries
        targets := found ++ targets
      | .file => entries := (entry.fileName, .file (← contentOf path)) :: entries
      | .symlink =>
        if (← (systemPath path).metadata).type matches .file then
          if let some place ← realPlace? (walkedText root below) then
            entries := (entry.fileName, .link (pathOf place)) :: entries
            targets := (place, ← IO.FS.readBinFile path) :: targets
      | .other => pure ()
    catch _ => pure ()
  return (entries, targets)

/-! ## 3. The way to the root -/

/-- The picture with the directories and links added that parts of a path go through, when they are
followed from a place that `walked` leads to. -/
def addWay (fs : FileSystem) (walked : Path) (here : List String) :
    List String → IO FileSystem
  | [] => return fs
  | part :: rest => do
    let next := walked.below [part]
    match ← realPlace? next.toString with
    | none => return fs
    | some place =>
      let node : Node := if place = here ++ [part] then .dir [] else .link (pathOf place)
      let fs := if part = ".." then fs else fs.insert (here ++ [part]) node
      addWay fs next place rest

/-- The picture of what a survey of the root can come to. -/
def picture (root : String) : IO FileSystem := do
  let cwd := placeOf (← IO.currentDir).toString
  let path := Path.ofString root
  let empty : FileSystem := ({ cwd } : FileSystem).insert cwd (.dir [])
  match ← realPlace? path.toString with
  | none => return empty
  | some place =>
    let (entries, targets) ← try readEntries path [] catch _ => return empty
    let withTree := empty.insert place (.dir entries)
    let start : Path := { path with parts := [] }
    let withWay ← addWay withTree start (if path.absolute then [] else cwd) path.parts
    return targets.foldl (fun fs (place, content) => fs.insert place (.file content)) withWay

end LongFunctions

/-! ## 4. The program -/

/-- Runs the command on the file system of the machine. -/
def main (arguments : List String) : IO UInt32 := do
  let fs ←
    match LongFunctions.Arguments.parse arguments with
    | .ok { path := some path, .. } => LongFunctions.picture path
    | _ => pure {}
  let outcome := LongFunctions.runCommand fs arguments
  IO.print outcome.stdout
  IO.eprint outcome.stderr
  return UInt32.ofNat outcome.exitCode
