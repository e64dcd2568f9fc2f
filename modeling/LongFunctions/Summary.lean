/-
The summary of a set of functions: the longest of them, and the verdict on all.

A summary ranks functions by length and keeps the first few. Ranking is stable: functions of one
length stay in the order in which they were found, so the summary has no choice of its own to make.
The number of functions over the threshold, and the verdict that hangs on it, are taken from all
functions, not from the few that the summary lists.

It is written in two forms. As plain text it is a heading, a line for each listed function and, when
a function is too long, an empty line and the number of those that are. As JSON it is an object that
holds the threshold, the two counts, the verdict and the listed functions, each with its rank.
-/
import LongFunctions.Definition
import LongFunctions.Json

set_option autoImplicit false

namespace LongFunctions

/-! ## 1. The verdict -/

/-- The verdict of a summary: it fails when a function is too long. -/
inductive Verdict where
  | passed
  | failed
deriving DecidableEq, Repr

/-- The status with which the command exits on a verdict. -/
def Verdict.exitCode : Verdict → Nat
  | .passed => 0
  | .failed => 1

/-- The command exits with status 1 when the verdict is that a function is too long. -/
theorem Verdict.exitCode_eq_one_iff (verdict : Verdict) :
    verdict.exitCode = 1 ↔ verdict = .failed := by
  cases verdict with
  | passed => decide
  | failed => decide

/-! ## 2. The summary -/

/-- A summary. -/
structure Summary where
  /-- The functions that are listed, longest first. -/
  longest : List Definition
  /-- How many functions are listed at most. -/
  limit : Nat
  /-- The length above which a function is too long. -/
  threshold : Nat
  /-- The number of all functions, listed or not. -/
  total : Nat
  /-- The number of functions that are too long, listed or not. -/
  tooLong : Nat
  verdict : Verdict
deriving DecidableEq, Repr

/-- Whether the function is longer than `threshold` lines. -/
def Definition.isLong (threshold : Nat) (d : Definition) : Bool :=
  threshold < d.length

/-- The functions with the longer before the shorter, and those of one length in the order given. -/
def byLength (definitions : List Definition) : List Definition :=
  definitions.mergeSort fun d e => e.length ≤ d.length

/-- The summary of the given functions, which lists the `limit` longest and calls those of more than
`threshold` lines too long. -/
def Summary.ofDefinitions (definitions : List Definition) (limit threshold : Nat) : Summary :=
  let tooLong := definitions.countP (·.isLong threshold)
  { longest := (byLength definitions).take limit
    limit
    threshold
    total := definitions.length
    tooLong
    verdict := if tooLong = 0 then .passed else .failed }

/-- The verdict of a summary follows from the number of functions that are too long. -/
theorem Summary.verdict_ofDefinitions (definitions : List Definition) (limit threshold : Nat) :
    (ofDefinitions definitions limit threshold).verdict =
      if (ofDefinitions definitions limit threshold).tooLong = 0 then .passed else .failed := by
  rw [ofDefinitions]

/-- A summary fails exactly when a function is too long, listed or not. -/
theorem Summary.verdict_eq_failed_iff (definitions : List Definition) (limit threshold : Nat) :
    (ofDefinitions definitions limit threshold).verdict = .failed ↔
      0 < (ofDefinitions definitions limit threshold).tooLong := by
  rw [verdict_ofDefinitions, Nat.pos_iff_ne_zero]
  split
  · simp [*]
  · simp [*]

/-- The functions that a summary lists, each with its rank. The first has rank 1. -/
def Summary.listed (summary : Summary) : List (Definition × Nat) :=
  summary.longest.zipIdx 1

/-! ## 3. The summary as plain text -/

namespace Summary

/-- The line of a function with its rank: name, place and length. -/
def entryText (entry : Definition × Nat) : String :=
  let (d, rank) := entry
  rank.repr ++ ". " ++ d.name ++ " (" ++ d.path ++ ":" ++ d.firstLine.repr ++ ") - "
    ++ d.length.repr ++ " lines\n"

/-- What is said of the functions that are too long: nothing when there are none. -/
def longText (summary : Summary) : String :=
  if summary.tooLong = 0 then ""
  else "\nFound " ++ summary.tooLong.repr ++ " functions exceeding " ++ summary.threshold.repr
    ++ " lines\n"

/-- The summary as text. -/
def toText (summary : Summary) : String :=
  "Top " ++ summary.limit.repr ++ " longest functions:\n"
    ++ String.join (summary.listed.map entryText) ++ summary.longText

end Summary

/-! ## 4. The summary as JSON -/

/-- The word for a verdict. -/
def Verdict.word : Verdict → String
  | .passed => "passed"
  | .failed => "failed"

namespace Summary

/-- A function with its rank as a JSON object. -/
def entryJson (entry : Definition × Nat) : Json :=
  let (d, rank) := entry
  .obj
    [("rank", .num rank), ("name", .str d.name), ("path", .str d.path),
     ("start_line", .num d.firstLine), ("length", .num d.length)]

/-- The summary as a JSON value. -/
def toJson (summary : Summary) : Json :=
  .obj
    [("threshold", .num summary.threshold), ("total_functions", .num summary.total),
     ("long_functions", .num summary.tooLong), ("status", .str summary.verdict.word),
     ("top", .arr (summary.listed.map entryJson))]

/-- The text of the JSON summary, which ends with a line feed. -/
def toJsonText (summary : Summary) : String :=
  summary.toJson.pretty ++ "\n"

end Summary

end LongFunctions
