/-
The verdict of a survey, said without a walk, a reader or a ranking.

A survey is a chain: files are listed, opened, decoded and cut into lines, functions are found in
the lines, ranked and counted, and an exit code is made of the count. What a build relies on is the
two ends of this chain. So the long functions below a root are described here as a set
(`FileSystem.longFunctions`), from nothing but the names that lead to source files, the bytes that
stand there, and the search for functions in lines; and an exit code and a report are compared with
this set.

Main statement: the exit code is 1 when the set has an element and 0 when it is empty, whichever
form of report is asked for, and either form of report tells how many elements the set has, though
it lists five functions at most (`runCommand_verdict`).

The count is the point where something could be lost. A report counts the entries of a list, and the
set has as many elements as the list has entries because no function is found twice: a listing has
each file once, and the heads of a file come on increasing lines (`FileSystem.nodup_found`).
-/
import Mathlib.Data.Set.Card
import LongFunctions.Command
import LongFunctions.Proofs.Definition.Search
import LongFunctions.Proofs.Listing

set_option autoImplicit false

namespace LongFunctions

/-! ## 1. The functions below a root -/

/-- A function in a file. -/
structure FoundFunction where
  file : Path
  name : String
  /-- The line of the head. -/
  first : Nat
  /-- The line that closes the function. -/
  last : Nat
deriving DecidableEq, Repr

namespace FoundFunction

/-- The number of lines from the first through the last. -/
def length (f : FoundFunction) : Nat :=
  f.last - f.first + 1

/-- How a summary speaks of the function. -/
def definition (f : FoundFunction) : Definition :=
  { name := f.name, firstLine := f.first, length := f.length, path := f.file.toString }

end FoundFunction

namespace FileSystem

/-- Whether a source file with the extension stands at a path below the root with this text: the
root leads to a directory, and names lead from there to the file. -/
def SourceBelow (fs : FileSystem) (root ext : String) (file : Path) : Prop :=
  ∃ place entries names, fs.resolve? (Path.normalize root) = some place ∧
    fs.find? place = some (.dir entries) ∧
    fs.SourceAt (Path.ofString root) ext (.dir entries) names ∧
    file = (Path.ofString root).below names

/-- Whether the file of the function can be opened, its bytes are UTF-8, and the function is among
those of its lines. -/
def HasFunction (fs : FileSystem) (f : FoundFunction) : Prop :=
  ∃ text : String, fs.read? f.file.toString = some text.toUTF8 ∧
    FunctionFrom (linesOf text) 1 f.name f.first f.last

/-- The functions of more than 150 lines in the C files below the root with this text. -/
def longFunctions (fs : FileSystem) (root : String) : Set FoundFunction :=
  {f | fs.SourceBelow root "c" f.file ∧ fs.HasFunction f ∧ 150 < f.length}

/-! ## 2. The functions of one file -/

variable {fs : FileSystem}

/-- A file has a text when it can be opened and its bytes are the UTF-8 form of that text. -/
theorem readText?_eq_some_iff (path text : String) :
    fs.readText? path = some text ↔ fs.read? path = some text.toUTF8 := by
  rw [readText?, Option.bind_eq_some_iff]
  constructor
  · rintro ⟨bytes, hbytes, htext⟩
    rw [String.fromUTF8?] at htext
    split_ifs at htext with hvalid
    rw [hbytes, ← Option.some.inj htext]
    rfl
  · intro hread
    refine ⟨text.toUTF8, hread, ?_⟩
    exact dif_pos text.isValidUTF8

/-- The functions found in the file at a path, in the order in which they are found. -/
def foundIn (fs : FileSystem) (file : Path) : List FoundFunction :=
  (fs.definitionsOf file).map fun d =>
    { file, name := d.name, first := d.firstLine, last := d.firstLine + d.length - 1 }

/-- The definitions of a file are the outcome of the search through its lines, or none. -/
theorem definitionsOf_cases (fs : FileSystem) (file : Path) :
    (∃ text : String, fs.read? file.toString = some text.toUTF8 ∧
        Search (linesOf text) file.toString 1 (fs.definitionsOf file)) ∨
      (∀ text : String, fs.read? file.toString ≠ some text.toUTF8) ∧
        fs.definitionsOf file = [] := by
  rw [definitionsOf]
  cases h : fs.readText? file.toString with
  | none =>
    refine Or.inr ⟨?_, rfl⟩
    intro text hread
    rw [(readText?_eq_some_iff _ text).mpr hread] at h
    cases h
  | some text =>
    exact Or.inl ⟨text, (readText?_eq_some_iff _ text).mp h, search_findDefinitions _ _⟩

/-- What is found in a file is what the file has. -/
theorem mem_foundIn_iff (file : Path) (f : FoundFunction) :
    f ∈ fs.foundIn file ↔ f.file = file ∧ fs.HasFunction f := by
  rw [foundIn, List.mem_map]
  rcases fs.definitionsOf_cases file with ⟨text, hread, hsearch⟩ | ⟨hnone, hnil⟩
  · constructor
    · rintro ⟨d, hd, rfl⟩
      obtain ⟨name, s, e, hfrom, rfl⟩ := (hsearch.mem_iff d).mp hd
      exact ⟨rfl, text, hread, by rwa [hfrom.last_eq]⟩
    · rintro ⟨rfl, text', hread', hfrom⟩
      -- the bytes of the file are the UTF-8 form of one text only
      have htext : text'.toUTF8 = text.toUTF8 := Option.some.inj (hread'.symm.trans hread)
      obtain rfl : text' = text := String.toByteArray_inj.mp htext
      refine ⟨f.definition, (hsearch.mem_iff _).mpr ⟨_, _, _, hfrom, rfl⟩, ?_⟩
      simp only [FoundFunction.definition, FoundFunction.length, hfrom.last_eq]
  · constructor
    · rintro ⟨d, hd, -⟩
      rw [hnil] at hd
      cases hd
    · rintro ⟨rfl, text, hread, -⟩
      exact absurd hread (hnone text)

/-- The definitions of a file say what is found in it. -/
theorem definitionsOf_eq_map_foundIn (fs : FileSystem) (file : Path) :
    fs.definitionsOf file = (fs.foundIn file).map FoundFunction.definition := by
  rw [foundIn, List.map_map]
  symm
  refine List.map_congr_left ?_ |>.trans (List.map_id _)
  intro d hd
  rcases fs.definitionsOf_cases file with ⟨text, -, hsearch⟩ | ⟨-, hnil⟩
  · obtain ⟨name, s, e, -, rfl⟩ := (hsearch.mem_iff d).mp hd
    have hlength : s + (e - s + 1) - 1 - s + 1 = e - s + 1 := by omega
    simp only [Function.comp, FoundFunction.definition, FoundFunction.length, hlength, id]
  · rw [hnil] at hd
    cases hd

/-- No function is found twice in one file, since the heads come on increasing lines. -/
theorem nodup_foundIn (fs : FileSystem) (file : Path) : (fs.foundIn file).Nodup := by
  rw [foundIn, List.Nodup, List.pairwise_map]
  rcases fs.definitionsOf_cases file with ⟨text, -, hsearch⟩ | ⟨-, hnil⟩
  · refine hsearch.pairwise_firstLine.2.imp ?_
    intro d d' hlt heq
    rw [FoundFunction.mk.injEq] at heq
    exact hlt.ne heq.2.2.1
  · rw [hnil]
    exact List.Pairwise.nil

/-! ## 3. The functions of all files -/

/-- The files that are listed are those below the root. -/
theorem mem_files_iff_sourceBelow (hfs : fs.WellFormed) {root ext : String}
    (hstdin : Path.normalize root ≠ "-") (file : Path) :
    file ∈ (fs.listing root ext).files ↔ fs.SourceBelow root ext file := by
  cases h : fs.entries? (Path.normalize root) with
  | none =>
    rw [listing_of_entries?_eq_none h]
    constructor
    · intro hfile
      cases hfile
    · rintro ⟨place, entries, names, hplace, hfind, -⟩
      rw [(entries?_eq_some_iff fs _ entries).mpr ⟨place, hplace, hfind⟩] at h
      cases h
  | some entries =>
    rw [mem_files_iff hfs h hstdin]
    constructor
    · rintro ⟨names, hsource, rfl⟩
      obtain ⟨place, hplace, hfind⟩ := (entries?_eq_some_iff fs _ entries).mp h
      exact ⟨place, entries, names, hplace, hfind, hsource, rfl⟩
    · rintro ⟨place, entries', names, hplace, hfind, hsource, rfl⟩
      rw [(entries?_eq_some_iff fs _ entries').mpr ⟨place, hplace, hfind⟩] at h
      obtain rfl := Option.some.inj h
      exact ⟨names, hsource, rfl⟩

/-- The functions found in the files of a survey. -/
def found (fs : FileSystem) (root : String) : List FoundFunction :=
  (fs.listing root sourceExtension).files.flatMap fs.foundIn

/-- No function is found twice. In one file the heads are on different lines, and the files
differ. -/
theorem nodup_found (hfs : fs.WellFormed) (root : String) : (fs.found root).Nodup := by
  rw [found, List.Nodup, List.pairwise_flatMap]
  refine ⟨fun file _ => fs.nodup_foundIn file, ?_⟩
  apply (pairwise_files hfs root sourceExtension).imp
  -- a function found in two files would be in both of them, and no path comes before itself
  rintro p q hlt f hf g hg rfl
  have hp := ((mem_foundIn_iff p f).mp hf).1
  have hq := ((mem_foundIn_iff q f).mp hg).1
  rw [← hp, ← hq] at hlt
  exact List.lt_irrefl _ hlt

/-- The functions that are found are those of the files below the root. -/
theorem mem_found_iff (hfs : fs.WellFormed) {root : String} (hstdin : Path.normalize root ≠ "-")
    (f : FoundFunction) :
    f ∈ fs.found root ↔ fs.SourceBelow root sourceExtension f.file ∧ fs.HasFunction f := by
  simp only [found, List.mem_flatMap, mem_foundIn_iff, mem_files_iff_sourceBelow hfs hstdin]
  constructor
  · rintro ⟨file, hsource, rfl, hhas⟩
    exact ⟨hsource, hhas⟩
  · rintro ⟨hsource, hhas⟩
    exact ⟨f.file, hsource, rfl, hhas⟩

/-- The definitions of a survey say what is found. -/
theorem definitionsIn_eq_map_found (fs : FileSystem) (root : String) :
    fs.definitionsIn (fs.listing root sourceExtension).files =
      (fs.found root).map FoundFunction.definition := by
  rw [definitionsIn, found, List.map_flatMap]
  simp only [← definitionsOf_eq_map_foundIn]

/-- A survey calls too long as many functions as there are long ones below its root. -/
theorem encard_longFunctions (hfs : fs.WellFormed) {root : String}
    (hstdin : Path.normalize root ≠ "-") :
    (fs.longFunctions root).encard = (fs.survey root).summary.tooLong := by
  have hset : fs.longFunctions root = {f | f ∈ (fs.found root).filter (150 < ·.length)} := by
    ext f
    simp only [longFunctions, Set.mem_ofPred_eq, List.mem_filter, decide_eq_true_eq,
      mem_found_iff hfs hstdin, and_assoc]
    rfl
  -- the summary counts before it cuts its list to the first few
  have hcount : (fs.survey root).summary.tooLong =
      ((fs.found root).filter (150 < ·.length)).length := by
    rw [survey, Summary.ofDefinitions, definitionsIn_eq_map_found, List.countP_map,
      List.countP_eq_length_filter]
    rfl
  rw [hset, hcount, ← List.coe_toFinset, Set.encard_coe_eq_coe_finsetCard,
    List.toFinset_card_of_nodup ((nodup_found hfs root).filter _)]

end FileSystem

/-! ## 4. What a report tells -/

/-- Whether a report tells that there are `count` long functions. As JSON it says so in its third
field; as plain text it says so in a line behind the functions that are listed, of which there are
at most five, unless there are no long ones. -/
inductive ReportsLong (count : Nat) : Bool → String → Prop
  | json (total : Nat) (rest : String) :
      ReportsLong count true
        ("\x7b\n  \"threshold\": 150,\n  \"total_functions\": " ++ total.repr ++
          ",\n  \"long_functions\": " ++ count.repr ++ ",\n" ++ rest)
  | text {listed : List (Definition × Nat)} (hfew : listed.length ≤ 5) :
      ReportsLong count false
        ("Top 5 longest functions:\n" ++ String.join (listed.map Summary.entryText) ++
          if count = 0 then "" else "\nFound " ++ count.repr ++ " functions exceeding 150 lines\n")

/-- A summary lists no more functions than it may. -/
theorem Summary.length_listed_le (definitions : List Definition) (limit threshold : Nat) :
    (Summary.ofDefinitions definitions limit threshold).listed.length ≤ limit := by
  rw [listed, List.length_zipIdx]
  exact List.length_take_le _ _

/-- The text of a summary that lists five functions and calls those of more than 150 lines too
long. -/
theorem Summary.toText_eq {summary : Summary} (hlimit : summary.limit = 5)
    (hthreshold : summary.threshold = 150) :
    summary.toText = "Top 5 longest functions:\n" ++ String.join (summary.listed.map entryText) ++
      if summary.tooLong = 0 then ""
      else "\nFound " ++ summary.tooLong.repr ++ " functions exceeding 150 lines\n" := by
  have hheading : "Top " ++ (5 : Nat).repr ++ " longest functions:\n" =
      "Top 5 longest functions:\n" := by decide +kernel
  have hclose : " functions exceeding " ++ ((150 : Nat).repr ++ " lines\n") =
      " functions exceeding 150 lines\n" := by decide +kernel
  have hline (count : String) :
      "\nFound " ++ count ++ " functions exceeding " ++ (150 : Nat).repr ++ " lines\n" =
        "\nFound " ++ count ++ " functions exceeding 150 lines\n" := by
    rw [← hclose]
    simp only [String.append_assoc]
  rw [toText, hlimit, hheading, longText, hthreshold, hline]

/-- The JSON text of a summary that calls functions of more than 150 lines too long. -/
theorem Summary.exists_toJsonText_eq {summary : Summary} (hthreshold : summary.threshold = 150) :
    ∃ rest : String, summary.toJsonText =
      "\x7b\n  \"threshold\": 150,\n  \"total_functions\": " ++ summary.total.repr ++
        ",\n  \"long_functions\": " ++ summary.tooLong.repr ++ ",\n" ++ rest := by
  have hopening : "\x7b" ++ Json.newline 1 ++ Json.quoted "threshold" ++ ": " ++ (150 : Nat).repr ++
      "," ++ Json.newline 1 ++ Json.quoted "total_functions" ++ ": " =
      "\x7b\n  \"threshold\": 150,\n  \"total_functions\": " := by decide +kernel
  have hbetween : "," ++ Json.newline 1 ++ Json.quoted "long_functions" ++ ": " =
      ",\n  \"long_functions\": " := by decide +kernel
  have hline (text : String) : ",\n" ++ ("  " ++ text) = "," ++ (Json.newline 1 ++ text) := by
    have hbreak : ",\n" ++ "  " = "," ++ Json.newline 1 := by decide +kernel
    rw [← String.append_assoc, hbreak, String.append_assoc]
  rw [← hopening, ← hbetween]
  unfold toJsonText toJson Json.pretty
  simp only [Json.prettyAt, Json.prettyFields, Json.bracketed, List.isEmpty_cons,
    Bool.false_eq_true, if_false, String.intercalate_cons_cons, hthreshold, String.append_assoc]
  -- what follows the line break behind the count starts with the indentation of the next line
  exact ⟨"  " ++ _, by rw [hline]⟩

/-- The report of a survey tells the number of functions that its summary calls too long. -/
theorem FileSystem.reportsLong_survey (fs : FileSystem) (root : String) (json : Bool) :
    ReportsLong (fs.survey root).summary.tooLong json ((fs.survey root).outcome json).stdout := by
  have hfew : (fs.survey root).summary.listed.length ≤ 5 :=
    Summary.length_listed_le _ listedFunctions lineThreshold
  cases json with
  | true =>
    have htext : ((fs.survey root).outcome true).stdout = (fs.survey root).summary.toJsonText := rfl
    obtain ⟨rest, hrest⟩ := @Summary.exists_toJsonText_eq (fs.survey root).summary rfl
    rw [htext, hrest]
    exact ReportsLong.json _ rest
  | false =>
    have htext : ((fs.survey root).outcome false).stdout = (fs.survey root).summary.toText := rfl
    rw [htext, Summary.toText_eq rfl rfl]
    exact ReportsLong.text hfew

/-! ## 5. The exit code -/

/-- The exit code of a survey is 0 when no function is too long, and else 1. -/
theorem FileSystem.exitCode_survey (fs : FileSystem) (root : String) (json : Bool) :
    ((fs.survey root).outcome json).exitCode =
      if (fs.survey root).summary.tooLong = 0 then 0 else 1 := by
  unfold Survey.outcome survey
  dsimp only
  rw [Summary.verdict_ofDefinitions]
  split_ifs
  · rfl
  · rfl

/-- With a path among its arguments, the command is a survey. -/
theorem runCommand_of_path {arguments : List String} {path : String} {json : Bool}
    (h : Arguments.parse arguments = .ok { path := some path, json }) (fs : FileSystem) :
    runCommand fs arguments = (fs.survey path).outcome json := by
  rw [runCommand, h]

/-- **The verdict of the command.** With a path among its arguments that is not `-`, the exit code
is 1 when there is a long function in a C file below that path, and else 0. It is the same for all
arguments with that path, whether they ask for JSON or not, and the report tells how many such
functions there are. -/
theorem runCommand_verdict (fs : FileSystem) (hfs : fs.WellFormed) (arguments : List String)
    (path : String) (json : Bool)
    (harguments : Arguments.parse arguments = .ok { path := some path, json })
    (hstdin : Path.normalize path ≠ "-") :
    ((runCommand fs arguments).exitCode = 1 ↔
      ∃ f : FoundFunction, fs.SourceBelow path "c" f.file ∧ fs.HasFunction f ∧ 150 < f.length) ∧
    ((runCommand fs arguments).exitCode ≠ 1 → (runCommand fs arguments).exitCode = 0) ∧
    (∀ arguments' json', Arguments.parse arguments' = .ok { path := some path, json := json' } →
      (runCommand fs arguments').exitCode = (runCommand fs arguments).exitCode) ∧
    ∃ count : Nat, (fs.longFunctions path).encard = count ∧
      ReportsLong count json (runCommand fs arguments).stdout := by
  have hcount := FileSystem.encard_longFunctions hfs hstdin
  have hrun := runCommand_of_path harguments fs
  have hcode := fs.exitCode_survey path json
  refine ⟨?_, ?_, ?_, ?_⟩
  · -- there is a long function when their number is not zero
    have hsome : (fs.longFunctions path).Nonempty ↔ (fs.survey path).summary.tooLong ≠ 0 := by
      rw [← Set.encard_ne_zero, hcount]
      exact Nat.cast_ne_zero
    rw [hrun, hcode, ite_eq_right_iff]
    exact Iff.trans (by omega) hsome.symm
  · intro hne
    rw [hrun, hcode] at hne ⊢
    split_ifs at hne ⊢ with hzero
    · rfl
    · exact absurd rfl hne
  · intro arguments' json' harguments'
    rw [hrun, hcode, runCommand_of_path harguments', FileSystem.exitCode_survey]
  · refine ⟨_, hcount, ?_⟩
    rw [hrun]
    exact fs.reportsLong_survey path json

/-- A file with a function of 151 lines, all of which but the first and the last are empty. -/
def longTree : FileSystem :=
  let text := "int f() \x7b\n" ++ String.ofList (List.replicate 149 '\n') ++ "\x7d"
  { top := [("f.c", .file text.toUTF8)] }

/-- The one name in `longTree` is a name. -/
theorem longTree_wellFormed : longTree.WellFormed :=
  Node.WellFormed.dir (by decide) (by decide)
    (List.forall_mem_singleton.mpr (Node.WellFormed.file _))

/-- The function of `longTree` is long, for the exit code is 1. -/
theorem runCommand_verdict_longTree :
    longTree.WellFormed ∧
      Arguments.parse ["--json", "."] = .ok { path := some ".", json := true } ∧
      Path.normalize "." ≠ "-" ∧ (runCommand longTree ["--json", "."]).exitCode = 1 ∧
      ∃ f : FoundFunction, longTree.SourceBelow "." "c" f.file ∧ longTree.HasFunction f ∧
        150 < f.length := by
  have hstdin : Path.normalize "." ≠ "-" := by decide +kernel
  have hcode : (runCommand longTree ["--json", "."]).exitCode = 1 := by decide +kernel
  have hverdict :=
    runCommand_verdict longTree longTree_wellFormed ["--json", "."] "." true rfl hstdin
  exact ⟨longTree_wellFormed, rfl, hstdin, hcode, hverdict.1.mp hcode⟩

end LongFunctions
