/-
The functions that a survey lists, said without a walk or a sort.

A survey sorts by nothing but length. Yet what it lists is told by the functions below its root
alone: they come by length, the longest first, those of one length by the components of their path,
and those of one file by the line of their head. No two functions have the same place, so this order
leaves nothing open (`Definition.Outranks`).

Main statement: in either form of report a survey lists the first five functions of this order, or
all of them if there are fewer, and there is one such order only (`survey_ranking`).

Three facts about orders meet here, each proved where it belongs: a listing has its files in the
order of their components (`FileSystem.pairwise_files`), the heads of a file come on increasing
lines (`Search.pairwise_firstLine`), and a stable sort keeps the order it is given among functions
of one length (`pairwise_byLength`).
-/
import LongFunctions.Proofs.Summary.Ranking
import LongFunctions.Proofs.Survey

set_option autoImplicit false

namespace LongFunctions

/-! ## 1. The order of functions -/

namespace Definition

/-- Whether a function stands before another one: in a file whose path comes first, component by
component and each by its bytes, or further up in the same file. -/
def StandsBefore (d e : Definition) : Prop :=
  componentBytes d.path < componentBytes e.path ∨
    componentBytes d.path = componentBytes e.path ∧ d.firstLine < e.firstLine

/-- Whether a function is ranked before another one: it is longer, or as long and stands before
it. -/
def Outranks (d e : Definition) : Prop :=
  e.length < d.length ∨ d.length = e.length ∧ d.StandsBefore e

theorem StandsBefore.asymm {d e : Definition} (h : d.StandsBefore e) : ¬ e.StandsBefore d := by
  rintro (hlt' | ⟨heq', hline'⟩)
  · rcases h with hlt | ⟨heq, -⟩
    · exact List.lt_asymm hlt hlt'
    · rw [heq] at hlt'
      exact List.lt_irrefl _ hlt'
  · rcases h with hlt | ⟨-, hline⟩
    · rw [heq'] at hlt
      exact List.lt_irrefl _ hlt
    · omega

theorem Outranks.asymm {d e : Definition} (h : d.Outranks e) : ¬ e.Outranks d := by
  rintro (hlonger' | ⟨hequal', hbefore'⟩)
  · rcases h with hlonger | ⟨hequal, -⟩
    · omega
    · omega
  · rcases h with hlonger | ⟨-, hbefore⟩
    · omega
    · exact hbefore.asymm hbefore'

instance : Std.Irrefl Outranks :=
  ⟨fun _ h => h.asymm h⟩

instance : Std.Antisymm Outranks :=
  ⟨fun _ _ h h' => absurd h' h.asymm⟩

end Definition

/-! ## 2. The functions of a survey -/

namespace FileSystem

variable {fs : FileSystem}

/-- The functions in the C files below the root with this text. There are none below `-`, which
stands for standard input. -/
def functionsBelow (fs : FileSystem) (root : String) : Set Definition :=
  {d | Path.normalize root ≠ "-" ∧
    ∃ f : FoundFunction, fs.SourceBelow root "c" f.file ∧ fs.HasFunction f ∧ f.definition = d}

/-- The functions that a survey finds are those below its root. -/
theorem mem_definitionsIn_iff (hfs : fs.WellFormed) (root : String) (d : Definition) :
    d ∈ fs.definitionsIn (fs.listing root sourceExtension).files ↔ d ∈ fs.functionsBelow root := by
  by_cases hstdin : Path.normalize root = "-"
  · rw [listing_of_stdin hstdin]
    constructor
    · intro hd
      cases hd
    · rintro ⟨hne, -⟩
      exact absurd hstdin hne
  · rw [definitionsIn_eq_map_found, List.mem_map]
    constructor
    · rintro ⟨f, hf, rfl⟩
      obtain ⟨hsource, hhas⟩ := (mem_found_iff hfs hstdin f).mp hf
      exact ⟨hstdin, f, hsource, hhas, rfl⟩
    · rintro ⟨-, f, hsource, hhas, rfl⟩
      exact ⟨f, (mem_found_iff hfs hstdin f).mpr ⟨hsource, hhas⟩, rfl⟩

/-- The functions of a file have its path, and come in the order of their heads. -/
theorem pairwise_definitionsOf (fs : FileSystem) (file : Path) :
    (∀ d ∈ fs.definitionsOf file, d.path = file.toString) ∧
      (fs.definitionsOf file).Pairwise fun d e => d.firstLine < e.firstLine := by
  rcases fs.definitionsOf_cases file with ⟨text, -, hsearch⟩ | ⟨-, hnil⟩
  · refine ⟨?_, hsearch.pairwise_firstLine.2⟩
    intro d hd
    obtain ⟨name, s, e, -, rfl⟩ := (hsearch.mem_iff d).mp hd
    rfl
  · rw [hnil]
    exact ⟨List.forall_mem_nil _, List.Pairwise.nil⟩

/-- A survey finds functions in the order in which they stand: file by file, and in each file from
its first line on. -/
theorem pairwise_definitionsIn (hfs : fs.WellFormed) (root ext : String) :
    (fs.definitionsIn (fs.listing root ext).files).Pairwise Definition.StandsBefore := by
  rw [definitionsIn, List.pairwise_flatMap]
  constructor
  · intro file _
    obtain ⟨hpath, hsorted⟩ := fs.pairwise_definitionsOf file
    refine hsorted.imp_of_mem ?_
    intro d e hd he hlt
    refine Or.inr ⟨?_, hlt⟩
    rw [hpath d hd, hpath e he]
  · refine (pairwise_files hfs root ext).imp_of_mem ?_
    intro p q hp hq hlt d hd e he
    -- a function has the path of its file, and a clean path is read back from its text
    rw [Definition.StandsBefore, (fs.pairwise_definitionsOf p).1 d hd,
      (fs.pairwise_definitionsOf q).1 e he, componentBytes, componentBytes,
      Path.ofString_toString (clean_of_mem_files hfs hp),
      Path.ofString_toString (clean_of_mem_files hfs hq)]
    exact Or.inl hlt

end FileSystem

/-! ## 3. What a report lists -/

/-- Whether a report lists these functions and no others, in this order and with ranks from 1 on. As
JSON it lists them in its last field; as plain text it has a line for each of them between the
heading and, if there are long functions, the line that counts these. -/
inductive Lists (ranked : List Definition) : Bool → String → Prop
  | json (threshold total tooLong : Nat) (verdict : Verdict) :
      Lists ranked true
        ((Json.obj
          [("threshold", .num threshold), ("total_functions", .num total),
           ("long_functions", .num tooLong), ("status", .str verdict.word),
           ("top", .arr ((ranked.zipIdx 1).map Summary.entryJson))]).pretty ++ "\n")
  | text (count : Nat) :
      Lists ranked false
        ("Top 5 longest functions:\n" ++ String.join ((ranked.zipIdx 1).map Summary.entryText) ++
          if count = 0 then "" else "\nFound " ++ count.repr ++ " functions exceeding 150 lines\n")

/-- The report of a survey lists what its summary lists. -/
theorem FileSystem.lists_survey (fs : FileSystem) (root : String) (json : Bool) :
    Lists (fs.survey root).summary.longest json ((fs.survey root).outcome json).stdout := by
  cases json with
  | true => exact Lists.json _ _ _ _
  | false =>
    have htext : ((fs.survey root).outcome false).stdout = (fs.survey root).summary.toText := rfl
    rw [htext, Summary.toText_eq rfl rfl]
    exact Lists.text _

/-! ## 4. The ranking of a survey -/

/-- **The ranking of a survey.** There is one way to put the functions below a root in order, so that
each of them outranks all that follow; no two of them have the same place. A survey finds each of
them once, and lists the first five of this order or, if there are fewer, all of them, whichever
form of report is asked for. -/
theorem survey_ranking (fs : FileSystem) (hfs : fs.WellFormed) (root : String) :
    ∃ ranking : List Definition,
      (∀ d, d ∈ ranking ↔ d ∈ fs.functionsBelow root) ∧
      ranking.Pairwise Definition.Outranks ∧
      (∀ other : List Definition, (∀ d, d ∈ other ↔ d ∈ fs.functionsBelow root) →
        other.Pairwise Definition.Outranks → other = ranking) ∧
      (ranking.Pairwise fun d e => ¬ (d.path = e.path ∧ d.firstLine = e.firstLine)) ∧
      ranking.Perm (fs.definitionsIn (fs.listing root sourceExtension).files) ∧
      (fs.survey root).summary.total = ranking.length ∧
      (fs.survey root).summary.longest = ranking.take 5 ∧
      ∀ json, Lists (ranking.take 5) json ((fs.survey root).outcome json).stdout := by
  have hperm := byLength_perm (fs.definitionsIn (fs.listing root sourceExtension).files)
  have hmem : ∀ d, d ∈ byLength (fs.definitionsIn (fs.listing root sourceExtension).files) ↔
      d ∈ fs.functionsBelow root := by
    intro d
    rw [hperm.mem_iff, FileSystem.mem_definitionsIn_iff hfs]
  have hranked : (byLength (fs.definitionsIn (fs.listing root sourceExtension).files)).Pairwise
      Definition.Outranks :=
    pairwise_byLength (FileSystem.pairwise_definitionsIn hfs root sourceExtension)
  refine ⟨_, hmem, hranked, ?_, ?_, hperm, hperm.length_eq.symm, rfl, fs.lists_survey root⟩
  · intro other hother hpairwise
    refine hpairwise.eq_of_mem_iff hranked ?_
    intro d
    rw [hother, hmem]
  · -- a function would not stand before another one at the same place
    have hplaces := (FileSystem.pairwise_definitionsIn hfs root sourceExtension).imp
      (S := fun d e => ¬ (d.path = e.path ∧ d.firstLine = e.firstLine)) ?_
    · exact hperm.symm.pairwise hplaces fun hne heq => hne ⟨heq.1.symm, heq.2.symm⟩
    · rintro d e (hlt | ⟨-, hline⟩) ⟨hpath, hfirst⟩
      · rw [hpath] at hlt
        exact List.lt_irrefl _ hlt
      · omega

/-- Two functions of one length, in files whose paths are in one order as components and in the
other as texts. -/
def tiedTree : FileSystem :=
  let text := "int f() \x7b\n\x7d"
  { top := [("a", .dir [("f.c", .file text.toUTF8)]), ("a b.c", .file text.toUTF8)] }

/-- The names in `tiedTree` are names, and those in one directory differ. -/
theorem tiedTree_wellFormed : tiedTree.WellFormed := by
  refine Node.WellFormed.dir (by decide) (by decide) (List.forall_mem_cons.mpr
    ⟨?_, List.forall_mem_singleton.mpr (Node.WellFormed.file _)⟩)
  exact Node.WellFormed.dir (by decide) (by decide)
    (List.forall_mem_singleton.mpr (Node.WellFormed.file _))

/-- The two files of `tiedTree` are listed by their components. -/
theorem listing_tiedTree :
    (tiedTree.listing "." "c").files = [⟨false, ["a", "f.c"]⟩, ⟨false, ["a b.c"]⟩] := by
  have hroot : tiedTree.entries? (Path.normalize ".") = some tiedTree.top := by
    refine (FileSystem.entries?_eq_some_iff _ _ _).mpr ⟨[], by decide +kernel, rfl⟩
  rw [FileSystem.files_of_pairwise hroot (by decide +kernel) (by decide +kernel)]
  decide +kernel

/-- Of the two functions of `tiedTree` the one in the directory is ranked first. -/
theorem survey_ranking_tiedTree :
    tiedTree.WellFormed ∧ ∃ d e : Definition, d.path = "a/f.c" ∧ e.path = "a b.c" ∧
      d.length = e.length ∧ Lists [d, e] false ((tiedTree.survey ".").outcome false).stdout := by
  let d : Definition := { name := "f", firstLine := 1, length := 2, path := "a/f.c" }
  let e : Definition := { name := "f", firstLine := 1, length := 2, path := "a b.c" }
  have hfound : tiedTree.definitionsIn (tiedTree.listing "." sourceExtension).files = [d, e] := by
    rw [sourceExtension, listing_tiedTree]
    decide +kernel
  have htied : [d, e].Pairwise fun d e => decide (e.length ≤ d.length) = true := by decide +kernel
  have hsurvey : (tiedTree.survey ".").summary.longest = [d, e] := by
    show (byLength _).take listedFunctions = [d, e]
    rw [hfound, byLength, List.mergeSort_of_pairwise htied]
    rfl
  obtain ⟨ranking, -, -, -, -, -, -, hlongest, hlists⟩ :=
    survey_ranking tiedTree tiedTree_wellFormed "."
  refine ⟨tiedTree_wellFormed, d, e, rfl, rfl, rfl, ?_⟩
  rw [← hsurvey, hlongest]
  exact hlists false

end LongFunctions
