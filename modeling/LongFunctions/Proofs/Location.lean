/-
One directory, surveyed from two places.

A directory can be surveyed from inside, with `.` as the root, or from further up, with the names
that lead down to it as the root. The two surveys go different ways: from inside the walk writes
`./` in front of its paths and the listing leaves it out again, from further up the names stand in
front of every path. What they find is the same, and the paths differ by the names in front
(`survey_enter`).

Two things carry this. Names that lead down through real directories are followed without a link, so
a path read further up and the rest of the path read inside lead to one place
(`FileSystem.resolve?_enter`). And no path from inside is longer than the path from further up, so
when these are short enough both walks open every directory (`FileSystem.LeadsDown.findings_eq`).

One directory cannot be surveyed from further up: the one called `-`, for as a root `-` stands for
standard input (`files_ne_of_stdinTree`).
-/
import LongFunctions.Proofs.Definition.Reading
import LongFunctions.Proofs.FileSystem.Paths
import LongFunctions.Proofs.Listing
import LongFunctions.Survey

set_option autoImplicit false

namespace LongFunctions

/-! ## 1. Names in front of a path -/

namespace Path

/-- The path with these names in front of its parts. -/
def behind (way : List String) (path : Path) : Path :=
  { path with parts := way ++ path.parts }

theorem behind_current_below (way names : List String) :
    (current.below names).behind way = current.below (way ++ names) := rfl

theorem toString_current_below {way : List String} (hway : way ≠ []) :
    (current.below way).toString = String.intercalate "/" way := by
  simp [toString, below, current, hway]

/-- The text of a path behind names is the text of the path behind their text. -/
theorem toString_behind {way names : List String} (hway : way ≠ []) (hnames : names ≠ []) :
    ((current.below names).behind way).toString =
      String.intercalate "/" way ++ "/" ++ (current.below names).toString := by
  have hparts : way ++ names ≠ [] := List.append_ne_nil_of_left_ne_nil hway names
  rw [behind_current_below, toString_current_below hparts, toString_current_below hnames,
    String.intercalate_append_of_ne_nil hway hnames]

end Path

/-- A text that is short enough is the text of a path unless it is empty or holds the null
character. -/
theorem isPathText_of_short {text : String} (hne : text ≠ "")
    (hshort : text.utf8ByteSize < pathLimit) :
    isPathText text = !text.toList.contains '\x00' := by
  have hempty : text.isEmpty = false := String.isEmpty_eq_false_iff.mpr hne
  rw [isPathText, hempty, decide_eq_true hshort]
  rfl

/-- What stands before a slash makes no difference, as long as it holds no null character. -/
theorem isPathText_slash_append {front rest : String} (hfront : '\x00' ∉ front.toList)
    (hshort : (front ++ "/" ++ rest).utf8ByteSize < pathLimit) :
    isPathText (front ++ "/" ++ rest) = !rest.toList.contains '\x00' := by
  have hne : front ++ "/" ++ rest ≠ "" := by
    intro hempty
    have hsize := congrArg String.utf8ByteSize hempty
    simp at hsize
  rw [isPathText_of_short hne hshort]
  simp [hfront]

theorem null_not_mem_intercalate {way : List String} (h : ∀ name ∈ way, '\x00' ∉ name.toList) :
    '\x00' ∉ (String.intercalate "/" way).toList := by
  induction way with
  | nil => simp
  | cons name way ih =>
    rw [List.forall_mem_cons] at h
    cases way with
    | nil => simpa using h.1
    | cons next way =>
      rw [String.intercalate_cons_cons, String.toList_append, String.toList_append,
        List.mem_append, List.mem_append]
      rintro ((hname | hslash) | hrest)
      · exact h.1 hname
      · exact absurd hslash (by decide)
      · exact ih h.2 hrest

/-! ## 2. Another working directory -/

namespace FileSystem

/-- The same file system, with the directory behind these names as the working directory. -/
def enter (fs : FileSystem) (way : List String) : FileSystem :=
  { fs with cwd := fs.cwd ++ way }

variable {fs : FileSystem} {way names : List String} {entries : Entries}

theorem follow_enter (fs : FileSystem) (way : List String) (links : Nat)
    (here parts : List String) :
    (fs.enter way).follow links here parts = fs.follow links here parts := by
  have hsame : (Node.dir (fs.enter way).top).Same (.dir fs.top) := fun _ => rfl
  exact follow_eq_of_same hsame links here parts

/-- A path with names in front leads where the rest of the path leads behind these names. -/
theorem resolve?_enter (hway : ∀ name ∈ way, IsName name) (hdir : fs.IsDir (fs.cwd ++ way))
    {text text' : String} (h : Spells text ((Path.current.below names).behind way))
    (h' : Spells text' (Path.current.below names)) (htext : isPathText text' = isPathText text) :
    (fs.enter way).resolve? text' = fs.resolve? text := by
  have horigin : fs.origin ((Path.current.below names).behind way) = fs.cwd := rfl
  have horigin' : (fs.enter way).origin (Path.current.below names) = fs.cwd ++ way := rfl
  have hparts : ((Path.current.below names).behind way).parts = way ++ names := rfl
  have hparts' : (Path.current.below names).parts = names := rfl
  rw [resolve?_of_spells h, resolve?_of_spells h', htext, horigin, horigin', hparts, hparts',
    follow_enter, follow_names hway hdir]

theorem read?_enter (hway : ∀ name ∈ way, IsName name) (hdir : fs.IsDir (fs.cwd ++ way))
    {text text' : String} (h : Spells text ((Path.current.below names).behind way))
    (h' : Spells text' (Path.current.below names)) (htext : isPathText text' = isPathText text) :
    (fs.enter way).read? text' = fs.read? text := by
  rw [read?, read?, resolve?_enter hway hdir h h' htext]
  rfl

/-! ## 3. A directory further down -/

/-- Names lead from the working directory down to a directory with these entries, and its paths are
short enough from there. -/
structure LeadsDown (fs : FileSystem) (way : List String) (entries : Entries) : Prop where
  ne_nil : way ≠ []
  /-- As in all file systems, no name holds the null character. -/
  no_null : ∀ name ∈ way, '\x00' ∉ name.toList
  dir : fs.find? (fs.cwd ++ way) = some (.dir entries)
  /-- Whatever a walk of the directory comes to, its path stays below the limit. -/
  short : ∀ names found,
    Node.Visits (opensDir (Path.current.below way)) [] (.dir entries) names found →
      (walkedText (Path.current.below way) names).utf8ByteSize < pathLimit

theorem LeadsDown.isName (h : fs.LeadsDown way entries) (hfs : fs.WellFormed) :
    ∀ name ∈ way, IsName name := by
  intro name hname
  exact (Node.WellFormed.of_find? hfs h.dir).2 name (List.mem_append_right _ hname)

theorem LeadsDown.wellFormed (h : fs.LeadsDown way entries) (hfs : fs.WellFormed) :
    (Node.dir entries).WellFormed :=
  (Node.WellFormed.of_find? hfs h.dir).1

theorem LeadsDown.clean (h : fs.LeadsDown way entries) (hfs : fs.WellFormed) :
    (Path.current.below way).Clean :=
  fun name hname => (h.isName hfs name hname).1

/-- From further up, a walk uses the paths as they are listed. -/
theorem LeadsDown.walkedText_eq (h : fs.LeadsDown way entries) (names : List String) :
    walkedText (Path.current.below way) names = ((Path.current.below names).behind way).toString := by
  have hroot : Path.current.below way ≠ Path.current := by
    intro heq
    exact h.ne_nil (congrArg Path.parts heq)
  rw [walkedText, if_neg (not_and_of_not_left _ hroot)]
  rfl

/-- From inside, a walk uses paths with `./` in front. -/
theorem walkedText_current (hnames : names ≠ []) :
    walkedText Path.current names = "./" ++ (Path.current.below names).toString := by
  rw [walkedText, if_pos ⟨rfl, hnames⟩]

/-- No path is longer from inside. -/
theorem LeadsDown.size_le (h : fs.LeadsDown way entries) (hfs : fs.WellFormed)
    (names : List String) :
    (walkedText Path.current names).utf8ByteSize ≤
      (walkedText (Path.current.below way) names).utf8ByteSize := by
  have hfront : (String.intercalate "/" way).utf8ByteSize ≠ 0 := by
    rw [← Path.toString_current_below h.ne_nil, Ne, String.utf8ByteSize_eq_zero_iff]
    exact (h.clean hfs).toString_ne_empty
  have hslash : "/".utf8ByteSize = 1 := by decide
  have hdot : ".".utf8ByteSize = 1 := by decide
  have hdotslash : "./".utf8ByteSize = 2 := by decide
  rw [h.walkedText_eq]
  by_cases hnames : names = []
  · subst hnames
    have hway : ((Path.current.below []).behind way).toString = String.intercalate "/" way := by
      rw [Path.behind_current_below, List.append_nil, Path.toString_current_below h.ne_nil]
    have hcurrent : walkedText Path.current [] = "." := rfl
    rw [hway, hcurrent]
    omega
  · rw [walkedText_current hnames, Path.toString_behind h.ne_nil hnames, String.utf8ByteSize_append,
      String.utf8ByteSize_append, String.utf8ByteSize_append]
    omega

/-- **Both walks meet the same.** The paths are short enough, so both open every directory that they
come to. -/
theorem LeadsDown.findings_eq (h : fs.LeadsDown way entries) (hfs : fs.WellFormed) :
    (Node.dir entries).findings (opensDir (Path.current.below way)) [] =
      (Node.dir entries).findings (opensDir Path.current) [] := by
  refine Node.findings_congr fun names found hvisits => ?_
  have hshort := h.short names found hvisits
  have hshort' := (h.size_le hfs names).trans_lt hshort
  rw [List.nil_append, opensDir, opensDir, decide_eq_true hshort, decide_eq_true hshort']

/-! ## 4. What is listed from there -/

/-- The path of what a walk meets is short enough. -/
theorem LeadsDown.short_of_mem_findings (h : fs.LeadsDown way entries) {f : Finding}
    (hf : f ∈ (Node.dir entries).findings (opensDir (Path.current.below way)) []) :
    (walkedText (Path.current.below way) f.names).utf8ByteSize < pathLimit := by
  obtain ⟨found, hvisits, -⟩ := Node.exists_visits_of_mem_findings hf
  exact h.short f.names found hvisits

/-- The path of what stands behind these names is the text of a path from further up if it is one
from inside, with or without `./` in front. All three are short enough, and the null character can
only stand in these names. -/
theorem LeadsDown.isPathText_eq (h : fs.LeadsDown way entries) (hfs : fs.WellFormed)
    (hnames : ∀ name ∈ names, IsName name) (hne : names ≠ [])
    (hshort : (walkedText (Path.current.below way) names).utf8ByteSize < pathLimit) :
    isPathText (walkedText Path.current names) =
        isPathText ((Path.current.below names).behind way).toString ∧
      isPathText (Path.current.below names).toString =
        isPathText ((Path.current.below names).behind way).toString := by
  have hclean : (Path.current.below names).Clean := fun name hname => (hnames name hname).1
  have hdotslash : "./" ++ (Path.current.below names).toString =
      "." ++ "/" ++ (Path.current.below names).toString := rfl
  have hsize := (h.size_le hfs names).trans_lt hshort
  rw [h.walkedText_eq, Path.toString_behind h.ne_nil hne] at hshort
  rw [walkedText_current hne] at hsize ⊢
  rw [Path.toString_behind h.ne_nil hne,
    isPathText_slash_append (null_not_mem_intercalate h.no_null) hshort]
  constructor
  · rw [hdotslash] at hsize ⊢
    exact isPathText_slash_append (by decide) hsize
  · rw [String.utf8ByteSize_append] at hsize
    exact isPathText_of_short hclean.toString_ne_empty (by omega)

/-- From further up, the path of what stands behind these names reads what it reads from inside,
with or without `./` in front. -/
theorem LeadsDown.read?_eq (h : fs.LeadsDown way entries) (hfs : fs.WellFormed)
    (hnames : ∀ name ∈ names, IsName name) (hne : names ≠ [])
    (hshort : (walkedText (Path.current.below way) names).utf8ByteSize < pathLimit) :
    (fs.enter way).read? (walkedText Path.current names) =
        fs.read? (walkedText (Path.current.below way) names) ∧
      (fs.enter way).read? (Path.current.below names).toString =
        fs.read? ((Path.current.below names).behind way).toString := by
  have hclean : (Path.current.below names).Clean := fun name hname => (hnames name hname).1
  have hspells : Spells ((Path.current.below names).behind way).toString
      ((Path.current.below names).behind way) :=
    Path.Clean.spells ((h.clean hfs).below fun name hname => (hnames name hname).1)
  obtain ⟨htext, htext'⟩ := h.isPathText_eq hfs hnames hne hshort
  rw [h.walkedText_eq]
  constructor
  · exact read?_enter (h.isName hfs) ⟨entries, h.dir⟩ hspells (spells_walkedText hclean) htext
  · exact read?_enter (h.isName hfs) ⟨entries, h.dir⟩ hspells hclean.spells htext'

/-- A walk starts in a directory, so whatever it meets stands behind at least one name, unless it
meets the directory itself. -/
theorem names_ne_nil_of_mem_findings {opens : List String → Bool} {f : Finding}
    (hf : f ∈ (Node.dir entries).findings opens []) : f = .closedDir [] ∨ f.names ≠ [] := by
  by_cases hnames : f.names = []
  · obtain ⟨found, hvisits, hmet⟩ := Node.exists_visits_of_mem_findings hf
    rw [hnames] at hvisits hmet
    -- behind no names stands the directory, which is met only when it could not be opened
    cases hvisits
    rw [Node.met?] at hmet
    split_ifs at hmet
    exact Or.inl (Option.some.inj hmet).symm
  · exact Or.inr hnames

/-- The last name tells the extension. -/
theorem hasExtension_behind (hne : names ≠ []) (ext : String) :
    ((Path.current.below names).behind way).hasExtension ext =
      (Path.current.below names).hasExtension ext := by
  have hlast : ((Path.current.below names).behind way).parts.getLast? =
      (Path.current.below names).parts.getLast? := List.getLast?_append_of_ne_nil way hne
  rw [Path.hasExtension, Path.hasExtension, Path.fileName?, Path.fileName?, hlast]

/-- What a walk meets is a source file from further up if it is one from inside, and has its path
behind the names that lead down. -/
theorem LeadsDown.source?_eq (h : fs.LeadsDown way entries) (hfs : fs.WellFormed) (ext : String)
    {f : Finding} (hf : f ∈ (Node.dir entries).findings (opensDir (Path.current.below way)) []) :
    source? fs (Path.current.below way) ext f =
      (source? (fs.enter way) Path.current ext f).map (Path.behind way) := by
  rcases names_ne_nil_of_mem_findings hf with rfl | hne
  · rfl
  have hnames := Node.isName_of_mem_findings (h.wellFormed hfs) hf
  have hshort := h.short_of_mem_findings hf
  cases f with
  | closedDir names => rfl
  | file names =>
    have hpath : (Path.current.below way).below names = (Path.current.below names).behind way := rfl
    have hext : ((Path.current.below names).behind way).hasExtension ext =
        (Path.current.below names).hasExtension ext := hasExtension_behind hne ext
    simp only [source?, hpath, hext]
    split_ifs <;> rfl
  | link names =>
    have hpath : (Path.current.below way).below names = (Path.current.below names).behind way := rfl
    have hext : ((Path.current.below names).behind way).hasExtension ext =
        (Path.current.below names).hasExtension ext := hasExtension_behind hne ext
    have hread : (fs.enter way).read? (walkedText Path.current names) =
        fs.read? (walkedText (Path.current.below way) names) :=
      (h.read?_eq hfs hnames hne hshort).1
    simp only [source?, hpath, hext, hread]
    split_ifs <;> rfl

/-- The text of the names is the text of their path. -/
theorem LeadsDown.ofString_eq (h : fs.LeadsDown way entries) (hfs : fs.WellFormed) :
    Path.ofString (String.intercalate "/" way) = Path.current.below way := by
  rw [← Path.toString_current_below h.ne_nil, Path.ofString_toString (h.clean hfs)]

/-- From further up the names lead to the directory, and from inside the dot does. -/
theorem LeadsDown.resolve?_eq (h : fs.LeadsDown way entries) (hfs : fs.WellFormed) :
    fs.resolve? (String.intercalate "/" way) = some (fs.cwd ++ way) ∧
      (fs.enter way).resolve? "." = some (fs.cwd ++ way) := by
  have hbelow : (Path.current.below []).behind way = Path.current.below way := by
    rw [Path.behind_current_below, List.append_nil]
  have hspells : Spells (String.intercalate "/" way) ((Path.current.below []).behind way) := by
    rw [hbelow, ← Path.toString_current_below h.ne_nil]
    exact (h.clean hfs).spells
  have hdot : Spells "." (Path.current.below []) := ⟨rfl, ["."], by decide, by decide +kernel⟩
  have hempty := (h.clean hfs).toString_ne_empty
  have hshort := h.short [] _ (Node.Visits.here _ _)
  rw [h.walkedText_eq, hbelow] at hshort
  rw [Path.toString_current_below h.ne_nil] at hempty hshort
  have htext : isPathText (String.intercalate "/" way) = true := by
    rw [isPathText_of_short hempty hshort]
    simpa using null_not_mem_intercalate h.no_null
  have hdottext : isPathText "." = isPathText (String.intercalate "/" way) := by
    rw [htext]
    decide +kernel
  have hinside : (fs.enter way).resolve? "." = some (fs.cwd ++ way) := by
    rw [resolve?_of_spells hdot, hdottext, if_pos htext]
    exact follow_of_arrived rfl linkLimit
  refine ⟨?_, hinside⟩
  rw [← resolve?_enter (h.isName hfs) ⟨entries, h.dir⟩ hspells hdot hdottext]
  exact hinside

/-- The listing from further up is made of what a walk of the directory meets. -/
theorem LeadsDown.files_above (h : fs.LeadsDown way entries) (hfs : fs.WellFormed)
    (hstdin : way ≠ ["-"]) (ext : String) :
    (fs.listing (String.intercalate "/" way) ext).files =
      ((Node.dir entries).findings (opensDir (Path.current.below way)) []).filterMap
        (source? fs (Path.current.below way) ext) := by
  have hroot := h.ofString_eq hfs
  have hnormal : Path.normalize (String.intercalate "/" way) = String.intercalate "/" way := by
    rw [Path.normalize, hroot, Path.toString_current_below h.ne_nil]
  have hplace := (h.resolve?_eq hfs).1
  rw [← hnormal] at hplace
  have hentries := (entries?_eq_some_iff fs _ entries).mpr ⟨_, hplace, h.dir⟩
  have hnot : Path.normalize (String.intercalate "/" way) ≠ "-" := by
    have hdash : (Path.current.below ["-"]).Clean :=
      List.forall_mem_singleton.mpr ⟨by decide, by decide, by decide⟩
    have htext : (Path.current.below ["-"]).toString = "-" := by decide +kernel
    rw [Path.normalize, hroot, ← htext, Ne, (h.clean hfs).toString_inj hdash]
    exact fun heq => hstdin (congrArg Path.parts heq)
  rw [listing_of_entries?_eq_some hentries hnot, hroot]

/-- The listing from inside is made of what the same walk meets. -/
theorem LeadsDown.files_inside (h : fs.LeadsDown way entries) (hfs : fs.WellFormed)
    (ext : String) :
    ((fs.enter way).listing "." ext).files =
      ((Node.dir entries).findings (opensDir (Path.current.below way)) []).filterMap
        (source? (fs.enter way) Path.current ext) := by
  have hroot : Path.ofString "." = Path.current := by decide +kernel
  have hnormal : Path.normalize "." = "." := by decide +kernel
  have hplace := (h.resolve?_eq hfs).2
  rw [← hnormal] at hplace
  have hentries := (entries?_eq_some_iff (fs.enter way) _ entries).mpr ⟨_, hplace, h.dir⟩
  rw [listing_of_entries?_eq_some hentries (by decide +kernel), hroot, h.findings_eq hfs]

/-- **Both listings have the same files,** the one from further up behind the names that lead
down. -/
theorem LeadsDown.files_eq (h : fs.LeadsDown way entries) (hfs : fs.WellFormed)
    (hstdin : way ≠ ["-"]) (ext : String) :
    (fs.listing (String.intercalate "/" way) ext).files =
      ((fs.enter way).listing "." ext).files.map (Path.behind way) := by
  rw [h.files_above hfs hstdin, h.files_inside hfs, List.map_filterMap]
  exact List.filterMap_congr fun f hf => h.source?_eq hfs ext hf

/-- Whatever is listed from inside stands behind names of the directory, by a path that is short
enough from further up. -/
theorem LeadsDown.exists_names (h : fs.LeadsDown way entries) (hfs : fs.WellFormed)
    {ext : String} {p : Path} (hp : p ∈ ((fs.enter way).listing "." ext).files) :
    ∃ names, p = Path.current.below names ∧ (∀ name ∈ names, IsName name) ∧ names ≠ [] ∧
      (walkedText (Path.current.below way) names).utf8ByteSize < pathLimit := by
  rw [h.files_inside hfs, List.mem_filterMap] at hp
  obtain ⟨f, hf, hsource⟩ := hp
  refine ⟨f.names, eq_below_of_source? hsource, Node.isName_of_mem_findings (h.wellFormed hfs) hf,
    ?_, h.short_of_mem_findings hf⟩
  rcases names_ne_nil_of_mem_findings hf with rfl | hne
  · cases hsource
  · exact hne

end FileSystem

/-! ## 5. What is found there -/

namespace Definition

/-- The function in the file with this text and a slash in front of its path. -/
def behind (front : String) (d : Definition) : Definition :=
  { d with path := front ++ "/" ++ d.path }

theorem length_behind (front : String) (d : Definition) : (d.behind front).length = d.length := rfl

end Definition

/-- A summary of functions that are changed but not in their length is the summary of the functions,
with those that it lists changed. -/
theorem Summary.ofDefinitions_map {change : Definition → Definition}
    (hchange : ∀ d, (change d).length = d.length) (definitions : List Definition)
    (limit threshold : Nat) :
    Summary.ofDefinitions (definitions.map change) limit threshold =
      { Summary.ofDefinitions definitions limit threshold with
        longest := (Summary.ofDefinitions definitions limit threshold).longest.map change } := by
  have hlonger : byLength (definitions.map change) = (byLength definitions).map change := by
    refine (List.map_mergeSort fun d _ e _ => ?_).symm
    rw [hchange, hchange]
  have hlong : (definitions.map change).countP (·.isLong threshold) =
      definitions.countP (·.isLong threshold) := by
    rw [List.countP_map]
    refine List.countP_congr fun d _ => ?_
    rw [Function.comp, Definition.isLong, Definition.isLong, hchange]
  rw [ofDefinitions, ofDefinitions, hlonger, hlong, List.length_map, ← List.map_take]

namespace FileSystem

variable {fs : FileSystem} {way names : List String} {entries : Entries}

/-- From further up, a file has the functions that it has from inside. -/
theorem LeadsDown.definitionsOf_eq (h : fs.LeadsDown way entries) (hfs : fs.WellFormed)
    (hnames : ∀ name ∈ names, IsName name) (hne : names ≠ [])
    (hshort : (walkedText (Path.current.below way) names).utf8ByteSize < pathLimit) :
    fs.definitionsOf ((Path.current.below names).behind way) =
      ((fs.enter way).definitionsOf (Path.current.below names)).map
        (·.behind (String.intercalate "/" way)) := by
  have hread := (h.read?_eq hfs hnames hne hshort).2
  rw [definitionsOf, definitionsOf, readText?, readText?, hread]
  cases (fs.read? ((Path.current.below names).behind way).toString).bind String.fromUTF8? with
  | none => rfl
  | some content =>
    dsimp only
    rw [findDefinitions_eq_map_extents, findDefinitions_eq_map_extents, List.map_map,
      Path.toString_behind h.ne_nil hne]
    rfl

/-- **Both surveys find the same functions,** the one from further up in files behind the names that
lead down. -/
theorem LeadsDown.definitionsIn_eq (h : fs.LeadsDown way entries) (hfs : fs.WellFormed)
    (hstdin : way ≠ ["-"]) (ext : String) :
    fs.definitionsIn (fs.listing (String.intercalate "/" way) ext).files =
      ((fs.enter way).definitionsIn ((fs.enter way).listing "." ext).files).map
        (·.behind (String.intercalate "/" way)) := by
  rw [h.files_eq hfs hstdin, definitionsIn, definitionsIn, List.flatMap_map, List.map_flatMap]
  refine List.flatMap_congr fun p hp => ?_
  obtain ⟨names, rfl, hnames, hne, hshort⟩ := h.exists_names hfs hp
  exact h.definitionsOf_eq hfs hnames hne hshort

end FileSystem

/-! ## 6. The two surveys -/

open FileSystem in
/-- **A directory is surveyed alike from inside and from further up.** Let names lead from the
working directory down to a directory, by paths that stay below the limit, and let them not be the
one name `-`. The listing with these names as its root is the listing of the directory from inside,
with the names in front of every path. The survey finds the same functions on the same lines, and
its summary is the same but for the paths; so the exit code is the same, whichever form of report is
asked for. -/
theorem survey_enter (fs : FileSystem) (hfs : fs.WellFormed) (way : List String)
    (entries : Entries) (hway : fs.LeadsDown way entries) (hstdin : way ≠ ["-"]) :
    (∀ ext, (fs.listing (String.intercalate "/" way) ext).files.map Path.toString =
      ((fs.enter way).listing "." ext).files.map
        fun file => String.intercalate "/" way ++ "/" ++ file.toString) ∧
    (fs.definitionsIn (fs.listing (String.intercalate "/" way) sourceExtension).files =
      ((fs.enter way).definitionsIn ((fs.enter way).listing "." sourceExtension).files).map
        (·.behind (String.intercalate "/" way))) ∧
    (fs.survey (String.intercalate "/" way)).summary =
      { ((fs.enter way).survey ".").summary with
        longest := ((fs.enter way).survey ".").summary.longest.map
          (·.behind (String.intercalate "/" way)) } ∧
    ∀ json, ((fs.survey (String.intercalate "/" way)).outcome json).exitCode =
      (((fs.enter way).survey ".").outcome json).exitCode := by
  have hfound := hway.definitionsIn_eq hfs hstdin sourceExtension
  have hsummary : (fs.survey (String.intercalate "/" way)).summary =
      { ((fs.enter way).survey ".").summary with
        longest := ((fs.enter way).survey ".").summary.longest.map
          (·.behind (String.intercalate "/" way)) } := by
    rw [survey, survey]
    dsimp only
    rw [hfound]
    exact Summary.ofDefinitions_map (Definition.length_behind _) _ _ _
  refine ⟨?_, hfound, hsummary, ?_⟩
  · intro ext
    rw [hway.files_eq hfs hstdin, List.map_map]
    refine List.map_congr_left fun p hp => ?_
    obtain ⟨names, rfl, -, hne, -⟩ := hway.exists_names hfs hp
    exact Path.toString_behind hway.ne_nil hne
  · intro json
    rw [Survey.outcome, Survey.outcome, hsummary]

/-- From `lib`, the directory `a` of `linkedTree` can be surveyed by its name. -/
theorem linkedTree_leadsDown : linkedTree.LeadsDown ["a"] [("l.c", .link "../b c.c")] := by
  refine ⟨by decide, by decide, rfl, ?_⟩
  intro names found hvisits
  -- a walk comes to the directory and to the link in it
  cases hvisits with
  | here => decide +kernel
  | into _ hlisted _ hlater =>
    rw [List.mem_singleton, Prod.mk.injEq] at hlisted
    obtain ⟨rfl, rfl⟩ := hlisted
    cases hlater
    decide +kernel

/-- From both places the link of `linkedTree` is listed, which leads out of the directory. -/
theorem survey_enter_linkedTree :
    linkedTree.WellFormed ∧ linkedTree.LeadsDown ["a"] [("l.c", .link "../b c.c")] ∧
      ((linkedTree.enter ["a"]).listing "." "c").files.map Path.toString = ["l.c"] ∧
      (linkedTree.listing "a" "c").files.map Path.toString = ["a/l.c"] := by
  have hinside : ((linkedTree.enter ["a"]).listing "." "c").files = [⟨false, ["l.c"]⟩] := by
    decide +kernel
  have hlisted := (survey_enter linkedTree linkedTree_wellFormed ["a"] _ linkedTree_leadsDown
    (by decide)).1 "c"
  have htext : String.intercalate "/" ["a"] = "a" := by decide +kernel
  rw [hinside, htext] at hlisted
  rw [hinside]
  exact ⟨linkedTree_wellFormed, linkedTree_leadsDown, rfl, hlisted⟩

/-- A file in a directory called `-`. -/
def stdinTree : FileSystem :=
  { top := [("-", .dir [("a.c", .file .empty)])] }

/-- From inside, the file in the directory called `-` is listed. From further up the name of the
directory stands for standard input, and nothing is listed. -/
theorem files_ne_of_stdinTree :
    stdinTree.WellFormed ∧ stdinTree.LeadsDown ["-"] [("a.c", .file .empty)] ∧
      (stdinTree.listing (String.intercalate "/" ["-"]) "c").files.map Path.toString ≠
        ((stdinTree.enter ["-"]).listing "." "c").files.map
          fun file => String.intercalate "/" ["-"] ++ "/" ++ file.toString := by
  refine ⟨?_, ⟨by decide, by decide, rfl, ?_⟩, ?_⟩
  · exact Node.WellFormed.dir (by decide) (by decide) (List.forall_mem_singleton.mpr
      (Node.WellFormed.dir (by decide) (by decide)
        (List.forall_mem_singleton.mpr (Node.WellFormed.file _))))
  · intro names found hvisits
    cases hvisits with
    | here => decide +kernel
    | into _ hlisted _ hlater =>
      rw [List.mem_singleton, Prod.mk.injEq] at hlisted
      obtain ⟨rfl, rfl⟩ := hlisted
      cases hlater
      decide +kernel
  · have htext : Path.normalize (String.intercalate "/" ["-"]) = "-" := by decide +kernel
    have hinside : ((stdinTree.enter ["-"]).listing "." "c").files = [⟨false, ["a.c"]⟩] := by
      decide +kernel
    rw [FileSystem.listing_of_stdin htext, hinside]
    exact (List.cons_ne_nil _ _).symm

end LongFunctions
