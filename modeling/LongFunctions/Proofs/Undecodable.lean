/-
Files that are not text, and files that are not there.

A file that is no UTF-8 text has no functions, and a survey says nothing about it. So such a file can
as well be taken away: the outcome of a survey does not change, whatever else the tree holds
(`survey_outcome_of_undecodable`).

The two surveys do not go the same way. With the file there, it is listed, and so is every link that
leads to it, and each of them is opened in vain. Without it, the walk does not meet the file and
finds that the links lead nowhere, so none of them is listed. What makes the outcomes equal is that
the walks meet the same apart from the file (`Node.Lacks.findings_eq`), and that whatever is listed
in one survey only has no functions (`FileSystem.Lacks.definitionsIn_eq`).
-/
import LongFunctions.Proofs.FileSystem.Removal
import LongFunctions.Proofs.Listing
import LongFunctions.Survey

set_option autoImplicit false

namespace LongFunctions

/-! ## 1. A walk without the files -/

/-- Whether a finding is a regular file that is gone. -/
def Finding.isGone (gone : List String → Bool) : Finding → Bool
  | .file names => gone names
  | _ => false

namespace Node

variable {gone : List String → Bool} {a b : Node}

/-- What is pruned in one tree is pruned in every other one with the same directories, for nothing
else is pruned. -/
theorem isPruned_eq_false_of_dirs
    (hdirs : ∀ names, (∃ entries, a.find? names = some (.dir entries)) →
      ∃ entries, b.find? names = some (.dir entries)) {below : List String}
    (hb : ∀ front name rest child, below = front ++ name :: rest →
      b.find? (front ++ [name]) = some child → isPruned name child = false) :
    ∀ front name rest child, below = front ++ name :: rest →
      a.find? (front ++ [name]) = some child → isPruned name child = false := by
  intro front name rest child hbelow hchild
  cases child with
  | file content => rfl
  | link target => rfl
  | dir entries =>
    obtain ⟨entries', hchild'⟩ := hdirs _ ⟨entries, hchild⟩
    exact hb front name rest (.dir entries') hbelow hchild'

/-- A walk meets the same without the files, but for these. -/
theorem Lacks.mem_findings_iff (h : a.Lacks gone b) (ha : a.WellFormed) (hb : b.WellFormed)
    (opens : List String → Bool) (f : Finding) :
    f ∈ b.findings opens [] ↔ f ∈ a.findings opens [] ∧ f.isGone gone = false := by
  simp only [Node.mem_findings_iff, List.nil_append]
  constructor
  · rintro ⟨below, found', hvisits, hmet⟩
    obtain ⟨hfound', hopens, hkept⟩ := (visits_iff hb).mp hvisits
    have hpresent : gone below = false := by
      rw [Bool.eq_false_iff]
      intro hgone
      rw [h.missing below hgone] at hfound'
      cases hfound'
    have hface := h.same below hpresent
    rw [hfound'] at hface
    obtain ⟨found, hfound, hsame⟩ := Option.map_eq_some_iff.mp hface
    refine ⟨⟨below, found, (visits_iff ha).mpr ⟨hfound, hopens, ?_⟩, ?_⟩, ?_⟩
    · exact isPruned_eq_false_of_dirs (fun names => h.exists_dir_iff.mp) hkept
    · rw [← met?_face, hsame, met?_face, hmet]
    · cases f with
      | file names => rwa [← met?_names hmet] at hpresent
      | link names => rfl
      | closedDir names => rfl
  · rintro ⟨⟨below, found, hvisits, hmet⟩, hpresent⟩
    obtain ⟨hfound, hopens, hkept⟩ := (visits_iff ha).mp hvisits
    have hbelow : gone below = false := by
      rw [Bool.eq_false_iff]
      intro hgone
      -- what is gone is a regular file, and met as such
      obtain ⟨content, hfile⟩ := h.file below hgone
      rw [hfound] at hfile
      rw [Option.some.inj hfile] at hmet
      rw [← Option.some.inj hmet, Finding.isGone, hgone] at hpresent
      cases hpresent
    have hface := h.same below hbelow
    rw [hfound] at hface
    obtain ⟨found', hfound', hsame⟩ := Option.map_eq_some_iff.mp hface.symm
    refine ⟨below, found', (visits_iff hb).mpr ⟨hfound', hopens, ?_⟩, ?_⟩
    · exact isPruned_eq_false_of_dirs (fun names => h.exists_dir_iff.mpr) hkept
    · rw [← met?_face, hsame, met?_face, hmet]

/-- **The walk without the files** is the walk with them, less these files. -/
theorem Lacks.findings_eq (h : a.Lacks gone b) (ha : a.WellFormed) (hb : b.WellFormed)
    (opens : List String → Bool) :
    b.findings opens [] = (a.findings opens []).filter fun f => !f.isGone gone := by
  apply eq_of_pairwise_names (pairwise_findings hb opens [])
    ((pairwise_findings ha opens []).filter _)
  intro f
  rw [h.mem_findings_iff ha hb, List.mem_filter, Bool.not_eq_true']

end Node

/-! ## 2. What is listed in one survey only -/

namespace FileSystem

variable {gone : List String → Bool} {fs fs' : FileSystem}

/-- The files at these places are not UTF-8. -/
def Undecodable (fs : FileSystem) (gone : List String → Bool) : Prop :=
  ∀ place content, gone place = true → fs.find? place = some (.file content) →
    String.fromUTF8? content = none

/-- A path that leads to an undecodable file, or nowhere, has no text. -/
theorem Undecodable.readText?_eq_none (h : fs.Undecodable gone) {text : String}
    (hplace : ∀ place, fs.resolve? text = some place → gone place = true) :
    fs.readText? text = none := by
  rw [readText?]
  cases hread : fs.read? text with
  | none => rfl
  | some content =>
    obtain ⟨place, hresolve, hfile⟩ := (read?_eq_some_iff fs text content).mp hread
    exact h place content (hplace place hresolve) hfile

/-- So the file there has no functions. -/
theorem Undecodable.definitionsOf_eq_nil (h : fs.Undecodable gone) {path : Path}
    (hplace : ∀ place, fs.resolve? path.toString = some place → gone place = true) :
    fs.definitionsOf path = [] := by
  rw [definitionsOf, h.readText?_eq_none hplace]

/-- Every path has the same functions without the undecodable files. -/
theorem Lacks.definitionsOf_eq (h : fs.Lacks gone fs') (hcwd : fs.IsDir fs.cwd)
    (hbad : fs.Undecodable gone) : fs'.definitionsOf = fs.definitionsOf := by
  have htext : ∀ text, fs'.readText? text = fs.readText? text := by
    intro text
    rcases h.read?_cases hcwd text with hsame | ⟨hnone, place, hplace, hgone⟩
    · rw [readText?, readText?, hsame]
    · have hfs : fs.readText? text = none := by
        refine hbad.readText?_eq_none fun other hother => ?_
        rwa [← Option.some.inj (hplace.symm.trans hother)]
      rw [hfs, readText?, hnone, Option.bind_none]
  funext path
  rw [definitionsOf, definitionsOf, htext]

section OneDirectory

variable {root : Path} {ext : String} {place : List String} {entries : Entries} {f : Finding}

/-- An undecodable file that a walk meets has no functions. -/
theorem Lacks.definitions_of_gone (h : fs.Lacks gone fs') (hfs : fs.WellFormed)
    (hbad : fs.Undecodable gone) (hroot : root.Clean)
    (hplace : fs.resolve? root.toString = some place) (hdir : fs.find? place = some (.dir entries))
    (hgone : f.isGone (fun names => gone (place ++ names)) = true) :
    (source? fs root ext f).toList.flatMap fs.definitionsOf = [] := by
  cases hsource : source? fs root ext f with
  | none => rfl
  | some p =>
    rw [Option.toList_some, List.flatMap_singleton, eq_below_of_source? hsource]
    cases f with
    | link names => cases hgone
    | closedDir names => cases hgone
    | file names =>
      -- the path of the file leads to it, if it leads anywhere
      have hgone : gone (place ++ names) = true := hgone
      obtain ⟨content, hfile⟩ := h.tree.file _ hgone
      have hfile : fs.find? (place ++ names) = some (.file content) := hfile
      have hbelow : (Node.dir entries).find? names = some (.file content) := by
        have hdir : (Node.dir fs.top).find? place = some (.dir entries) := hdir
        rwa [find?, Node.find?_append, hdir, Option.bind_some] at hfile
      have hne : names ≠ [] := by
        rintro rfl
        rw [Node.find?_nil] at hbelow
        cases hbelow
      have hnames := (Node.WellFormed.of_find? (Node.WellFormed.of_find? hfs hdir).1 hbelow).2
      refine hbad.definitionsOf_eq_nil fun there hthere => ?_
      have htext := hthere
      rw [Finding.names, resolve?, Option.ite_none_right_eq_some] at htext
      rw [Finding.names, resolve?_below hroot hnames hne hplace ⟨entries, hdir⟩ hfile htext.1] at hthere
      rwa [← Option.some.inj hthere]

/-- What a walk meets besides has the same functions in both surveys: either it is listed in both,
or it is a link to an undecodable file. -/
theorem Lacks.definitions_of_kept (h : fs.Lacks gone fs') (hcwd : fs.IsDir fs.cwd)
    (hbad : fs.Undecodable gone) (hclean : (root.below f.names).Clean) :
    (source? fs' root ext f).toList.flatMap fs.definitionsOf =
      (source? fs root ext f).toList.flatMap fs.definitionsOf := by
  cases f with
  | file names => rfl
  | closedDir names => rfl
  | link names =>
    simp only [source?]
    rcases h.read?_cases hcwd (walkedText root names) with hsame | ⟨hnone, place, hplace, hgone⟩
    · rw [hsame]
    · rw [hnone]
      have hnil : fs.definitionsOf (root.below names) = [] := by
        refine hbad.definitionsOf_eq_nil fun other hother => ?_
        have hother : fs.resolve? (root.below names).toString = some other := hother
        have hclean : (root.below names).Clean := hclean
        rw [resolve?_of_walkedText hclean hplace] at hother
        rwa [← Option.some.inj hother]
      split_ifs with hlisted hlisted'
      · exact absurd hlisted.2 (by decide)
      · exact absurd hlisted.2 (by decide)
      · rw [Option.toList_some, List.flatMap_singleton, hnil]
        rfl
      · rfl

end OneDirectory

/-! ## 3. The two surveys -/

/-- A root leads to a directory in both file systems, and there the same files are lacking, or to no
directory in either of them. -/
theorem Lacks.entries?_cases (h : fs.Lacks gone fs') (hcwd : fs.IsDir fs.cwd) (text : String) :
    fs.entries? text = none ∧ fs'.entries? text = none ∨
      ∃ place entries entries', fs.resolve? text = some place ∧
        fs.find? place = some (.dir entries) ∧ fs.entries? text = some entries ∧
        fs'.entries? text = some entries' ∧
        (Node.dir entries).Lacks (fun names => gone (place ++ names)) (.dir entries') := by
  have hresolve := h.resolve?_eq hcwd text
  cases hentries : fs.entries? text with
  | some entries =>
    right
    obtain ⟨place, hplace, hfind⟩ := (entries?_eq_some_iff fs text entries).mp hentries
    have hkept : gone place = false := h.tree.kept_of_dir hfind
    obtain ⟨entries', hfind'⟩ := h.tree.exists_dir_iff.mp ⟨entries, hfind⟩
    rw [hplace, Option.filter_some, hkept] at hresolve
    refine ⟨place, entries, entries', hplace, hfind, rfl, ?_, h.tree.below hfind hfind'⟩
    exact (entries?_eq_some_iff fs' text entries').mpr ⟨place, hresolve, hfind'⟩
  | none =>
    left
    refine ⟨rfl, ?_⟩
    cases hentries' : fs'.entries? text with
    | none => rfl
    | some entries' =>
      -- a directory that is there without the files is there with them
      obtain ⟨place, hplace', hfind'⟩ := (entries?_eq_some_iff fs' text entries').mp hentries'
      obtain ⟨entries, hfind⟩ := h.tree.exists_dir_iff.mpr ⟨entries', hfind'⟩
      rw [hplace'] at hresolve
      have hplace := (Option.filter_eq_some_iff.mp hresolve.symm).1
      rw [(entries?_eq_some_iff fs text entries).mpr ⟨place, hplace, hfind⟩] at hentries
      cases hentries

/-- The functions in the files that are listed are those of what the walk meets, one after the
other. -/
theorem definitionsIn_filterMap (fs : FileSystem) (source : Finding → Option Path)
    (findings : List Finding) :
    fs.definitionsIn (findings.filterMap source) =
      findings.flatMap fun f => (source f).toList.flatMap fs.definitionsOf := by
  rw [definitionsIn, List.filterMap_eq_flatMap_toList, List.flatMap_assoc]

/-- **What is listed in one survey only has no functions,** so both surveys find the same. -/
theorem Lacks.definitionsIn_eq (h : fs.Lacks gone fs') (hfs : fs.WellFormed)
    (hcwd : fs.IsDir fs.cwd) (hbad : fs.Undecodable gone) {root : Path} (hroot : root.Clean)
    (ext : String) {place : List String} {entries : Entries}
    (hplace : fs.resolve? root.toString = some place) (hdir : fs.find? place = some (.dir entries))
    (opens : List String → Bool) :
    fs'.definitionsIn ((((Node.dir entries).findings opens []).filter fun f =>
        !f.isGone fun names => gone (place ++ names)).filterMap (source? fs' root ext)) =
      fs.definitionsIn (((Node.dir entries).findings opens []).filterMap (source? fs root ext)) := by
  have htree := (Node.WellFormed.of_find? hfs hdir).1
  rw [List.filterMap_filter, definitionsIn_filterMap, definitionsIn_filterMap,
    h.definitionsOf_eq hcwd hbad]
  apply List.flatMap_congr
  intro f hf
  cases hgone : f.isGone fun names => gone (place ++ names) with
  | true => exact (h.definitions_of_gone hfs hbad hroot hplace hdir hgone).symm
  | false => exact h.definitions_of_kept hcwd hbad (Node.clean_of_mem_findings htree hroot hf)

/-- A regular file is not warned about. -/
theorem warning?_of_isGone {root : Path} {gone : List String → Bool} {f : Finding}
    (h : f.isGone gone = true) : warning? root f = none := by
  cases f with
  | file names => rfl
  | link names => rfl
  | closedDir names => cases h

/-- **A survey without undecodable files** finds out the same. -/
theorem Lacks.survey_eq (h : fs.Lacks gone fs') (hfs : fs.WellFormed) (hfs' : fs'.WellFormed)
    (hcwd : fs.IsDir fs.cwd) (hbad : fs.Undecodable gone) (root : String) :
    fs'.survey root = fs.survey root := by
  rcases h.entries?_cases hcwd (Path.normalize root) with
    ⟨hnone, hnone'⟩ | ⟨place, entries, entries', hplace, hfind, hentries, hentries', hlacks⟩
  · rw [survey, survey, listing_of_entries?_eq_none hnone, listing_of_entries?_eq_none hnone']
    rfl
  by_cases hstdin : Path.normalize root = "-"
  · rw [survey, survey, listing_of_stdin hstdin, listing_of_stdin hstdin]
    rfl
  have hwell := hfs.of_entries? hentries
  have hroot := Path.clean_ofString root
  rw [survey, survey, listing_of_entries?_eq_some hentries hstdin,
    listing_of_entries?_eq_some hentries' hstdin,
    hlacks.findings_eq hwell (hfs'.of_entries? hentries')]
  dsimp only
  rw [h.definitionsIn_eq hfs hcwd hbad hroot sourceExtension hplace hfind]
  congr 1
  rw [List.filterMap_filter]
  apply List.filterMap_congr
  intro f _
  cases hgone : f.isGone fun names => gone (place ++ names) with
  | true => exact (warning?_of_isGone hgone).symm
  | false => rfl

end FileSystem

/-! ## 4. The file that may as well be missing -/

/-- Bytes that are not the UTF-8 form of any characters are no text. -/
theorem fromUTF8?_eq_none {bytes : ByteArray} (h : ∀ chars : List Char, bytes ≠ chars.utf8Encode) :
    String.fromUTF8? bytes = none := by
  rw [String.fromUTF8?, dif_neg]
  rintro ⟨chars, hchars⟩
  exact h chars hchars

open FileSystem in
/-- **An undecodable file is as good as absent.** Put bytes that are not the UTF-8 form of any
sequence of characters in the place of any file of a well-formed file system: every survey, from
every working directory and in either form of report, prints, warns and exits as it does when the
file is taken out of its directory. -/
theorem survey_outcome_of_undecodable (fs : FileSystem) (hfs : fs.WellFormed)
    (hcwd : fs.IsDir fs.cwd) (place : List String) (content : ByteArray)
    (hplace : fs.find? place = some (.file content)) (bytes : ByteArray)
    (hbytes : ∀ chars : List Char, bytes ≠ chars.utf8Encode) (root : String) (json : Bool) :
    ((fs.insert place (.file bytes)).survey root).outcome json =
      ((fs.remove place).survey root).outcome json := by
  have hne := ne_nil_of_file hplace
  have hbad := find?_insert_file hne hplace bytes
  -- removing the undecodable file leaves what removing the file leaves
  have hlacks := lacks_remove hbad
  rw [remove_insert_file hne hplace] at hlacks
  have hdir : (fs.insert place (.file bytes)).IsDir (fs.insert place (.file bytes)).cwd := by
    rwa [cwd_insert, hlacks.isDir_iff, ← (lacks_remove hplace).isDir_iff]
  have hundecodable : (fs.insert place (.file bytes)).Undecodable fun names => names = place := by
    intro names other hnames hfile
    rw [of_decide_eq_true hnames, hbad] at hfile
    cases hfile
    exact fromUTF8?_eq_none hbytes
  rw [hlacks.survey_eq (hfs.insert_file hne hplace bytes) (hfs.remove place) hdir hundecodable]

/-- A file with a function, and a link that leads to the file. -/
def followedTree : FileSystem :=
  { top := [("f.c", .file "int f() \x7b\n\x7d".toUTF8), ("l.c", .link "f.c")] }

/-- The names in `followedTree` are names, and they differ. -/
theorem followedTree_wellFormed : followedTree.WellFormed :=
  Node.WellFormed.dir (by decide) (by decide) (List.forall_mem_cons.mpr
    ⟨Node.WellFormed.file _, List.forall_mem_singleton.mpr (Node.WellFormed.link _)⟩)

/-- The null character in two bytes, where one is enough. -/
def overlongBytes : ByteArray :=
  ⟨#[0xC0, 0x80]⟩

theorem overlongBytes_ne (chars : List Char) : overlongBytes ≠ chars.utf8Encode := by
  intro hchars
  have hvalid : overlongBytes.IsValidUTF8 := ⟨chars, hchars⟩
  exact absurd hvalid (by decide +kernel)

/-- Of the two surveys of `followedTree` one finds the link leading to bytes that are no text, and
the other finds it leading nowhere. -/
theorem survey_outcome_of_undecodable_followedTree :
    followedTree.WellFormed ∧ followedTree.IsDir followedTree.cwd ∧
      (followedTree.insert ["f.c"] (.file overlongBytes)).resolve? "l.c" = some ["f.c"] ∧
      (followedTree.remove ["f.c"]).resolve? "l.c" = none ∧
      ∀ json, ((followedTree.insert ["f.c"] (.file overlongBytes)).survey ".").outcome json =
        ((followedTree.remove ["f.c"]).survey ".").outcome json := by
  have hdir : followedTree.IsDir followedTree.cwd := followedTree.isDir_nil
  refine ⟨followedTree_wellFormed, hdir, by decide +kernel, by decide +kernel, ?_⟩
  exact survey_outcome_of_undecodable followedTree followedTree_wellFormed hdir ["f.c"] _ rfl
    overlongBytes overlongBytes_ne "."

end LongFunctions
