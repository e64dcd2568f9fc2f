/-
A survey after a file has been added.

A new file hides nothing. Whatever a survey found before, it finds again, and at most there is more
in between: further files in the listing, further functions, a higher count of long ones. So a
survey that failed fails again (`survey_insert`).

The new file can stand anywhere, and may be found under more names than its own. It can end a link
that led nowhere, and make a directory of the root that there was not before. None of this matters
here, since every statement goes from what was there to what is there now. Names that led to a
source file lead to it still (`FileSystem.SourceAt.mono`), and both listings are in the same strict
order, so the old one is what is left of the new one when the new files are taken out
(`FileSystem.Within.files_sublist`).
-/
import LongFunctions.Proofs.FileSystem.Growth
import LongFunctions.Proofs.Survey

set_option autoImplicit false

namespace LongFunctions

namespace FileSystem

variable {fs fs' : FileSystem}

/-! ## 1. The listing -/

/-- Names that led to a source file lead to it still. -/
theorem SourceAt.mono {root : Path} {ext : String} {tree tree' : Node} {names : List String}
    (h : fs.SourceAt root ext tree names) (hfs : fs.Within fs') (htree : tree.Within tree') :
    fs'.SourceAt root ext tree' names := by
  refine ⟨?_, ?_, h.extension⟩
  · intro front rest hfront hrest hnames
    obtain ⟨⟨entries, hdir⟩, hgit, hshort⟩ := h.way front rest hfront hrest hnames
    obtain ⟨entries', hdir', -⟩ := htree.dir hdir
    exact ⟨⟨entries', hdir'⟩, hgit, hshort⟩
  · rcases h.leads with ⟨content, hfile⟩ | ⟨⟨target, hlink⟩, place, content, hplace, hfile⟩
    · exact Or.inl ⟨content, htree.leaf hfile fun _ => nofun⟩
    · refine Or.inr ⟨⟨target, htree.leaf hlink fun _ => nofun⟩, place, content, ?_, ?_⟩
      · exact hfs.resolve?_mono hplace
      · exact hfs.2.leaf hfile fun _ => nofun

/-- What was listed is listed still. -/
theorem Within.mem_files_mono (h : fs.Within fs') (hfs : fs.WellFormed) (hfs' : fs'.WellFormed)
    {root ext : String} {p : Path} (hp : p ∈ (fs.listing root ext).files) :
    p ∈ (fs'.listing root ext).files := by
  rcases fs.listing_cases root ext with hempty | ⟨entries, hentries, hstdin⟩
  · rw [hempty] at hp
    cases hp
  · obtain ⟨entries', hentries', htree⟩ := h.entries?_mono hentries
    obtain ⟨names, hsource, rfl⟩ := (mem_files_iff hfs hentries hstdin p).mp hp
    apply (mem_files_iff hfs' hentries' hstdin _).mpr
    exact ⟨names, hsource.mono h htree, rfl⟩

/-- **The old listing is part of the new one,** in the same order. -/
theorem Within.files_sublist (h : fs.Within fs') (hfs : fs.WellFormed) (hfs' : fs'.WellFormed)
    (root ext : String) :
    (fs.listing root ext).files.Sublist (fs'.listing root ext).files := by
  have hsorted := pairwise_files hfs root ext
  have hsorted' := pairwise_files hfs' root ext
  have hantisymm : Std.Antisymm fun p q : Path => nameBytes p.parts < nameBytes q.parts :=
    ⟨fun _ _ hpq hqp => absurd hqp (List.lt_asymm hpq)⟩
  -- in strict order no file comes twice, so containment counts for each of them once
  have hnodup : (fs.listing root ext).files.Nodup := by
    apply hsorted.imp
    rintro p q hlt rfl
    exact List.lt_irrefl _ hlt
  have hsubset : (fs.listing root ext).files ⊆ (fs'.listing root ext).files :=
    fun p hp => h.mem_files_mono hfs hfs' hp
  exact List.sublist_of_subperm_of_pairwise (hnodup.subperm hsubset) hsorted hsorted'

/-! ## 2. The functions -/

/-- The functions of a file are found again, if there were any. -/
theorem Within.definitionsOf_sublist (h : fs.Within fs') (path : Path) :
    (fs.definitionsOf path).Sublist (fs'.definitionsOf path) := by
  unfold definitionsOf readText?
  cases hread : fs.read? path.toString with
  | none => exact List.nil_sublist _
  | some content => rw [h.read?_mono hread]

/-- **The functions that a survey found** are among those that it finds now, in the same order. -/
theorem Within.definitionsIn_sublist (h : fs.Within fs') (hfs : fs.WellFormed)
    (hfs' : fs'.WellFormed) (root ext : String) :
    (fs.definitionsIn (fs.listing root ext).files).Sublist
      (fs'.definitionsIn (fs'.listing root ext).files) := by
  unfold definitionsIn
  calc List.Sublist ((fs.listing root ext).files.flatMap fs.definitionsOf)
        ((fs.listing root ext).files.flatMap fs'.definitionsOf) :=
        List.Sublist.flatMap_right _ fun path _ => h.definitionsOf_sublist path
    List.Sublist _ ((fs'.listing root ext).files.flatMap fs'.definitionsOf) :=
        (h.files_sublist hfs hfs' root ext).flatMap _

end FileSystem

/-- A summary of more functions counts no fewer of them, and no fewer long ones; so it fails if the
summary of the fewer ones does. -/
theorem Summary.ofDefinitions_mono {ds ds' : List Definition} (h : ds.Sublist ds')
    (limit threshold : Nat) :
    (ofDefinitions ds limit threshold).total ≤ (ofDefinitions ds' limit threshold).total ∧
      (ofDefinitions ds limit threshold).tooLong ≤ (ofDefinitions ds' limit threshold).tooLong ∧
      ((ofDefinitions ds limit threshold).verdict = .failed →
        (ofDefinitions ds' limit threshold).verdict = .failed) := by
  have hlong : (ofDefinitions ds limit threshold).tooLong ≤
      (ofDefinitions ds' limit threshold).tooLong := h.countP_le
  refine ⟨h.length_le, hlong, ?_⟩
  rw [verdict_ofDefinitions, verdict_ofDefinitions]
  intro hfailed
  split_ifs at hfailed
  exact if_neg (by omega)

/-! ## 3. The new file -/

open FileSystem in
/-- **A new file hides nothing.** Put a file at a place of a well-formed file system where nothing
stands, with directories, or nothing yet, on the way there. Then the file stands there. Below every
root, from every working directory, the files that were listed are listed in the same order, with
others between them; so are the functions found; and neither the number of functions nor that of
long ones goes down. A survey that failed fails. -/
theorem survey_insert (fs : FileSystem) (hfs : fs.WellFormed) (place : List String)
    (content : ByteArray) (hnames : ∀ name ∈ place, IsName name) (hfree : fs.find? place = none)
    (hway : ∀ front found, front <+: place → fs.find? front = some found →
      ∃ entries, found = .dir entries) (root : String) :
    (fs.insert place (.file content)).find? place = some (.file content) ∧
    (∀ ext, (fs.listing root ext).files.Sublist
      ((fs.insert place (.file content)).listing root ext).files) ∧
    (fs.definitionsIn (fs.listing root sourceExtension).files).Sublist
      ((fs.insert place (.file content)).definitionsIn
        ((fs.insert place (.file content)).listing root sourceExtension).files) ∧
    (fs.survey root).summary.total ≤
      ((fs.insert place (.file content)).survey root).summary.total ∧
    (fs.survey root).summary.tooLong ≤
      ((fs.insert place (.file content)).survey root).summary.tooLong ∧
    ((fs.survey root).summary.verdict = .failed →
      ((fs.insert place (.file content)).survey root).summary.verdict = .failed) := by
  have hne := ne_nil_of_find?_eq_none hfree
  have hwithin : fs.Within (fs.insert place (.file content)) := within_insert _ hfree
  have hfs' : (fs.insert place (.file content)).WellFormed := by
    unfold FileSystem.WellFormed
    rw [dir_top_insert hne]
    exact Node.WellFormed.insert hfs (Node.WellFormed.file content) hnames
  have hfound := hwithin.definitionsIn_sublist hfs hfs' root sourceExtension
  refine ⟨?_, hwithin.files_sublist hfs hfs' root, hfound, ?_⟩
  · rw [find?, dir_top_insert hne]
    exact Node.find?_insert_new _ (by simp) hway
  · exact Summary.ofDefinitions_mono hfound listedFunctions lineThreshold

/-- The file of `longTree` with its long function, and a link that leads nowhere. -/
def danglingTree : FileSystem :=
  { top := longTree.top ++ [("l.c", .link "d/g.c")] }

/-- The names in `danglingTree` are names, and they differ. -/
theorem danglingTree_wellFormed : danglingTree.WellFormed :=
  Node.WellFormed.dir (by decide) (by decide) (List.forall_mem_cons.mpr
    ⟨Node.WellFormed.file _, List.forall_mem_singleton.mpr (Node.WellFormed.link _)⟩)

/-- `danglingTree` with a file where its link leads, in a new directory. -/
def linkedUpTree : FileSystem :=
  danglingTree.insert ["d", "g.c"] (.file "int g() \x7b\n\x7d".toUTF8)

/-- On the way to the new file there is only the root of `danglingTree`. -/
theorem way_danglingTree (front : List String) (found : Node) (hfront : front <+: ["d", "g.c"])
    (hfound : danglingTree.find? front = some found) : ∃ entries, found = .dir entries := by
  cases front with
  | nil => exact ⟨_, (Option.some.inj hfound).symm⟩
  | cons name front =>
    obtain ⟨rfl, -⟩ := List.cons_prefix_cons.mp hfront
    have hnone : danglingTree.top.lookup "d" = none := rfl
    rw [FileSystem.find?, Node.find?_dir_cons, hnone] at hfound
    cases hfound

/-- The long function of `danglingTree`. -/
def danglingTreeFunction : Definition :=
  { name := "f", firstLine := 1, length := 151, path := "f.c" }

theorem definitionsIn_danglingTree :
    danglingTree.definitionsIn (danglingTree.listing "." sourceExtension).files =
      [danglingTreeFunction] := by
  have hroot : danglingTree.entries? (Path.normalize ".") = some danglingTree.top := by
    refine (FileSystem.entries?_eq_some_iff _ _ _).mpr ⟨[], by decide +kernel, rfl⟩
  have hfiles : (danglingTree.listing "." sourceExtension).files = [⟨false, ["f.c"]⟩] := by
    rw [FileSystem.files_of_pairwise hroot (by decide +kernel) (by decide +kernel)]
    decide +kernel
  rw [hfiles]
  decide +kernel

theorem summary_danglingTree :
    (danglingTree.survey ".").summary = Summary.ofDefinitions [danglingTreeFunction] 5 150 := by
  unfold FileSystem.survey
  dsimp only
  rw [definitionsIn_danglingTree]
  rfl

/-- The survey of `danglingTree` fails. So does the one of `linkedUpTree`, where the link leads to
the new file: the long function is still found, and counted. -/
theorem survey_insert_danglingTree :
    danglingTree.WellFormed ∧ danglingTree.find? ["d", "g.c"] = none ∧
      danglingTree.resolve? "l.c" = none ∧ linkedUpTree.resolve? "l.c" = some ["d", "g.c"] ∧
      (danglingTree.survey ".").summary.verdict = .failed ∧
      linkedUpTree.find? ["d", "g.c"] = some (.file "int g() \x7b\n\x7d".toUTF8) ∧
      (danglingTree.listing "." "c").files.Sublist (linkedUpTree.listing "." "c").files ∧
      [danglingTreeFunction].Sublist
        (linkedUpTree.definitionsIn (linkedUpTree.listing "." sourceExtension).files) ∧
      1 ≤ (linkedUpTree.survey ".").summary.total ∧
      1 ≤ (linkedUpTree.survey ".").summary.tooLong ∧
      (linkedUpTree.survey ".").summary.verdict = .failed := by
  have hfree : danglingTree.find? ["d", "g.c"] = none := by decide +kernel
  obtain ⟨hnew, hfiles, hfound, htotal, hlong, hfailed⟩ :=
    survey_insert danglingTree danglingTree_wellFormed ["d", "g.c"]
      "int g() \x7b\n\x7d".toUTF8 (by decide) hfree way_danglingTree "."
  rw [definitionsIn_danglingTree] at hfound
  rw [summary_danglingTree] at htotal hlong hfailed
  have hverdict : (Summary.ofDefinitions [danglingTreeFunction] 5 150).verdict = .failed := by
    decide
  refine ⟨danglingTree_wellFormed, hfree, by decide +kernel, by decide +kernel, ?_, hnew, hfiles "c",
    hfound, htotal, hlong, hfailed hverdict⟩
  rw [summary_danglingTree]
  exact hverdict

end LongFunctions
