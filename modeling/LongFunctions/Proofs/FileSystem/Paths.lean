/-
Where the path of something below a directory leads.

A path is followed as a text, but what it says is its parts: the empty parts and dots that a text may
have in front lead nowhere else. So the path that a walk writes and the path that is shown, which
differ in front, are followed alike (`Spells`, `FileSystem.resolve?_of_spells`).

The parts of a path below a root are those of the root and then names. They are followed as the root
is, and on from the directory where it leads (`FileSystem.follow_append`). Names that lead through
real directories are followed one by one, with no link among them (`FileSystem.advance_names`). Both
together tell where a file below a root is found, however the root leads to its directory
(`FileSystem.resolve?_below`).
-/
import LongFunctions.Listing
import LongFunctions.Proofs.FileSystem.Trees

set_option autoImplicit false

namespace LongFunctions

/-! ## 1. Texts of one path -/

/-- Whether a text spells a path: it starts at the root if the path does, and its parts are those of
the path, perhaps behind some that are empty or dots. -/
def Spells (text : String) (path : Path) : Prop :=
  startsAtRoot text = path.absolute ∧
    ∃ lead, (∀ part ∈ lead, part = "" ∨ part = ".") ∧ slashParts text = lead ++ path.parts

/-- A clean path is spelled by its text. -/
theorem Path.Clean.spells {path : Path} (h : path.Clean) : Spells path.toString path := by
  refine ⟨congrArg Path.absolute (ofString_toString h), ?_⟩
  by_cases hparts : path.parts = []
  · -- the two paths without parts are `/` and `.`
    obtain ⟨absolute, parts⟩ := path
    cases hparts
    cases absolute with
    | true => exact ⟨["", ""], by decide, by decide +kernel⟩
    | false => exact ⟨["."], by decide, by decide +kernel⟩
  · refine ⟨if path.absolute then [""] else [], ?_, h.slashParts_toString hparts⟩
    split_ifs
    · decide
    · exact List.forall_mem_nil _

/-- A text spells the same path with `./` in front, if it does not start at the root. -/
theorem Spells.dot_slash {text : String} {path : Path} (h : Spells text path)
    (hrelative : path.absolute = false) : Spells ("./" ++ text) path := by
  obtain ⟨-, lead, hlead, hparts⟩ := h
  have htext : ("./" ++ text).toList = '.' :: '/' :: text.toList := by
    rw [String.toList_append]
    rfl
  have hsplit : slashParts ("./" ++ text) = "." :: slashParts text := by
    rw [slashParts, htext, List.splitOn_cons_eq_if_modifyHead, if_neg (by decide),
      List.splitOn_cons_eq_if_modifyHead, if_pos (by decide)]
    rfl
  refine ⟨?_, "." :: lead, ?_, ?_⟩
  · rw [hrelative, startsAtRoot, htext]
    rfl
  · exact List.forall_mem_cons.mpr ⟨Or.inr rfl, hlead⟩
  · rw [hsplit, hparts, List.cons_append]

/-- The path on a walk is spelled by the text that the walk uses. -/
theorem spells_walkedText {root : Path} {names : List String} (h : (root.below names).Clean) :
    Spells (walkedText root names) (root.below names) := by
  rw [walkedText]
  split_ifs with hdot
  · refine h.spells.dot_slash ?_
    rw [hdot.1]
    rfl
  · exact h.spells

/-- The text of a clean path is not empty. -/
theorem Path.Clean.toString_ne_empty {path : Path} (h : path.Clean) : path.toString ≠ "" := by
  intro hempty
  have hpath := ofString_toString h
  rw [hempty] at hpath
  rw [← hpath] at hempty
  exact absurd hempty (by decide +kernel)

/-- What the walk can use as a path can be used without `./` in front. -/
theorem isPathText_of_walkedText {root : Path} {names : List String} (h : (root.below names).Clean)
    (htext : isPathText (walkedText root names) = true) :
    isPathText (root.below names).toString = true := by
  rw [walkedText] at htext
  split_ifs at htext with hdot
  · simp only [isPathText, Bool.and_eq_true, Bool.not_eq_true', decide_eq_true_eq,
      String.utf8ByteSize_append, String.toList_append, List.contains_append,
      Bool.or_eq_false_iff] at htext ⊢
    refine ⟨⟨?_, by omega⟩, htext.2.2⟩
    rw [String.isEmpty_eq_false_iff]
    exact h.toString_ne_empty
  · exact htext

namespace FileSystem

variable {fs : FileSystem}

/-! ## 2. Directories -/

/-- Whether a directory stands at a place. -/
def IsDir (fs : FileSystem) (place : List String) : Prop :=
  ∃ entries, fs.find? place = some (.dir entries)

theorem isDir_nil (fs : FileSystem) : fs.IsDir [] :=
  ⟨fs.top, Node.find?_nil _⟩

/-- What stands on the way to a directory is a directory. -/
theorem IsDir.of_append {here names : List String} (h : fs.IsDir (here ++ names)) :
    fs.IsDir here := by
  by_cases hnames : names = []
  · rwa [hnames, List.append_nil] at h
  · obtain ⟨entries, hfind⟩ := h
    exact Node.exists_dir_of_find?_append hnames hfind

theorem IsDir.dropLast {place : List String} (h : fs.IsDir place) : fs.IsDir place.dropLast := by
  by_cases hplace : place = []
  · rwa [hplace] at h ⊢
  · rw [← List.dropLast_concat_getLast hplace] at h
    exact h.of_append

/-! ## 3. Following names and what comes in front of them -/

/-- Names that lead through real directories are followed without a link. -/
theorem advance_names {here names : List String} (hnames : ∀ name ∈ names, IsName name)
    (hdir : fs.IsDir (here ++ names)) (rest : List String) :
    fs.advance here (names ++ rest) = fs.advance (here ++ names) rest := by
  induction names generalizing here with
  | nil => rw [List.nil_append, List.append_nil]
  | cons name names ih =>
    rw [List.forall_mem_cons] at hnames
    rw [List.append_cons] at hdir ⊢
    obtain ⟨entries, hfind⟩ := hdir.of_append
    have hturn : fs.turn here name = .goes (here ++ [name]) := by
      rw [turn_of_isName hnames.1, hfind]
    rw [List.cons_append, advance_of_goes hturn]
    exact ih hnames.2 hdir

/-- Names that lead to a regular file arrive there. -/
theorem advance_names_file {here names : List String} (hnames : ∀ name ∈ names, IsName name)
    (hne : names ≠ []) {content : ByteArray}
    (hfile : fs.find? (here ++ names) = some (.file content)) :
    fs.advance here names = .arrived (here ++ names) := by
  obtain ⟨init, last, rfl⟩ := List.eq_nil_or_concat names |>.resolve_left hne
  rw [List.concat_eq_append] at hnames hfile ⊢
  rw [List.forall_mem_append, List.forall_mem_singleton] at hnames
  obtain ⟨hinit, hlast⟩ := hnames
  rw [← List.append_assoc] at hfile ⊢
  have hdir : fs.IsDir (here ++ init) :=
    Node.exists_dir_of_find?_append (List.cons_ne_nil _ _) hfile
  have hturn : fs.turn (here ++ init) last = .ends (here ++ init ++ [last]) := by
    rw [turn_of_isName hlast, hfile]
  rw [advance_names hinit hdir, advance_of_ends hturn]
  rfl

/-- Empty parts and dots in front are passed. -/
theorem advance_lead {lead : List String} (h : ∀ part ∈ lead, part = "" ∨ part = ".")
    (here parts : List String) : fs.advance here (lead ++ parts) = fs.advance here parts := by
  induction lead with
  | nil => rw [List.nil_append]
  | cons part lead ih =>
    rw [List.forall_mem_cons] at h
    rw [List.cons_append, advance, if_pos h.1]
    exact ih h.2

/-- Where a part goes on, there is a directory. -/
theorem IsDir.of_goes {here there : List String} {part : String} (hdir : fs.IsDir here)
    (h : fs.turn here part = .goes there) : fs.IsDir there := by
  rw [turn] at h
  split_ifs at h
  · rwa [← Turn.goes.inj h]
  · rw [← Turn.goes.inj h]
    exact hdir.dropLast
  · split at h
    · next entries hfind =>
      rw [← Turn.goes.inj h]
      exact ⟨entries, hfind⟩
    · cases h
    · cases h
    · cases h

/-- Where a part ends, there is a file of this name. -/
theorem file_of_ends {here place : List String} {part : String}
    (h : fs.turn here part = .ends place) :
    place = here ++ [part] ∧ ∃ content, fs.find? place = some (.file content) := by
  rw [turn] at h
  split_ifs at h
  split at h
  · cases h
  · next content hfind =>
    rw [← Turn.ends.inj h]
    exact ⟨rfl, content, hfind⟩
  · cases h
  · cases h

/-- What follows parts that arrive at a directory is followed on from there. -/
theorem advance_append_of_arrived {here parts place : List String}
    (h : fs.advance here parts = .arrived place) (hdir : fs.IsDir place) (rest : List String) :
    fs.advance here (parts ++ rest) = fs.advance place rest := by
  induction parts generalizing here with
  | nil =>
    rw [advance, Stretch.arrived.injEq] at h
    rw [h, List.nil_append]
  | cons part parts ih =>
    rw [List.cons_append]
    cases hturn : fs.turn here part with
    | goes there =>
      rw [advance_of_goes hturn] at h ⊢
      exact ih h
    | ends file =>
      -- parts that arrive at a file do not arrive at a directory
      rw [advance_of_ends hturn] at h
      split_ifs at h
      obtain ⟨-, content, hfile⟩ := file_of_ends hturn
      obtain ⟨entries, hplace⟩ := hdir
      rw [← Stretch.arrived.inj h, hfile] at hplace
      cases hplace
    | link target =>
      rw [advance_of_link hturn] at h
      cases h
    | fails =>
      rw [advance_of_fails hturn] at h
      cases h

/-- What follows parts that come to a link is left to be followed behind it. -/
theorem advance_append_of_atLink {here parts directory left : List String} {target : String}
    (h : fs.advance here parts = .atLink directory target left) (rest : List String) :
    fs.advance here (parts ++ rest) = .atLink directory target (left ++ rest) := by
  induction parts generalizing here with
  | nil =>
    rw [advance] at h
    cases h
  | cons part parts ih =>
    rw [List.cons_append]
    cases hturn : fs.turn here part with
    | goes there =>
      rw [advance_of_goes hturn] at h ⊢
      exact ih h
    | ends file =>
      rw [advance_of_ends hturn] at h
      split_ifs at h
    | link text =>
      rw [advance_of_link hturn, Stretch.atLink.injEq] at h
      rw [advance_of_link hturn, h.1, h.2.1, h.2.2]
    | fails =>
      rw [advance_of_fails hturn] at h
      cases h

theorem follow_of_arrived {here parts place : List String}
    (h : fs.advance here parts = .arrived place) (links : Nat) :
    fs.follow links here parts = some place := by
  rw [follow.eq_def, h]

theorem follow_of_missing {here parts : List String} (h : fs.advance here parts = .missing)
    (links : Nat) : fs.follow links here parts = none := by
  rw [follow.eq_def, h]

theorem follow_zero_of_atLink {here parts directory left : List String} {target : String}
    (h : fs.advance here parts = .atLink directory target left) :
    fs.follow 0 here parts = none := by
  rw [follow.eq_def, h]

theorem follow_succ_of_atLink {here parts directory left : List String} {target : String}
    (h : fs.advance here parts = .atLink directory target left) (links : Nat) :
    fs.follow (links + 1) here parts =
      fs.follow links (start directory target) (slashParts target ++ left) := by
  rw [follow.eq_def, h]

/-- Names that lead through real directories are followed without using up a link. -/
theorem follow_names {here names : List String} (hnames : ∀ name ∈ names, IsName name)
    (hdir : fs.IsDir (here ++ names)) (links : Nat) (rest : List String) :
    fs.follow links here (names ++ rest) = fs.follow links (here ++ names) rest := by
  rw [follow.eq_def, follow.eq_def, advance_names hnames hdir]

/-- What follows parts that lead to a directory is followed on from there, through the links that
are left. -/
theorem follow_append {links : Nat} {here parts place : List String}
    (h : fs.follow links here parts = some place) (hdir : fs.IsDir place) (rest : List String) :
    ∃ left, fs.follow links here (parts ++ rest) = fs.follow left place rest := by
  induction links, here, parts using follow.induct fs with
  | case1 links here parts there hadvance =>
    -- without a link in the way
    rw [follow_of_arrived hadvance, Option.some.injEq] at h
    subst h
    refine ⟨links, ?_⟩
    rw [follow.eq_def, follow.eq_def, advance_append_of_arrived hadvance hdir]
  | case2 links here parts hadvance =>
    rw [follow_of_missing hadvance] at h
    cases h
  | case3 here parts directory target left hadvance =>
    rw [follow_zero_of_atLink hadvance] at h
    cases h
  | case4 here parts directory target left hadvance links ih =>
    -- through one link, which leaves one link fewer
    rw [follow_succ_of_atLink hadvance] at h
    obtain ⟨left', hleft⟩ := ih h
    refine ⟨left', ?_⟩
    rw [follow_succ_of_atLink (advance_append_of_atLink hadvance rest), ← List.append_assoc]
    exact hleft

/-! ## 4. Paths -/

/-- The directory from which a path is followed. -/
def origin (fs : FileSystem) (path : Path) : List String :=
  if path.absolute then [] else fs.cwd

/-- A text is followed by the parts of the path that it spells. -/
theorem resolve?_of_spells {text : String} {path : Path} (h : Spells text path) :
    fs.resolve? text =
      if isPathText text = true then fs.follow linkLimit (fs.origin path) path.parts else none := by
  obtain ⟨hstart, lead, hlead, hparts⟩ := h
  have hfollow : ∀ links here, fs.follow links here (lead ++ path.parts) =
      fs.follow links here path.parts := by
    intro links here
    rw [follow.eq_def, follow.eq_def, advance_lead hlead]
  rw [resolve?, start, hstart, hparts, hfollow, origin]

/-- Where the path on a walk leads, the path leads without `./` in front. -/
theorem resolve?_of_walkedText {root : Path} {names place : List String}
    (h : (root.below names).Clean) (hplace : fs.resolve? (walkedText root names) = some place) :
    fs.resolve? (root.below names).toString = some place := by
  rw [resolve?_of_spells (spells_walkedText h), Option.ite_none_right_eq_some] at hplace
  rw [resolve?_of_spells h.spells, if_pos (isPathText_of_walkedText h hplace.1)]
  exact hplace.2

/-- **A regular file below a root.** When the text of a root leads to a directory, and names lead
from there to a regular file, the path of the file leads to it, unless its text is no path. -/
theorem resolve?_below {root : Path} {names place : List String} {content : ByteArray}
    (hroot : root.Clean) (hnames : ∀ name ∈ names, IsName name) (hne : names ≠ [])
    (hplace : fs.resolve? root.toString = some place) (hdir : fs.IsDir place)
    (hfile : fs.find? (place ++ names) = some (.file content))
    (htext : isPathText (root.below names).toString = true) :
    fs.resolve? (root.below names).toString = some (place ++ names) := by
  have hbelow : (root.below names).Clean := hroot.below fun name hname => (hnames name hname).1
  rw [resolve?_of_spells hroot.spells, Option.ite_none_right_eq_some] at hplace
  rw [resolve?_of_spells hbelow.spells, if_pos htext]
  obtain ⟨left, hleft⟩ := follow_append hplace.2 hdir names
  exact hleft.trans (follow_of_arrived (advance_names_file hnames hne hfile) left)

end FileSystem

end LongFunctions
