/-
The source files below a root, said without a walk.

Names lead from the root directory to a source file (`FileSystem.SourceAt`) when every directory on
the way can be entered, a regular file stands at their end, or a link that leads to one, and the
last of them has the extension. Nothing in this says in which order files are found, or how.

Main statement: on a well-formed file system a listing has exactly the paths of these names, in
strictly increasing order of their components, whatever the order in which directories list their
entries; and it is empty when the root is no directory (`listing_spec`).

The proof is short because its two halves stand elsewhere: a walk meets what it visits, in order
(`Proofs/FileSystem/Walks`), and the text of a path below a root is the text of the root with the
names behind it (`Proofs/Path/Text`). What is left is to read a visit as names, which only
well-formed trees allow: there each name leads to one entry.
-/
import LongFunctions.Listing
import LongFunctions.Proofs.FileSystem.Walks
import LongFunctions.Proofs.Path.Extension

set_option autoImplicit false

namespace LongFunctions

/-! ## 1. Names that lead to a source file -/

/-- Whether a walk from `root` goes through the directory behind these names: it is a directory, and
no link to one, it is not called `.git`, and its path on the walk is short enough. -/
def Enters (root : Path) (tree : Node) (names : List String) : Prop :=
  (∃ entries, tree.find? names = some (.dir entries)) ∧ names.getLast? ≠ some ".git" ∧
    (walkedText root names).utf8ByteSize < pathLimit

/-- Whether these names lead from the directory at `root`, which holds the tree, to a source file
with the extension. There is at least one name, for the last one has the extension. -/
structure FileSystem.SourceAt (fs : FileSystem) (root : Path) (ext : String) (tree : Node)
    (names : List String) : Prop where
  /-- The names on the way, each of them with those before it, lead to directories that can be
  entered. -/
  way : ∀ front rest, front ≠ [] → rest ≠ [] → names = front ++ rest → Enters root tree front
  /-- At the end stands a regular file, or a link whose path on the walk leads to one. -/
  leads : (∃ content, tree.find? names = some (.file content)) ∨
    (∃ target, tree.find? names = some (.link target)) ∧
      ∃ place content, fs.resolve? (walkedText root names) = some place ∧
        fs.find? place = some (.file content)
  extension : ∃ last, names.getLast? = some last ∧ HasExtension last ext

/-- The components of the path with this text, each as its bytes. -/
def componentBytes (text : String) : List (List UInt8) :=
  nameBytes (Path.ofString text).parts

/-! ## 2. Visits by name -/

namespace Node

/-- A walk visits, in a well-formed tree, what its names are looked up to, when each directory on
the way is opened and nothing on it is pruned. The induction is on the names. -/
theorem visits_iff {opens : List String → Bool} {names below : List String} {node found : Node}
    (h : node.WellFormed) :
    Visits opens names node below found ↔
      node.find? below = some found ∧
        (∀ front rest, rest ≠ [] → below = front ++ rest → opens (names ++ front) = true) ∧
        ∀ front name rest child, below = front ++ name :: rest →
          node.find? (front ++ [name]) = some child → isPruned name child = false := by
  induction below generalizing names node with
  | nil =>
    constructor
    · intro hvisits
      cases hvisits
      refine ⟨find?_nil _, ?_, ?_⟩
      · intro front rest hrest hnil
        exact absurd (List.append_eq_nil_iff.mp hnil.symm).2 hrest
      · intro front name rest child hnil
        exact absurd hnil.symm (List.append_ne_nil_of_right_ne_nil _ (List.cons_ne_nil _ _))
    · rintro ⟨hfound, -, -⟩
      rw [find?_nil] at hfound
      rw [← Option.some.inj hfound]
      exact Visits.here names node
  | cons first below ih =>
    constructor
    · intro hvisits
      cases hvisits with
      | @into _ entries _ child _ _ hopen hentry hkept later =>
        cases h with
        | dir _ hdistinct hwell =>
          have hlookup := (lookup_eq_some_iff hdistinct first child).mpr hentry
          obtain ⟨hfound, hopens, hpruned⟩ := (ih (hwell _ hentry)).mp later
          refine ⟨?_, ?_, ?_⟩
          · rw [find?_dir_cons, hlookup, Option.bind_some, hfound]
          · -- the directories on the way are this one and those on the way from the entry
            intro front rest hrest hbelow
            rcases List.cons_eq_append_iff.mp hbelow with ⟨rfl, -⟩ | ⟨front, rfl, htail⟩
            · rw [List.append_nil]
              exact hopen
            · rw [List.append_cons]
              exact hopens front rest hrest htail
          · intro front name rest other hbelow hother
            rcases List.cons_eq_append_iff.mp hbelow with ⟨rfl, hcons⟩ | ⟨front, rfl, htail⟩
            · obtain ⟨rfl, rfl⟩ := List.cons.inj hcons
              rw [List.nil_append, find?_dir_cons, hlookup, Option.bind_some, find?_nil] at hother
              rwa [← Option.some.inj hother]
            · rw [List.cons_append, find?_dir_cons, hlookup, Option.bind_some] at hother
              exact hpruned front name rest other htail hother
    · rintro ⟨hfound, hopens, hpruned⟩
      obtain ⟨entries, hnode⟩ :=
        @exists_dir_of_find?_append node found [] (first :: below) (List.cons_ne_nil _ _) hfound
      rw [find?_nil] at hnode
      obtain rfl := Option.some.inj hnode
      cases h with
      | dir _ hdistinct hwell =>
        rw [find?_dir_cons, Option.bind_eq_some_iff] at hfound
        obtain ⟨child, hlookup, hfound⟩ := hfound
        have hentry := (lookup_eq_some_iff hdistinct first child).mp hlookup
        refine Visits.into ?_ hentry ?_ ((ih (hwell _ hentry)).mpr ⟨hfound, ?_, ?_⟩)
        · have hopen := hopens [] (first :: below) (List.cons_ne_nil _ _) rfl
          rwa [List.append_nil] at hopen
        · refine hpruned [] first below child rfl ?_
          rw [List.nil_append, find?_dir_cons, hlookup, Option.bind_some, find?_nil]
        · intro front rest hrest hbelow
          rw [← List.append_cons]
          exact hopens (first :: front) rest hrest (by rw [hbelow, List.cons_append])
        · intro front name rest other hbelow hother
          refine hpruned (first :: front) name rest other (by rw [hbelow, List.cons_append]) ?_
          rw [List.cons_append, find?_dir_cons, hlookup, Option.bind_some, hother]

/-- The names of what a walk meets are names of the tree. -/
theorem isName_of_mem_findings {tree : Node} (htree : tree.WellFormed)
    {opens : List String → Bool} {f : Finding} (hf : f ∈ tree.findings opens []) :
    ∀ name ∈ f.names, IsName name := by
  obtain ⟨found, hvisits, -⟩ := exists_visits_of_mem_findings hf
  exact (WellFormed.of_find? htree ((visits_iff htree).mp hvisits).1).2

/-- So its path below a clean root is clean. -/
theorem clean_of_mem_findings {tree : Node} (htree : tree.WellFormed) {root : Path}
    (hroot : root.Clean) {opens : List String → Bool} {f : Finding}
    (hf : f ∈ tree.findings opens []) : (root.below f.names).Clean :=
  hroot.below fun name hname => (isName_of_mem_findings htree hf name hname).1

/-- A walk from a root that is opened visits a file or a link exactly when it can enter each
directory on the way. -/
theorem visits_iff_enters {root : Path} {entries : Entries} {names : List String} {found : Node}
    (h : (Node.dir entries).WellFormed) (hroot : opensDir root [] = true)
    (hleaf : ∀ name, isPruned name found = false) :
    Visits (opensDir root) [] (.dir entries) names found ↔
      (Node.dir entries).find? names = some found ∧
        ∀ front rest, front ≠ [] → rest ≠ [] → names = front ++ rest →
          Enters root (.dir entries) front := by
  rw [visits_iff h]
  refine and_congr_right fun hfound => ⟨?_, ?_⟩
  · rintro ⟨hopens, hpruned⟩ front rest hfront hrest hnames
    obtain ⟨inner, hinner⟩ := exists_dir_of_find?_append hrest (hnames ▸ hfound)
    refine ⟨⟨inner, hinner⟩, ?_, of_decide_eq_true (hopens front rest hrest hnames)⟩
    -- a directory called `.git` on the way would have been pruned
    intro hgit
    obtain ⟨init, rfl⟩ := List.getLast?_eq_some_iff.mp hgit
    have hkept := hpruned init ".git" rest (.dir inner) (by simp [hnames]) hinner
    simp [isPruned] at hkept
  · intro henters
    constructor
    · intro front rest hrest hnames
      by_cases hfront : front = []
      · rw [hfront]
        exact hroot
      · exact decide_eq_true (henters front rest hfront hrest hnames).2.2
    · intro front name rest child hnames hchild
      -- at the end of the names stands what is found, and before it directories that are entered
      by_cases hrest : rest = []
      · rw [hrest] at hnames
        rw [hnames, hchild] at hfound
        rw [Option.some.inj hfound]
        exact hleaf name
      · obtain ⟨⟨inner, hinner⟩, hgit, -⟩ :=
          henters (front ++ [name]) rest (by simp) hrest (by simp [hnames])
        rw [hchild] at hinner
        rw [Option.some.inj hinner, isPruned, decide_eq_false_iff_not]
        rintro rfl
        simp at hgit

end Node

/-! ## 3. What a listing has -/

namespace FileSystem

variable {fs : FileSystem} {root ext : String} {entries : Entries}

/-- Nothing is listed below a root that is no directory. -/
theorem listing_of_entries?_eq_none (h : fs.entries? (Path.normalize root) = none) :
    fs.listing root ext = {} := by
  -- the root is normalised before anything else is done with it
  unfold Path.normalize at h
  unfold listing
  dsimp only
  rw [h]

/-- Nothing is listed below the root that stands for standard input. -/
theorem listing_of_stdin (h : Path.normalize root = "-") : fs.listing root ext = {} := by
  unfold Path.normalize at h
  unfold listing
  dsimp only
  split
  · rfl
  · exact if_pos h

/-- Below any other directory, the listing is made of what a walk meets. -/
theorem listing_of_entries?_eq_some (h : fs.entries? (Path.normalize root) = some entries)
    (hstdin : Path.normalize root ≠ "-") :
    fs.listing root ext =
      { files := ((Node.dir entries).findings (opensDir (Path.ofString root)) []).filterMap
          (source? fs (Path.ofString root) ext)
        warnings := ((Node.dir entries).findings (opensDir (Path.ofString root)) []).filterMap
          (warning? (Path.ofString root)) } := by
  unfold Path.normalize at h hstdin
  unfold listing
  dsimp only
  rw [h]
  exact if_neg hstdin

/-- A listing is empty, or its root leads to a directory and does not stand for standard input. -/
theorem listing_cases (fs : FileSystem) (root ext : String) :
    fs.listing root ext = {} ∨
      ∃ entries, fs.entries? (Path.normalize root) = some entries ∧ Path.normalize root ≠ "-" := by
  by_cases hstdin : Path.normalize root = "-"
  · exact Or.inl (listing_of_stdin hstdin)
  cases h : fs.entries? (Path.normalize root) with
  | none => exact Or.inl (listing_of_entries?_eq_none h)
  | some entries => exact Or.inr ⟨entries, rfl, hstdin⟩

/-- A root that leads anywhere is short enough to be opened. -/
theorem opensDir_root (h : fs.entries? (Path.normalize root) = some entries) :
    opensDir (Path.ofString root) [] = true := by
  obtain ⟨place, hplace, -⟩ := (entries?_eq_some_iff fs _ entries).mp h
  have htext : walkedText (Path.ofString root) [] = Path.normalize root := by
    simp [walkedText, Path.below, Path.normalize]
  rw [resolve?] at hplace
  split_ifs at hplace with hpath
  simp only [isPathText, Bool.and_eq_true, decide_eq_true_eq] at hpath
  rw [opensDir, htext]
  exact decide_eq_true hpath.1.2

/-- Entries that are in order already are met in this order. -/
theorem files_of_pairwise (h : fs.entries? (Path.normalize root) = some entries)
    (hstdin : Path.normalize root ≠ "-")
    (hsorted : (entryFindings (opensDir (Path.ofString root)) [] entries).Pairwise
      fun a b => nameLE a.1 b.1 = true) :
    (fs.listing root ext).files =
      ((entryFindings (opensDir (Path.ofString root)) [] entries).flatMap (·.2)).filterMap
        (source? fs (Path.ofString root) ext) := by
  rw [listing_of_entries?_eq_some h hstdin, Node.findings, if_pos (opensDir_root h),
    List.mergeSort_of_pairwise hsorted]

/-- Whether a node that a walk meets under the path with this text is a regular file, or a link and
the path leads to one. -/
def LeadsToFile (fs : FileSystem) (text : String) (node : Node) : Prop :=
  (∃ content, node = .file content) ∨
    (∃ target, node = .link target) ∧ ∃ content, fs.read? text = some content

/-- A walk never passes over what leads to a file, and meets it. -/
theorem LeadsToFile.met {text : String} {node : Node} (h : fs.LeadsToFile text node)
    (opens : List String → Bool) (names : List String) :
    (∀ name, isPruned name node = false) ∧ ∃ f, node.met? opens names = some f := by
  rcases h with ⟨content, rfl⟩ | ⟨⟨target, rfl⟩, -⟩
  · exact ⟨fun _ => rfl, .file names, rfl⟩
  · exact ⟨fun _ => rfl, .link names, rfl⟩

/-- No names lead to the directory itself, which leads to no file. -/
theorem LeadsToFile.ne_nil {text : String} {node : Node} {names : List String}
    (h : fs.LeadsToFile text node) (hfound : (Node.dir entries).find? names = some node) :
    names ≠ [] := by
  rintro rfl
  rw [Node.find?_nil] at hfound
  obtain rfl := Option.some.inj hfound
  simp [LeadsToFile] at h

/-- A walk makes a source file of what leads to a file and has the extension, and of nothing
else. -/
theorem source?_eq_some_iff {path p : Path} {names : List String} {node : Node} {f : Finding}
    (hmet : node.met? (opensDir path) names = some f) :
    source? fs path ext f = some p ↔
      fs.LeadsToFile (walkedText path names) node ∧ (path.below names).hasExtension ext = true ∧
        p = path.below names := by
  cases node with
  | file content =>
    obtain rfl := Option.some.inj hmet
    simp only [source?, Option.ite_none_right_eq_some, Option.some.injEq]
    constructor
    · rintro ⟨hext, rfl⟩
      exact ⟨Or.inl ⟨content, rfl⟩, hext, rfl⟩
    · rintro ⟨-, hext, rfl⟩
      exact ⟨hext, rfl⟩
  | link target =>
    obtain rfl := Option.some.inj hmet
    simp only [source?, Option.ite_none_right_eq_some, Option.some.injEq, Option.isSome_iff_exists]
    constructor
    · rintro ⟨⟨hext, hread⟩, rfl⟩
      exact ⟨Or.inr ⟨⟨target, rfl⟩, hread⟩, hext, rfl⟩
    · rintro ⟨⟨content, hfile⟩ | ⟨-, hread⟩, hext, rfl⟩
      · cases hfile
      · exact ⟨⟨hext, hread⟩, rfl⟩
  | dir inner =>
    -- a directory is met only when it could not be opened
    rw [Node.met?] at hmet
    split_ifs at hmet
    obtain rfl := Option.some.inj hmet
    simp [source?, LeadsToFile]

/-- A source file has the path of its names. -/
theorem eq_below_of_source? {path : Path} {p : Path} {f : Finding}
    (h : source? fs path ext f = some p) : p = path.below f.names := by
  cases f with
  | file names =>
    simp only [source?] at h
    split_ifs at h
    exact (Option.some.inj h).symm
  | link names =>
    simp only [source?] at h
    split_ifs at h
    exact (Option.some.inj h).symm
  | closedDir names => cases h

/-- The names that lead to a source file lead to something that leads to a file. -/
theorem leadsToFile_iff (path : Path) (tree : Node) (names : List String) :
    ((∃ content, tree.find? names = some (.file content)) ∨
      (∃ target, tree.find? names = some (.link target)) ∧
        ∃ place content, fs.resolve? (walkedText path names) = some place ∧
          fs.find? place = some (.file content)) ↔
      ∃ node, tree.find? names = some node ∧ fs.LeadsToFile (walkedText path names) node := by
  have hread : (∃ content, fs.read? (walkedText path names) = some content) ↔
      ∃ place content, fs.resolve? (walkedText path names) = some place ∧
        fs.find? place = some (.file content) := by
    simp only [read?_eq_some_iff]
    exact exists_comm
  rw [← hread]
  constructor
  · rintro (⟨content, hfound⟩ | ⟨⟨target, hfound⟩, hleads⟩)
    · exact ⟨_, hfound, Or.inl ⟨content, rfl⟩⟩
    · exact ⟨_, hfound, Or.inr ⟨⟨target, rfl⟩, hleads⟩⟩
  · rintro ⟨node, hfound, ⟨content, rfl⟩ | ⟨⟨target, rfl⟩, hleads⟩⟩
    · exact Or.inl ⟨content, hfound⟩
    · exact Or.inr ⟨⟨target, hfound⟩, hleads⟩

/-- In a well-formed tree a path has the extension of the last of its names. -/
theorem hasExtension_below_iff {tree found : Node} (htree : tree.WellFormed) {names : List String}
    (hne : names ≠ []) (hfound : tree.find? names = some found) (path : Path) :
    (path.below names).hasExtension ext = true ↔
      ∃ last, names.getLast? = some last ∧ HasExtension last ext := by
  have hlast := List.getLast?_eq_some_getLast hne
  have hname := (Node.WellFormed.of_find? htree hfound).2 _ (List.getLast_mem hne)
  rw [Path.hasExtension_below hlast hname.2, hlast]
  simp only [Option.some.injEq, exists_eq_left']

/-- **The files of a listing are those that names lead to.** -/
theorem mem_files_iff (hfs : fs.WellFormed)
    (h : fs.entries? (Path.normalize root) = some entries) (hstdin : Path.normalize root ≠ "-")
    (p : Path) :
    p ∈ (fs.listing root ext).files ↔
      ∃ names, fs.SourceAt (Path.ofString root) ext (.dir entries) names ∧
        p = (Path.ofString root).below names := by
  have htree : (Node.dir entries).WellFormed := hfs.of_entries? h
  have hopen := opensDir_root h
  rw [listing_of_entries?_eq_some h hstdin]
  simp only [List.mem_filterMap, Node.mem_findings_iff, List.nil_append]
  constructor
  · rintro ⟨f, ⟨names, node, hvisits, hmet⟩, hsource⟩
    obtain ⟨hleads, hext, rfl⟩ := (source?_eq_some_iff hmet).mp hsource
    obtain ⟨hkept, -⟩ := hleads.met (opensDir (Path.ofString root)) names
    obtain ⟨hfound, hway⟩ := (Node.visits_iff_enters htree hopen hkept).mp hvisits
    have hleads' := (leadsToFile_iff _ _ _).mpr ⟨node, hfound, hleads⟩
    have hne := hleads.ne_nil hfound
    exact ⟨names, ⟨hway, hleads', (hasExtension_below_iff htree hne hfound _).mp hext⟩, rfl⟩
  · rintro ⟨names, ⟨hway, hleads', hext⟩, rfl⟩
    obtain ⟨node, hfound, hleads⟩ := (leadsToFile_iff _ _ _).mp hleads'
    obtain ⟨hkept, f, hmet⟩ := hleads.met (opensDir (Path.ofString root)) names
    have hvisits := (Node.visits_iff_enters htree hopen hkept).mpr ⟨hfound, hway⟩
    have hne := hleads.ne_nil hfound
    refine ⟨f, ⟨names, node, hvisits, hmet⟩, (source?_eq_some_iff hmet).mpr ⟨hleads, ?_, rfl⟩⟩
    exact (hasExtension_below_iff htree hne hfound _).mpr hext

/-- The names that lead to a source file are names. -/
theorem SourceAt.isName {path : Path} {tree : Node} {names : List String}
    (h : fs.SourceAt path ext tree names) (htree : tree.WellFormed) :
    ∀ name ∈ names, IsName name := by
  rcases h.leads with ⟨content, hfound⟩ | ⟨⟨target, hfound⟩, -⟩
  · exact (Node.WellFormed.of_find? htree hfound).2
  · exact (Node.WellFormed.of_find? htree hfound).2

/-- There is a name that leads to a source file, since the last one has the extension. -/
theorem SourceAt.ne_nil {path : Path} {tree : Node} {names : List String}
    (h : fs.SourceAt path ext tree names) : names ≠ [] := by
  obtain ⟨last, hlast, -⟩ := h.extension
  rintro rfl
  cases hlast

/-! ## 4. The order of a listing -/

/-- The files of a listing come in strictly increasing order of their components. -/
theorem pairwise_files (hfs : fs.WellFormed) (root ext : String) :
    (fs.listing root ext).files.Pairwise fun p q => nameBytes p.parts < nameBytes q.parts := by
  rcases fs.listing_cases root ext with hempty | ⟨entries, h, hstdin⟩
  · rw [hempty]
    exact List.Pairwise.nil
  · rw [listing_of_entries?_eq_some h hstdin]
    -- a path is the root with names behind it, so paths are in the order of their names
    apply (Node.pairwise_findings (hfs.of_entries? h) _ []).filterMap _ ?_
    intro f g hlt p hp q hq
    rw [eq_below_of_source? hp, eq_below_of_source? hq, Path.below, Path.below, nameBytes_append,
      nameBytes_append]
    exact List.append_left_lt hlt

/-- The paths of a listing are clean, so their texts tell them apart. -/
theorem clean_of_mem_files (hfs : fs.WellFormed) {p : Path} (hp : p ∈ (fs.listing root ext).files) :
    p.Clean := by
  rcases fs.listing_cases root ext with hempty | ⟨entries, h, hstdin⟩
  · rw [hempty] at hp
    cases hp
  · obtain ⟨names, hsource, rfl⟩ := (mem_files_iff hfs h hstdin p).mp hp
    refine (Path.clean_ofString root).below fun name hname => ?_
    exact (hsource.isName (hfs.of_entries? h) name hname).1

/-- File systems that show the same have the same listings. -/
theorem Same.listing_eq {fs' : FileSystem} (hsame : fs.Same fs') (hfs : fs.WellFormed)
    (hfs' : fs'.WellFormed) (root ext : String) : fs.listing root ext = fs'.listing root ext := by
  by_cases hstdin : Path.normalize root = "-"
  · rw [listing_of_stdin hstdin, listing_of_stdin hstdin]
  have hsource : source? fs = source? fs' := by
    funext path ext f
    cases f <;> simp only [source?, hsame.read?_eq]
  cases h : fs.entries? (Path.normalize root) with
  | none =>
    cases h' : fs'.entries? (Path.normalize root) with
    | none => rw [listing_of_entries?_eq_none h, listing_of_entries?_eq_none h']
    | some entries' =>
      obtain ⟨entries, hentries, -⟩ := hsame.symm.entries?_of_eq_some h'
      rw [h] at hentries
      cases hentries
  | some entries =>
    obtain ⟨entries', h', hdirs⟩ := hsame.entries?_of_eq_some h
    rw [listing_of_entries?_eq_some h hstdin, listing_of_entries?_eq_some h' hstdin, hsource,
      Node.findings_eq_of_same (hfs.of_entries? h) (hfs'.of_entries? h') hdirs]

end FileSystem

/-! ## 5. The listing -/

open FileSystem in
/-- **The listing of a well-formed file system.** Below a root that leads to a directory and is not
`-`, its paths are the root with the names that lead to a source file. They come in strictly
increasing order of the bytes of their components, so each of them once. The listing does not depend
on the order in which directories list their entries. Below a root that leads to no directory it has
no paths. -/
theorem listing_spec (fs : FileSystem) (hfs : fs.WellFormed) (root ext : String) :
    (∀ place entries, fs.resolve? (Path.normalize root) = some place →
      fs.find? place = some (.dir entries) → Path.normalize root ≠ "-" →
        ∀ text, text ∈ (fs.listing root ext).files.map Path.toString ↔
          ∃ names, fs.SourceAt (Path.ofString root) ext (.dir entries) names ∧
            text = joinNames (Path.normalize root) names) ∧
    ((fs.listing root ext).files.map Path.toString).Pairwise
      (fun text text' => componentBytes text < componentBytes text') ∧
    ((fs.listing root ext).files.map Path.toString).Nodup ∧
    (∀ fs', fs.Reordered fs' → fs'.listing root ext = fs.listing root ext) ∧
    ((∀ place entries, fs.resolve? (Path.normalize root) = some place →
      fs.find? place ≠ some (.dir entries)) → (fs.listing root ext).files = []) := by
  have hsorted : ((fs.listing root ext).files.map Path.toString).Pairwise
      (fun text text' => componentBytes text < componentBytes text') := by
    rw [List.pairwise_map]
    apply (pairwise_files hfs root ext).imp_of_mem
    intro p q hp hq hlt
    -- a clean path is read back from its text, and so are its components
    rwa [componentBytes, componentBytes, Path.ofString_toString (clean_of_mem_files hfs hp),
      Path.ofString_toString (clean_of_mem_files hfs hq)]
  refine ⟨?_, hsorted, ?_, ?_, ?_⟩
  · intro place entries hplace hfind hstdin text
    have h := (entries?_eq_some_iff fs _ entries).mpr ⟨place, hplace, hfind⟩
    rw [List.mem_map]
    constructor
    · rintro ⟨p, hp, rfl⟩
      obtain ⟨names, hsource, rfl⟩ := (mem_files_iff hfs h hstdin p).mp hp
      exact ⟨names, hsource, Path.toString_below (Path.clean_ofString root) hsource.ne_nil⟩
    · rintro ⟨names, hsource, rfl⟩
      refine ⟨(Path.ofString root).below names,
        (mem_files_iff hfs h hstdin _).mpr ⟨names, hsource, rfl⟩, ?_⟩
      exact Path.toString_below (Path.clean_ofString root) hsource.ne_nil
  · -- what is strictly increasing has nothing twice
    apply hsorted.imp
    rintro text text' hlt rfl
    exact List.lt_irrefl _ hlt
  · intro fs' hreordered
    have hfs' : fs'.WellFormed := hreordered.2.wellFormed hfs
    exact (hreordered.same hfs).symm.listing_eq hfs' hfs root ext
  · intro hnone
    rcases fs.listing_cases root ext with hempty | ⟨entries, h, -⟩
    · rw [hempty]
    · obtain ⟨place, hplace, hfind⟩ := (entries?_eq_some_iff fs _ entries).mp h
      exact absurd hfind (hnone place entries hplace)

/-- A file in a directory, and in a directory beside it a link that leads to the file. -/
def linkedTree : FileSystem :=
  { top := [("lib", .dir [("b c.c", .file .empty), ("a", .dir [("l.c", .link "../b c.c")])])]
    cwd := ["lib"] }

/-- The names in `linkedTree` are names, and those in one directory differ. -/
theorem linkedTree_wellFormed : linkedTree.WellFormed := by
  refine Node.WellFormed.dir (by decide) (by decide) (List.forall_mem_singleton.mpr ?_)
  refine Node.WellFormed.dir (by decide) (by decide) (List.forall_mem_cons.mpr
    ⟨Node.WellFormed.file _, List.forall_mem_singleton.mpr ?_⟩)
  exact Node.WellFormed.dir (by decide) (by decide)
    (List.forall_mem_singleton.mpr (Node.WellFormed.link _))

/-- The link of `linkedTree` is listed, for the path on the walk leads to the file. -/
theorem listing_spec_linkedTree :
    linkedTree.WellFormed ∧ linkedTree.resolve? (Path.normalize ".") = some ["lib"] ∧
      "a/l.c" ∈ (linkedTree.listing "." "c").files.map Path.toString := by
  have hroot : linkedTree.resolve? (Path.normalize ".") = some ["lib"] := by decide +kernel
  have htarget : linkedTree.resolve? (walkedText (Path.ofString ".") ["a", "l.c"]) =
      some ["lib", "b c.c"] := by decide +kernel
  refine ⟨linkedTree_wellFormed, hroot, ?_⟩
  refine (((listing_spec linkedTree linkedTree_wellFormed "." "c").1 ["lib"] _ hroot rfl
    (by decide +kernel)) "a/l.c").mpr ⟨["a", "l.c"], ⟨?_, ?_, ?_⟩, by decide +kernel⟩
  · intro front rest hfront hrest hnames
    -- the one directory on the way is `a`
    obtain ⟨name, front, rfl⟩ := List.exists_cons_of_ne_nil hfront
    obtain ⟨rfl, htail⟩ := List.cons.inj hnames
    rcases List.cons_eq_append_iff.mp htail with ⟨rfl, -⟩ | ⟨front, rfl, hnil⟩
    · exact ⟨⟨_, rfl⟩, by decide, by decide +kernel⟩
    · exact absurd (List.append_eq_nil_iff.mp hnil.symm).2 hrest
  · exact Or.inr ⟨⟨"../b c.c", rfl⟩, ["lib", "b c.c"], .empty, htarget, rfl⟩
  · exact ⟨"l.c", rfl, "l", by decide, by decide, by decide⟩

end LongFunctions
