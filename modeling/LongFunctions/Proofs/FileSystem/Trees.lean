/-
Well-formed trees, and what a tree shows of itself.

A tree is well-formed when the names in each of its directories are names and differ from each
other. Nothing can be said of where a name leads without that: a directory that lists a name twice
has no one answer.

What a tree shows is what stands at each of its places, a directory only as a directory. Two trees
that show the same (`Node.Same`) cannot be told apart by looking names up, and so not by following
paths either (`FileSystem.Same.resolve?_eq`). The order in which directories list their entries is
not shown: a well-formed tree with its entries in other orders shows the same
(`Node.Reordered.same`).

Following a path part by part, a file system is asked one question only: what does the next part do
in the directory that has been reached? (`FileSystem.turn`). What holds of whole paths is proved from
this one step (`FileSystem.advance_cons`).
-/
import Mathlib.Data.List.Nodup
import LongFunctions.FileSystem
import LongFunctions.Proofs.Path.Text

set_option autoImplicit false

namespace LongFunctions

/-! ## 1. Induction over a tree -/

/-- What holds of files and links, and of a directory when it holds of all its entries, holds of
every node. -/
@[elab_as_elim]
theorem Node.induction {motive : Node → Prop} (file : ∀ content, motive (.file content))
    (link : ∀ target, motive (.link target))
    (dir : ∀ entries : Entries, (∀ entry ∈ entries, motive entry.2) → motive (.dir entries)) :
    ∀ node, motive node
  | .file content => file content
  | .link target => link target
  | .dir entries => dir entries fun entry _ => Node.induction file link dir entry.2
termination_by node => sizeOf node
decreasing_by
  next hentry =>
  have hlist := List.sizeOf_lt_of_mem hentry
  have hpair : sizeOf entry.2 < sizeOf entry := by
    cases entry
    simp only [Prod.mk.sizeOf_spec]
    omega
  simp only [Node.dir.sizeOf_spec]
  omega

/-! ## 2. Well-formed trees -/

/-- Whether this can be the name of a directory entry: a part of a path other than `..`. -/
def IsName (name : String) : Prop :=
  IsPart name ∧ name ≠ ".."

instance (name : String) : Decidable (IsName name) :=
  inferInstanceAs (Decidable ((_ ∧ _ ∧ _) ∧ _))

/-- Whether the names in each directory of the tree are names and differ from each other. -/
inductive Node.WellFormed : Node → Prop
  | file (content : ByteArray) : WellFormed (.file content)
  | link (target : String) : WellFormed (.link target)
  | dir {entries : Entries} (names : ∀ entry ∈ entries, IsName entry.1)
      (distinct : (entries.map Prod.fst).Nodup)
      (below : ∀ entry ∈ entries, WellFormed entry.2) : WellFormed (.dir entries)

/-- Whether the tree of a file system is well-formed. -/
def FileSystem.WellFormed (fs : FileSystem) : Prop :=
  (Node.dir fs.top).WellFormed

theorem lookup_cons_eq_ite (name other : String) (node : Node) (entries : Entries) :
    List.lookup other ((name, node) :: entries) =
      if other = name then some node else entries.lookup other := by
  rw [List.lookup_cons]
  by_cases hname : other = name
  · simp [hname]
  · have hbeq : (other == name) = false := by simpa using hname
    rw [hbeq, if_neg hname]

/-- In entries with distinct names, a name is looked up to the node that stands beside it. -/
theorem lookup_eq_some_iff {entries : Entries} (h : (entries.map Prod.fst).Nodup) (name : String)
    (node : Node) : entries.lookup name = some node ↔ (name, node) ∈ entries := by
  induction entries with
  | nil => simp
  | cons entry entries ih =>
    obtain ⟨other, first⟩ := entry
    rw [List.map_cons, List.nodup_cons] at h
    rw [lookup_cons_eq_ite, List.mem_cons]
    by_cases hname : name = other
    · subst hname
      -- the name does not come again further on
      have hrest : (name, node) ∉ entries := fun hmem => h.1 (List.mem_map.mpr ⟨_, hmem, rfl⟩)
      simp [hrest, eq_comm]
    · rw [if_neg hname, ih h.2]
      simp [hname]

/-! ## 3. Looking up names one after the other -/

namespace Node

@[simp] theorem find?_nil (node : Node) : node.find? [] = some node := by
  rw [find?]

@[simp] theorem find?_dir_cons (entries : Entries) (name : String) (rest : List String) :
    (Node.dir entries).find? (name :: rest) = (entries.lookup name).bind (·.find? rest) := by
  rw [find?]

@[simp] theorem find?_file_cons (content : ByteArray) (name : String) (rest : List String) :
    (Node.file content).find? (name :: rest) = none := by
  rw [find?]
  intro entries h
  cases h

@[simp] theorem find?_link_cons (target name : String) (rest : List String) :
    (Node.link target).find? (name :: rest) = none := by
  rw [find?]
  intro entries h
  cases h

theorem find?_append (node : Node) (names rest : List String) :
    node.find? (names ++ rest) = (node.find? names).bind (·.find? rest) := by
  induction names generalizing node with
  | nil => rw [List.nil_append, find?_nil, Option.bind_some]
  | cons name names ih =>
    cases node with
    | file content => simp
    | link target => simp
    | dir entries =>
      rw [List.cons_append, find?_dir_cons, find?_dir_cons, Option.bind_assoc]
      exact congrArg _ (funext fun node => ih node)

/-- What stands on the way to something is a directory. -/
theorem exists_dir_of_find?_append {tree found : Node} {front rest : List String}
    (hrest : rest ≠ []) (h : tree.find? (front ++ rest) = some found) :
    ∃ entries, tree.find? front = some (.dir entries) := by
  obtain ⟨name, rest, rfl⟩ := List.exists_cons_of_ne_nil hrest
  rw [find?_append, Option.bind_eq_some_iff] at h
  obtain ⟨node, hnode, hfound⟩ := h
  cases node with
  | file content => simp at hfound
  | link target => simp at hfound
  | dir entries => exact ⟨entries, hnode⟩

/-- What is found in a well-formed tree is well-formed, and the names that lead there are names. -/
theorem WellFormed.of_find? {node found : Node} {names : List String} (h : node.WellFormed)
    (hfound : node.find? names = some found) :
    found.WellFormed ∧ ∀ name ∈ names, IsName name := by
  induction names generalizing node with
  | nil =>
    rw [find?_nil] at hfound
    rw [← Option.some.inj hfound]
    exact ⟨h, fun name hname => nomatch hname⟩
  | cons name names ih =>
    cases h with
    | file content => simp at hfound
    | link target => simp at hfound
    | dir hnames hdistinct hbelow =>
      rw [find?_dir_cons, Option.bind_eq_some_iff] at hfound
      obtain ⟨child, hchild, hfound⟩ := hfound
      have hmem := (lookup_eq_some_iff hdistinct name child).mp hchild
      obtain ⟨hwell, hrest⟩ := ih (hbelow _ hmem) hfound
      exact ⟨hwell, List.forall_mem_cons.mpr ⟨hnames _ hmem, hrest⟩⟩

/-! ## 4. What a tree shows -/

/-- What a node shows of itself without being entered: a directory only that it is one. -/
def face : Node → Node
  | .dir _ => .dir []
  | node => node

/-- Whether two trees show the same at each of their places. -/
def Same (a b : Node) : Prop :=
  ∀ names, (a.find? names).map face = (b.find? names).map face

/-- A file or a link shows all of itself. -/
theorem eq_of_face_eq {a b : Node} (h : a.face = b.face) (hleaf : ∀ entries, a ≠ .dir entries) :
    a = b := by
  cases a with
  | dir entries => exact absurd rfl (hleaf entries)
  | file content => cases b <;> simp_all [face]
  | link target => cases b <;> simp_all [face]

theorem face_eq_dir_iff {node : Node} : node.face = .dir [] ↔ ∃ entries, node = .dir entries := by
  cases node <;> simp [face]

/-- A file or a link is known from what a place shows. -/
theorem eq_some_of_map_face_eq {found found' : Option Node} (h : found.map face = found'.map face)
    {node : Node} (hfound : found = some node) (hleaf : ∀ entries, node ≠ .dir entries) :
    found' = some node := by
  rw [hfound] at h
  obtain ⟨node', hfound', hnode⟩ := Option.map_eq_some_iff.mp h.symm
  rw [hfound', eq_of_face_eq hnode.symm hleaf]

/-- That there is a directory is known from what a place shows. -/
theorem exists_dir_of_map_face_eq {found found' : Option Node}
    (h : found.map face = found'.map face) {entries : Entries} (hfound : found = some (.dir entries)) :
    ∃ entries', found' = some (.dir entries') := by
  rw [hfound] at h
  obtain ⟨node', hfound', hnode⟩ := Option.map_eq_some_iff.mp h.symm
  rw [hfound']
  exact (face_eq_dir_iff.mp hnode).imp fun _ => congrArg some

theorem Same.symm {a b : Node} (h : a.Same b) : b.Same a :=
  fun names => (h names).symm

/-- A file or a link of one tree stands in the other too. -/
theorem Same.leaf {a b node : Node} (h : a.Same b) {names : List String}
    (ha : a.find? names = some node) (hleaf : ∀ entries, node ≠ .dir entries) :
    b.find? names = some node :=
  eq_some_of_map_face_eq (h names) ha hleaf

/-- A directory of one tree stands in the other too, and there it shows the same. -/
theorem Same.dir {a b : Node} (h : a.Same b) {names : List String} {entries : Entries}
    (ha : a.find? names = some (.dir entries)) :
    ∃ entries', b.find? names = some (.dir entries') ∧ (Node.dir entries).Same (.dir entries') := by
  obtain ⟨entries', hb⟩ := exists_dir_of_map_face_eq (h names) ha
  refine ⟨entries', hb, ?_⟩
  intro rest
  have hrest := h (names ++ rest)
  rwa [find?_append, find?_append, ha, hb] at hrest

theorem Same.none {a b : Node} (h : a.Same b) {names : List String}
    (ha : a.find? names = none) : b.find? names = none := by
  have hface := h names
  rw [ha] at hface
  exact Option.map_eq_none_iff.mp hface.symm

/-! ## 5. Reordering -/

/-- The second tree is the first one with the entries of directories in other orders. -/
inductive Reordered : Node → Node → Prop
  | refl (node : Node) : Reordered node node
  | trans {a b c : Node} (first : Reordered a b) (second : Reordered b c) : Reordered a c
  /-- A directory lists its entries in another order. -/
  | here {entries entries' : Entries} (perm : entries.Perm entries') :
      Reordered (.dir entries) (.dir entries')
  /-- An entry of a directory is reordered. -/
  | inside {before after : Entries} {name : String} {node node' : Node}
      (inner : Reordered node node') :
      Reordered (.dir (before ++ (name, node) :: after)) (.dir (before ++ (name, node') :: after))

/-- A well-formed tree stays well-formed. -/
theorem Reordered.wellFormed {a b : Node} (h : a.Reordered b) (ha : a.WellFormed) :
    b.WellFormed := by
  induction h with
  | refl => exact ha
  | trans _ _ ihfirst ihsecond => exact ihsecond (ihfirst ha)
  | here perm =>
    cases ha with
    | dir hnames hdistinct hbelow =>
      exact WellFormed.dir (fun entry hentry => hnames entry (perm.mem_iff.mpr hentry))
        ((perm.map Prod.fst).nodup_iff.mp hdistinct)
        (fun entry hentry => hbelow entry (perm.mem_iff.mpr hentry))
  | @inside before after name node node' _ ih =>
    cases ha with
    | dir hnames hdistinct hbelow =>
      -- the names stay, and of what stands below only this one entry changes
      have hdistinct' : ((before ++ (name, node') :: after).map Prod.fst).Nodup := by
        simpa using hdistinct
      rw [List.forall_mem_append, List.forall_mem_cons] at hnames hbelow
      obtain ⟨hbefore, hentry, hafter⟩ := hbelow
      apply WellFormed.dir ?_ hdistinct' ?_
      · rw [List.forall_mem_append, List.forall_mem_cons]
        exact hnames
      · rw [List.forall_mem_append, List.forall_mem_cons]
        exact ⟨hbefore, ih hentry, hafter⟩

/-- **A well-formed tree shows the same in whatever order its directories list their entries.** -/
theorem Reordered.same {a b : Node} (h : a.Reordered b) (ha : a.WellFormed) : a.Same b := by
  induction h with
  | refl => exact fun names => rfl
  | trans first _ ihfirst ihsecond =>
    exact fun names => (ihfirst ha names).trans (ihsecond (first.wellFormed ha) names)
  | @here entries entries' perm =>
    have hb := (Reordered.here perm).wellFormed ha
    cases ha with
    | dir _ hdistinct _ =>
      cases hb with
      | dir _ hdistinct' _ =>
        have hlookup : ∀ name, entries.lookup name = entries'.lookup name := by
          intro name
          ext node
          rw [lookup_eq_some_iff hdistinct, lookup_eq_some_iff hdistinct', perm.mem_iff]
        intro names
        cases names with
        | nil => rfl
        | cons name rest => rw [find?_dir_cons, find?_dir_cons, hlookup]
  | @inside before after other node node' _ ih =>
    -- a name is looked up among the entries before, then at the one that changes, then behind it
    cases ha with
    | dir _ _ hbelow =>
      have hsame := ih (hbelow (other, node) (List.mem_append_right _ List.mem_cons_self))
      intro names
      cases names with
      | nil => rfl
      | cons name rest =>
        rw [find?_dir_cons, find?_dir_cons, List.lookup_append, List.lookup_append,
          lookup_cons_eq_ite, lookup_cons_eq_ite]
        cases before.lookup name with
        | some found => rfl
        | none =>
          by_cases hname : name = other
          · simpa [hname] using hsame rest
          · rw [if_neg hname, if_neg hname]

end Node

/-! ## 6. One part of a path -/

/-- What one part of a path does in a directory, whatever parts follow it. -/
inductive Turn where
  /-- It goes on in another directory. -/
  | goes (there : List String)
  /-- It comes to a regular file, where a path can only end. -/
  | ends (place : List String)
  /-- It comes to a link with this target. -/
  | link (target : String)
  /-- It leads nowhere. -/
  | fails

namespace FileSystem

/-- What a part does in the directory `here`. -/
def turn (fs : FileSystem) (here : List String) (part : String) : Turn :=
  if part = "" ∨ part = "." then .goes here
  else if part = ".." then .goes here.dropLast
  else
    match fs.find? (here ++ [part]) with
    | some (.dir _) => .goes (here ++ [part])
    | some (.file _) => .ends (here ++ [part])
    | some (.link target) => .link target
    | none => .fails

variable {fs fs' : FileSystem} {here : List String} {part : String}

/-- Parts are followed one by one: the first of them does what it does, and the rest is followed
from there. -/
theorem advance_cons (fs : FileSystem) (here : List String) (part : String)
    (rest : List String) :
    fs.advance here (part :: rest) =
      match fs.turn here part with
      | .goes there => fs.advance there rest
      | .ends place => if rest.isEmpty then .arrived place else .missing
      | .link target => .atLink here target rest
      | .fails => .missing := by
  rw [advance, turn]
  by_cases hdot : part = "" ∨ part = "."
  · simp only [if_pos hdot]
  by_cases hup : part = ".."
  · simp only [if_neg hdot, if_pos hup]
  · simp only [if_neg hdot, if_neg hup]
    cases fs.find? (here ++ [part]) with
    | none => rfl
    | some node => cases node <;> rfl

theorem advance_of_goes {there : List String} (h : fs.turn here part = .goes there)
    (rest : List String) : fs.advance here (part :: rest) = fs.advance there rest := by
  rw [advance_cons, h]

theorem advance_of_ends {place : List String} (h : fs.turn here part = .ends place)
    (rest : List String) :
    fs.advance here (part :: rest) = if rest.isEmpty then .arrived place else .missing := by
  rw [advance_cons, h]

theorem advance_of_link {target : String} (h : fs.turn here part = .link target)
    (rest : List String) : fs.advance here (part :: rest) = .atLink here target rest := by
  rw [advance_cons, h]

theorem advance_of_fails (h : fs.turn here part = .fails) (rest : List String) :
    fs.advance here (part :: rest) = .missing := by
  rw [advance_cons, h]

/-- A part that is a name leads to what stands there under this name. -/
theorem turn_of_isName (h : IsName part) (fs : FileSystem) (here : List String) :
    fs.turn here part =
      match fs.find? (here ++ [part]) with
      | some (.dir _) => .goes (here ++ [part])
      | some (.file _) => .ends (here ++ [part])
      | some (.link target) => .link target
      | none => .fails := by
  obtain ⟨⟨hempty, hdot, -⟩, hup⟩ := h
  rw [turn]
  exact (if_neg (not_or.mpr ⟨hempty, hdot⟩)).trans (if_neg hup)

/-- What a part does is told by what the place shows to which it leads. -/
theorem turn_eq_of_face
    (h : (fs.find? (here ++ [part])).map Node.face = (fs'.find? (here ++ [part])).map Node.face) :
    fs.turn here part = fs'.turn here part := by
  rw [turn, turn]
  cases hfind : fs.find? (here ++ [part]) with
  | none =>
    rw [hfind] at h
    rw [Option.map_eq_none_iff.mp h.symm]
  | some node =>
    cases node with
    | file content =>
      rw [Node.eq_some_of_map_face_eq h hfind fun _ => nofun]
    | link target =>
      rw [Node.eq_some_of_map_face_eq h hfind fun _ => nofun]
    | dir entries =>
      -- the entries may be others, but only that there is a directory matters here
      obtain ⟨entries', hfind'⟩ := Node.exists_dir_of_map_face_eq h hfind
      rw [hfind']

end FileSystem

/-! ## 7. File systems that show the same -/

namespace FileSystem

/-- The second file system is the first one with the entries of directories in other orders. -/
def Reordered (fs fs' : FileSystem) : Prop :=
  fs.cwd = fs'.cwd ∧ (Node.dir fs.top).Reordered (.dir fs'.top)

/-- Whether two file systems show the same at every place, and work in the same one. -/
def Same (fs fs' : FileSystem) : Prop :=
  fs.cwd = fs'.cwd ∧ (Node.dir fs.top).Same (.dir fs'.top)

theorem Reordered.same {fs fs' : FileSystem} (h : fs.Reordered fs') (hfs : fs.WellFormed) :
    fs.Same fs' :=
  ⟨h.1, h.2.same hfs⟩

theorem Same.symm {fs fs' : FileSystem} (h : fs.Same fs') : fs'.Same fs :=
  ⟨h.1.symm, h.2.symm⟩

/-- Parts lead as far in one tree as in another that shows the same, wherever the file systems
work. -/
theorem advance_eq_of_same {fs fs' : FileSystem} (h : (Node.dir fs.top).Same (.dir fs'.top))
    (here parts : List String) : fs.advance here parts = fs'.advance here parts := by
  induction parts generalizing here with
  | nil => rw [advance, advance]
  | cons part rest ih =>
    have hturn : fs.turn here part = fs'.turn here part := turn_eq_of_face (h _)
    rw [advance_cons, advance_cons, hturn]
    cases fs'.turn here part with
    | goes there => exact ih there
    | ends place => rfl
    | link target => rfl
    | fails => rfl

/-- Parts lead to the same place, through as many links. -/
theorem follow_eq_of_same {fs fs' : FileSystem} (h : (Node.dir fs.top).Same (.dir fs'.top))
    (links : Nat) (here parts : List String) :
    fs.follow links here parts = fs'.follow links here parts := by
  induction links generalizing here parts with
  | zero =>
    rw [follow.eq_def, follow.eq_def, advance_eq_of_same h]
  | succ links ih =>
    rw [follow.eq_def, follow.eq_def, advance_eq_of_same h]
    cases fs'.advance here parts with
    | arrived place => rfl
    | missing => rfl
    | atLink directory target rest => exact ih _ _

/-- A path leads to the same place. -/
theorem Same.resolve?_eq {fs fs' : FileSystem} (h : fs.Same fs') (text : String) :
    fs.resolve? text = fs'.resolve? text := by
  rw [resolve?, resolve?, h.1, follow_eq_of_same h.2]

/-! ## 8. What stands where a path leads -/

/-- A path reads the bytes of the regular file where it leads. -/
theorem read?_eq_some_iff (fs : FileSystem) (text : String) (content : ByteArray) :
    fs.read? text = some content ↔
      ∃ place, fs.resolve? text = some place ∧ fs.find? place = some (.file content) := by
  rw [read?, ← Option.bind_eq_some_iff]
  constructor
  · intro h
    split at h
    · next found hfind => rw [hfind, Option.some.inj h]
    · cases h
  · intro h
    rw [h]

/-- A path has the entries of the directory where it leads. -/
theorem entries?_eq_some_iff (fs : FileSystem) (text : String) (entries : Entries) :
    fs.entries? text = some entries ↔
      ∃ place, fs.resolve? text = some place ∧ fs.find? place = some (.dir entries) := by
  rw [entries?, ← Option.bind_eq_some_iff]
  constructor
  · intro h
    split at h
    · next found hfind => rw [hfind, Option.some.inj h]
    · cases h
  · intro h
    rw [h]

/-- What is read in one file system is read in the other. -/
theorem Same.read?_of_eq_some {fs fs' : FileSystem} (h : fs.Same fs') {text : String}
    {content : ByteArray} (hread : fs.read? text = some content) :
    fs'.read? text = some content := by
  obtain ⟨place, hplace, hfind⟩ := (read?_eq_some_iff fs text content).mp hread
  rw [h.resolve?_eq] at hplace
  exact (read?_eq_some_iff fs' text content).mpr ⟨place, hplace, h.2.leaf hfind fun _ => nofun⟩

/-- A path reads the same bytes in both file systems. -/
theorem Same.read?_eq {fs fs' : FileSystem} (h : fs.Same fs') (text : String) :
    fs.read? text = fs'.read? text := by
  ext content
  exact ⟨h.read?_of_eq_some, h.symm.read?_of_eq_some⟩

/-- A path that leads to a directory leads to one that shows the same in the other file system. -/
theorem Same.entries?_of_eq_some {fs fs' : FileSystem} (h : fs.Same fs') {text : String}
    {entries : Entries} (hentries : fs.entries? text = some entries) :
    ∃ entries', fs'.entries? text = some entries' ∧ (Node.dir entries).Same (.dir entries') := by
  obtain ⟨place, hplace, hfind⟩ := (entries?_eq_some_iff fs text entries).mp hentries
  obtain ⟨entries', hfind', hsame⟩ := h.2.dir hfind
  rw [h.resolve?_eq] at hplace
  exact ⟨entries', (entries?_eq_some_iff fs' text entries').mpr ⟨place, hplace, hfind'⟩, hsame⟩

/-- The directory where a path leads in a well-formed file system is well-formed. -/
theorem WellFormed.of_entries? {fs : FileSystem} (h : fs.WellFormed) {text : String}
    {entries : Entries} (hentries : fs.entries? text = some entries) :
    (Node.dir entries).WellFormed := by
  obtain ⟨place, -, hfind⟩ := (entries?_eq_some_iff fs text entries).mp hentries
  exact (Node.WellFormed.of_find? h hfind).1

end FileSystem

end LongFunctions
