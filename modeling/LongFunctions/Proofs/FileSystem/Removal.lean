/-
A file system without one of its files.

`FileSystem.remove` takes a node out of the directory that holds it. What that does is said by what
the two trees show: the one lacks a file where the other has it, and at every other place they show
the same (`Node.Lacks`). The files are given as a set of places, so that the relation goes over to
every directory of the tree, with the places as they are seen from there.

A path then leads where it led, unless it led to a file that is gone; nothing takes its place, so it
leads nowhere (`FileSystem.Lacks.resolve?_eq`). That needs no more than one step of following parts
(`FileSystem.Lacks.turn_eq`): the step that would end at the file finds nothing, and no step goes on
behind a file. Links are followed in both trees alike, those that lead to the file and those that
would lead through it.
-/
import LongFunctions.Proofs.FileSystem.Paths

set_option autoImplicit false

namespace LongFunctions

/-! ## 1. Entries of a directory -/

namespace Entries

/-- The entries without those of this name. -/
def without (name : String) (entries : Entries) : Entries :=
  entries.filter fun entry => entry.1 ≠ name

/-- The entries with what stands under this name changed by `f`. -/
def change (name : String) (f : Node → Node) (entries : Entries) : Entries :=
  entries.map fun entry => (entry.1, if entry.1 = name then f entry.2 else entry.2)

theorem lookup_without (name other : String) (entries : Entries) :
    (without name entries).lookup other = if other = name then none else entries.lookup other := by
  induction entries with
  | nil => split_ifs <;> rfl
  | cons entry entries ih =>
    obtain ⟨first, node⟩ := entry
    rw [without] at ih ⊢
    rw [lookup_cons_eq_ite]
    by_cases hfirst : first = name
    · rw [List.filter_cons_of_neg (by simpa using hfirst), ih, hfirst]
      by_cases hother : other = name
      · rw [if_pos hother, if_pos hother]
      · rw [if_neg hother, if_neg hother, if_neg hother]
    · rw [List.filter_cons_of_pos (by simpa using hfirst), lookup_cons_eq_ite, ih]
      by_cases hother : other = first
      · rw [if_pos hother, if_pos hother, if_neg (hother ▸ hfirst)]
      · rw [if_neg hother, if_neg hother]

theorem lookup_change (name other : String) (f : Node → Node) (entries : Entries) :
    (change name f entries).lookup other =
      if other = name then (entries.lookup other).map f else entries.lookup other := by
  induction entries with
  | nil => split_ifs <;> rfl
  | cons entry entries ih =>
    obtain ⟨first, node⟩ := entry
    rw [change] at ih ⊢
    rw [List.map_cons, lookup_cons_eq_ite, lookup_cons_eq_ite, ih]
    by_cases hother : other = first
    · rw [if_pos hother, if_pos hother, ← hother]
      by_cases hname : other = name
      · rw [if_pos hname, if_pos hname, Option.map_some]
      · rw [if_neg hname, if_neg hname]
    · rw [if_neg hother, if_neg hother]

theorem lookup_alter (name other : String) (f : Option Node → Node) (entries : Entries) :
    (alter name f entries).lookup other =
      if other = name then some (f (entries.lookup name)) else entries.lookup other := by
  induction entries with
  | nil => rw [alter, lookup_cons_eq_ite, List.lookup_nil, List.lookup_nil]
  | cons entry entries ih =>
    obtain ⟨first, node⟩ := entry
    rw [alter, lookup_cons_eq_ite, lookup_cons_eq_ite]
    by_cases hfirst : first = name
    · rw [if_pos hfirst, lookup_cons_eq_ite, if_pos hfirst.symm, hfirst]
      by_cases hother : other = name
      · rw [if_pos hother, if_pos hother]
      · rw [if_neg hother, if_neg hother, if_neg hother]
    · rw [if_neg hfirst, lookup_cons_eq_ite, ih, if_neg (Ne.symm hfirst)]
      by_cases hother : other = first
      · rw [if_pos hother, if_pos hother, if_neg (hother ▸ hfirst)]
      · rw [if_neg hother, if_neg hother]

/-- Altering an entry leaves the names as they are, or adds its name at the end. -/
theorem map_fst_alter (name : String) (f : Option Node → Node) (entries : Entries) :
    (alter name f entries).map Prod.fst =
      if name ∈ entries.map Prod.fst then entries.map Prod.fst
      else entries.map Prod.fst ++ [name] := by
  induction entries with
  | nil => rfl
  | cons entry entries ih =>
    obtain ⟨first, node⟩ := entry
    rw [alter]
    by_cases hfirst : first = name
    · simp [hfirst]
    · have hne : name ≠ first := Ne.symm hfirst
      rw [if_neg hfirst, List.map_cons, ih, List.map_cons]
      by_cases hname : name ∈ entries.map Prod.fst
      · rw [if_pos hname, if_pos (List.mem_cons_of_mem _ hname)]
      · rw [if_neg hname, if_neg (by simpa [hne] using hname), List.cons_append]

/-- An entry that has been altered is the one of that name, or it was there before. -/
theorem mem_alter {name : String} {f : Option Node → Node} {entries : Entries}
    {entry : String × Node} (h : entry ∈ alter name f entries) :
    (∃ found, entry = (name, f found) ∧ ∀ node, found = some node → (name, node) ∈ entries) ∨
      entry ∈ entries := by
  induction entries with
  | nil =>
    rw [alter, List.mem_singleton] at h
    exact Or.inl ⟨none, h, nofun⟩
  | cons first entries ih =>
    obtain ⟨other, node⟩ := first
    rw [alter] at h
    split_ifs at h with hother
    · subst hother
      rcases List.mem_cons.mp h with rfl | hmem
      · exact Or.inl ⟨some node, rfl, fun _ heq => Option.some.inj heq ▸ List.mem_cons_self⟩
      · exact Or.inr (List.mem_cons_of_mem _ hmem)
    · rcases List.mem_cons.mp h with rfl | hmem
      · exact Or.inr List.mem_cons_self
      · rcases ih hmem with ⟨found, rfl, hfound⟩ | hmem
        · exact Or.inl ⟨found, rfl, fun node heq => List.mem_cons_of_mem _ (hfound node heq)⟩
        · exact Or.inr (List.mem_cons_of_mem _ hmem)

/-- What stands under a name is lost when the name is taken out, whatever it was altered to. -/
theorem without_alter (name : String) (f : Option Node → Node) (entries : Entries) :
    without name (alter name f entries) = without name entries := by
  induction entries with
  | nil => simp [alter, without]
  | cons entry entries ih =>
    obtain ⟨first, node⟩ := entry
    rw [without, without] at ih
    rw [alter, without, without]
    by_cases hfirst : first = name
    · simp [hfirst]
    · rw [if_neg hfirst, List.filter_cons, List.filter_cons, ih]

/-- A change that makes no difference between the old entry and the altered one undoes the
alteration. -/
theorem change_alter {name : String} {f : Option Node → Node} {g : Node → Node}
    {entries : Entries} {child : Node} (hchild : entries.lookup name = some child)
    (h : g (f (some child)) = g child) :
    change name g (alter name f entries) = change name g entries := by
  induction entries with
  | nil => cases hchild
  | cons entry entries ih =>
    obtain ⟨first, node⟩ := entry
    rw [alter]
    by_cases hfirst : first = name
    · subst hfirst
      rw [lookup_cons_eq_ite, if_pos rfl, Option.some.injEq] at hchild
      subst hchild
      simp [change, h]
    · rw [lookup_cons_eq_ite, if_neg (Ne.symm hfirst)] at hchild
      have hrest := ih hchild
      rw [change, change] at hrest
      rw [if_neg hfirst, change, change, List.map_cons, List.map_cons, hrest]

end Entries

/-! ## 2. Removing a node, and putting a file in its place -/

/-- The node without what stands behind these names: it is taken out of the directory that holds
it. -/
def Node.remove : List String → Node → Node
  | [name], .dir entries => .dir (Entries.without name entries)
  | name :: next :: rest, .dir entries => .dir (Entries.change name (Node.remove (next :: rest)) entries)
  | _, node => node

/-- The file system without what stands at a place. -/
def FileSystem.remove (fs : FileSystem) (place : List String) : FileSystem :=
  match (Node.dir fs.top).remove place with
  | .dir top => { fs with top }
  | _ => fs

namespace Node

/-- A tree stays well-formed without one of its nodes. -/
theorem WellFormed.remove {node : Node} (h : node.WellFormed) (place : List String) :
    (node.remove place).WellFormed := by
  induction place generalizing node with
  | nil => cases node <;> exact h
  | cons name rest ih =>
    cases h with
    | file content => cases rest <;> exact WellFormed.file content
    | link target => cases rest <;> exact WellFormed.link target
    | @dir entries hnames hdistinct hbelow =>
      cases rest with
      | nil =>
        have hsub : List.Sublist (Entries.without name entries) entries := List.filter_sublist
        exact WellFormed.dir (fun entry hentry => hnames entry (hsub.subset hentry))
          (hdistinct.sublist (hsub.map Prod.fst))
          (fun entry hentry => hbelow entry (hsub.subset hentry))
      | cons next rest =>
        have hfst : (Entries.change name (Node.remove (next :: rest)) entries).map Prod.fst =
            entries.map Prod.fst := by
          rw [Entries.change, List.map_map]
          rfl
        refine WellFormed.dir ?_ (hfst ▸ hdistinct) ?_
        · intro entry hentry
          obtain ⟨old, hold, rfl⟩ := List.mem_map.mp hentry
          exact hnames old hold
        · intro entry hentry
          obtain ⟨old, hold, rfl⟩ := List.mem_map.mp hentry
          dsimp only
          split_ifs
          · exact ih (hbelow old hold)
          · exact hbelow old hold

/-- A tree stays well-formed when a well-formed node is put behind names. -/
theorem WellFormed.insert {node added : Node} {place : List String} (h : node.WellFormed)
    (hadded : added.WellFormed) (hplace : ∀ name ∈ place, IsName name) :
    (added.insert place node).WellFormed := by
  induction place generalizing node with
  | nil =>
    rw [Node.insert.eq_def]
    dsimp only
    split
    · exact h
    · exact hadded
  | cons name rest ih =>
    rw [List.forall_mem_cons] at hplace
    cases h with
    | file content => exact WellFormed.file content
    | link target => exact WellFormed.link target
    | @dir entries hnames hdistinct hbelow =>
      rw [Node.insert]
      refine WellFormed.dir ?_ ?_ ?_
      · intro entry hentry
        rcases Entries.mem_alter hentry with ⟨found, rfl, -⟩ | hold
        · exact hplace.1
        · exact hnames entry hold
      · rw [Entries.map_fst_alter]
        split_ifs with hname
        · exact hdistinct
        · rw [List.nodup_append_comm]
          exact List.nodup_cons.mpr ⟨hname, hdistinct⟩
      · intro entry hentry
        rcases Entries.mem_alter hentry with ⟨found, rfl, hfound⟩ | hold
        · -- under the name stood a node of the tree, or a new directory is made for the rest
          cases found with
          | none => exact ih (WellFormed.dir nofun List.nodup_nil nofun) hplace.2
          | some child => exact ih (hbelow _ (hfound child rfl)) hplace.2
        · exact hbelow entry hold

/-- A file that is put in the place of another one stands there. -/
theorem find?_insert_file {node old : Node} {place : List String} (content : ByteArray)
    (h : node.find? place = some old) :
    ((Node.file content).insert place node).find? place = some (.file content) := by
  induction place generalizing node with
  | nil => cases node <;> simp [Node.insert]
  | cons name rest ih =>
    cases node with
    | file other => simp at h
    | link target => simp at h
    | dir entries =>
      rw [find?_dir_cons, Option.bind_eq_some_iff] at h
      obtain ⟨child, hchild, hold⟩ := h
      rw [Node.insert, find?_dir_cons, Entries.lookup_alter, if_pos rfl, Option.bind_some, hchild]
      exact ih hold

/-- What stood at a place before makes no difference when it is removed. -/
theorem remove_insert_file {node old : Node} {place : List String} (content : ByteArray)
    (hne : place ≠ []) (h : node.find? place = some old) :
    ((Node.file content).insert place node).remove place = node.remove place := by
  induction place generalizing node with
  | nil => exact absurd rfl hne
  | cons name rest ih =>
    cases node with
    | file other => simp at h
    | link target => simp at h
    | dir entries =>
      rw [find?_dir_cons, Option.bind_eq_some_iff] at h
      obtain ⟨child, hchild, hold⟩ := h
      rw [Node.insert]
      cases rest with
      | nil => rw [remove, remove, Entries.without_alter]
      | cons next rest =>
        rw [remove, remove, Entries.change_alter hchild]
        exact ih (List.cons_ne_nil _ _) hold

end Node

/-! ## 3. Trees that lack files -/

/-- The second tree lacks files of the first one, those at the places in `gone`, and shows the same
at every other place. -/
structure Node.Lacks (gone : List String → Bool) (a b : Node) : Prop where
  file : ∀ names, gone names = true → ∃ content, a.find? names = some (.file content)
  missing : ∀ names, gone names = true → b.find? names = none
  same : ∀ names, gone names = false → (a.find? names).map Node.face = (b.find? names).map Node.face

namespace Node

/-- Without one of its files a tree lacks this file. -/
theorem lacks_remove {node : Node} {place : List String} {content : ByteArray} (hne : place ≠ [])
    (h : node.find? place = some (.file content)) :
    node.Lacks (fun names => names = place) (node.remove place) := by
  induction place generalizing node with
  | nil => exact absurd rfl hne
  | cons name rest ih =>
    cases node with
    | file other => simp at h
    | link target => simp at h
    | dir entries =>
      rw [find?_dir_cons, Option.bind_eq_some_iff] at h
      obtain ⟨child, hchild, hfile⟩ := h
      cases rest with
      | nil =>
        rw [find?_nil, Option.some.injEq] at hfile
        subst hfile
        refine ⟨?_, ?_, ?_⟩
        · intro names hgone
          rw [of_decide_eq_true hgone, find?_dir_cons, hchild]
          exact ⟨content, rfl⟩
        · intro names hgone
          rw [of_decide_eq_true hgone, remove, find?_dir_cons, Entries.lookup_without, if_pos rfl]
          rfl
        · intro names hkept
          cases names with
          | nil => rfl
          | cons other below =>
            rw [remove, find?_dir_cons, find?_dir_cons, Entries.lookup_without]
            by_cases hother : other = name
            · -- nothing stood behind the file
              subst hother
              have hbelow : below ≠ [] := by simpa using hkept
              obtain ⟨next, below, rfl⟩ := List.exists_cons_of_ne_nil hbelow
              simp [hchild]
            · rw [if_neg hother]
      | cons next rest =>
        have hlacks := ih (List.cons_ne_nil _ _) hfile
        have hlookup : ∀ other, (Entries.change name (Node.remove (next :: rest)) entries).lookup other =
            if other = name then some (child.remove (next :: rest)) else entries.lookup other := by
          intro other
          rw [Entries.lookup_change]
          split_ifs with hother
          · rw [hother, hchild, Option.map_some]
          · rfl
        refine ⟨?_, ?_, ?_⟩
        · intro names hgone
          rw [of_decide_eq_true hgone, find?_dir_cons, hchild]
          exact ⟨content, hfile⟩
        · intro names hgone
          rw [of_decide_eq_true hgone, remove, find?_dir_cons, hlookup, if_pos rfl]
          exact hlacks.missing (next :: rest) (decide_eq_true rfl)
        · intro names hkept
          cases names with
          | nil => rfl
          | cons other below =>
            rw [remove, find?_dir_cons, find?_dir_cons, hlookup]
            by_cases hother : other = name
            · subst hother
              rw [if_pos rfl, hchild]
              exact hlacks.same below (by simpa using hkept)
            · rw [if_neg hother]

variable {gone : List String → Bool} {a b : Node} {names : List String}

/-- A file or a link that is not gone still stands where it stood, and no other one does. -/
theorem Lacks.leaf_iff (h : a.Lacks gone b) (hkept : gone names = false) (node : Node)
    (hleaf : ∀ entries, node ≠ .dir entries) :
    a.find? names = some node ↔ b.find? names = some node := by
  constructor
  · intro ha
    exact eq_some_of_map_face_eq (h.same names hkept) ha hleaf
  · intro hb
    exact eq_some_of_map_face_eq (h.same names hkept).symm hb hleaf

/-- No directory is gone. -/
theorem Lacks.kept_of_dir {entries : Entries} (h : a.Lacks gone b)
    (ha : a.find? names = some (.dir entries)) : gone names = false := by
  rw [Bool.eq_false_iff]
  intro hgone
  obtain ⟨content, hfile⟩ := h.file names hgone
  rw [ha] at hfile
  cases hfile

/-- In a directory of the tree the same files are lacking, seen from there. -/
theorem Lacks.below {entries entries' : Entries} (h : a.Lacks gone b)
    (ha : a.find? names = some (.dir entries)) (hb : b.find? names = some (.dir entries')) :
    (Node.dir entries).Lacks (fun rest => gone (names ++ rest)) (.dir entries') := by
  have hfind : ∀ rest, a.find? (names ++ rest) = (Node.dir entries).find? rest := by
    intro rest
    rw [find?_append, ha, Option.bind_some]
  have hfind' : ∀ rest, b.find? (names ++ rest) = (Node.dir entries').find? rest := by
    intro rest
    rw [find?_append, hb, Option.bind_some]
  refine ⟨?_, ?_, ?_⟩
  · intro rest hgone
    rw [← hfind]
    exact h.file _ hgone
  · intro rest hgone
    rw [← hfind']
    exact h.missing _ hgone
  · intro rest hkept
    rw [← hfind, ← hfind']
    exact h.same _ hkept

/-- The directories are the same ones. -/
theorem Lacks.exists_dir_iff (h : a.Lacks gone b) :
    (∃ entries, a.find? names = some (.dir entries)) ↔
      ∃ entries, b.find? names = some (.dir entries) := by
  cases hgone : gone names with
  | true =>
    obtain ⟨content, hfile⟩ := h.file names hgone
    rw [hfile, h.missing names hgone]
    exact iff_of_false nofun nofun
  | false =>
    constructor
    · rintro ⟨entries, ha⟩
      exact exists_dir_of_map_face_eq (h.same names hgone) ha
    · rintro ⟨entries, hb⟩
      exact exists_dir_of_map_face_eq (h.same names hgone).symm hb

end Node

/-! ## 4. Where paths lead without the files -/

/-- How far parts lead when the files at some places are gone. -/
def Stretch.without (gone : List String → Bool) : Stretch → Stretch
  | .arrived place => if gone place = true then .missing else .arrived place
  | stretch => stretch

/-- What a part does when the files at some places are gone. -/
def Turn.without (gone : List String → Bool) : Turn → Turn
  | .ends place => if gone place = true then .fails else .ends place
  | turn => turn

namespace FileSystem

/-- The second file system lacks files of the first one, those at the places in `gone`, and shows
the same at every other place. -/
structure Lacks (gone : List String → Bool) (fs fs' : FileSystem) : Prop where
  cwd_eq : fs.cwd = fs'.cwd
  tree : (Node.dir fs.top).Lacks gone (.dir fs'.top)

variable {gone : List String → Bool} {fs fs' : FileSystem}

/-- A file system is told by its tree and its working directory. -/
theorem eq_of_dir_top (htop : Node.dir fs.top = .dir fs'.top) (hcwd : fs.cwd = fs'.cwd) :
    fs = fs' := by
  cases fs
  cases fs'
  rw [mk.injEq]
  exact ⟨Node.dir.inj htop, hcwd⟩

theorem dir_top_remove (fs : FileSystem) (place : List String) :
    Node.dir (fs.remove place).top = (Node.dir fs.top).remove place := by
  rw [remove]
  match place with
  | [] => rfl
  | [_] => rfl
  | _ :: _ :: _ => rfl

theorem cwd_remove (fs : FileSystem) (place : List String) : (fs.remove place).cwd = fs.cwd := by
  rw [remove]
  split <;> rfl

theorem dir_top_insert {place : List String} (hne : place ≠ []) (fs : FileSystem) (node : Node) :
    Node.dir (fs.insert place node).top = node.insert place (.dir fs.top) := by
  obtain ⟨name, rest, rfl⟩ := List.exists_cons_of_ne_nil hne
  rw [insert, Node.insert]

theorem cwd_insert (fs : FileSystem) (place : List String) (node : Node) :
    (fs.insert place node).cwd = fs.cwd := by
  rw [insert]
  split <;> rfl

/-- The root of a file system is a directory, so a file stands elsewhere. -/
theorem ne_nil_of_file {place : List String} {content : ByteArray}
    (h : fs.find? place = some (.file content)) : place ≠ [] := by
  rintro rfl
  rw [find?, Node.find?_nil] at h
  cases h

/-- Without one of its files a file system lacks this file. -/
theorem lacks_remove {place : List String} {content : ByteArray}
    (h : fs.find? place = some (.file content)) :
    fs.Lacks (fun names => names = place) (fs.remove place) := by
  refine ⟨(fs.cwd_remove place).symm, ?_⟩
  rw [dir_top_remove]
  exact Node.lacks_remove (ne_nil_of_file h) h

/-- A file that is put in the place of another one stands there. -/
theorem find?_insert_file {place : List String} {old : Node} (hne : place ≠ [])
    (h : fs.find? place = some old) (content : ByteArray) :
    (fs.insert place (.file content)).find? place = some (.file content) := by
  rw [find?, dir_top_insert hne]
  exact Node.find?_insert_file content h

/-- What stood at a place before makes no difference when it is removed. -/
theorem remove_insert_file {place : List String} {old : Node} (hne : place ≠ [])
    (h : fs.find? place = some old) (content : ByteArray) :
    (fs.insert place (.file content)).remove place = fs.remove place := by
  refine eq_of_dir_top ?_ ?_
  · rw [dir_top_remove, dir_top_remove, dir_top_insert hne, Node.remove_insert_file content hne h]
  · rw [cwd_remove, cwd_remove, cwd_insert]

theorem WellFormed.remove (h : fs.WellFormed) (place : List String) :
    (fs.remove place).WellFormed := by
  rw [WellFormed, dir_top_remove]
  exact Node.WellFormed.remove h place

/-- A file system stays well-formed with a file in the place of another node. -/
theorem WellFormed.insert_file (h : fs.WellFormed) {place : List String} {old : Node}
    (hne : place ≠ []) (hplace : fs.find? place = some old) (content : ByteArray) :
    (fs.insert place (.file content)).WellFormed := by
  rw [WellFormed, dir_top_insert hne]
  exact Node.WellFormed.insert h (Node.WellFormed.file content)
    (Node.WellFormed.of_find? h hplace).2

/-- The directories are the same ones. -/
theorem Lacks.isDir_iff (h : fs.Lacks gone fs') (place : List String) :
    fs.IsDir place ↔ fs'.IsDir place :=
  h.tree.exists_dir_iff

/-- A part does the same without the files, unless it would end at one that is gone. -/
theorem Lacks.turn_eq (h : fs.Lacks gone fs') (here : List String) (part : String) :
    fs'.turn here part = (fs.turn here part).without gone := by
  cases hgone : gone (here ++ [part]) with
  | true =>
    obtain ⟨content, hfind⟩ := h.tree.file _ hgone
    have hfind : fs.find? (here ++ [part]) = some (.file content) := hfind
    have hfind' : fs'.find? (here ++ [part]) = none := h.tree.missing _ hgone
    rw [turn, turn, hfind, hfind']
    split_ifs
    · rfl
    · rfl
    · exact (if_pos hgone).symm
  | false =>
    rw [← turn_eq_of_face (h.tree.same _ hgone)]
    cases hturn : fs.turn here part with
    | goes there => rfl
    | ends place =>
      rw [(file_of_ends hturn).1, Turn.without, if_neg (Bool.eq_false_iff.mp hgone)]
    | link target => rfl
    | fails => rfl

/-- Parts lead as far without the files, but not to one that is gone. -/
theorem Lacks.advance_eq (h : fs.Lacks gone fs') {here : List String} (hdir : fs.IsDir here)
    (parts : List String) : fs'.advance here parts = (fs.advance here parts).without gone := by
  induction parts generalizing here with
  | nil =>
    obtain ⟨entries, hfind⟩ := hdir
    rw [advance, advance, Stretch.without, h.tree.kept_of_dir hfind]
    rfl
  | cons part rest ih =>
    rw [advance_cons, advance_cons, h.turn_eq]
    cases hturn : fs.turn here part with
    | goes there => exact ih (hdir.of_goes hturn)
    | ends place =>
      -- the one part that leads to a file that is gone leads nowhere, and so do parts behind it
      rw [Turn.without]
      dsimp only
      split_ifs with hgone hrest hrest
      · rw [Stretch.without, if_pos hgone]
      · rfl
      · rw [Stretch.without, if_neg hgone]
      · rfl
    | link target => rfl
    | fails => rfl

/-- A link stands in a directory. -/
theorem IsDir.of_atLink {here parts directory left : List String} {target : String}
    (hdir : fs.IsDir here) (h : fs.advance here parts = .atLink directory target left) :
    fs.IsDir directory := by
  induction parts generalizing here with
  | nil =>
    rw [advance] at h
    cases h
  | cons part rest ih =>
    cases hturn : fs.turn here part with
    | goes there =>
      rw [advance_of_goes hturn] at h
      exact ih (hdir.of_goes hturn) h
    | ends place =>
      rw [advance_of_ends hturn] at h
      split_ifs at h
    | link text =>
      rw [advance_of_link hturn, Stretch.atLink.injEq] at h
      rwa [← h.1]
    | fails =>
      rw [advance_of_fails hturn] at h
      cases h

/-- Parts lead to the same place through as many links, unless a file there is gone. -/
theorem Lacks.follow_eq (h : fs.Lacks gone fs') (links : Nat) {here parts : List String}
    (hdir : fs.IsDir here) :
    fs'.follow links here parts = (fs.follow links here parts).filter fun place => !gone place := by
  have hadvance' := h.advance_eq hdir parts
  induction links, here, parts using follow.induct fs with
  | case1 links here parts place hadvance =>
    rw [hadvance, Stretch.without] at hadvance'
    rw [follow_of_arrived hadvance, Option.filter_some]
    cases hgone : gone place with
    | true =>
      rw [if_pos hgone] at hadvance'
      rw [follow_of_missing hadvance']
      rfl
    | false =>
      rw [if_neg (Bool.eq_false_iff.mp hgone)] at hadvance'
      rw [follow_of_arrived hadvance']
      rfl
  | case2 links here parts hadvance =>
    rw [hadvance] at hadvance'
    rw [follow_of_missing hadvance, follow_of_missing hadvance', Option.filter_none]
  | case3 here parts directory target left hadvance =>
    rw [hadvance] at hadvance'
    rw [follow_zero_of_atLink hadvance, follow_zero_of_atLink hadvance', Option.filter_none]
  | case4 here parts directory target left hadvance links ih =>
    rw [hadvance] at hadvance'
    have hstart : fs.IsDir (start directory target) := by
      rw [start]
      split_ifs
      · exact fs.isDir_nil
      · exact hdir.of_atLink hadvance
    rw [follow_succ_of_atLink hadvance, follow_succ_of_atLink hadvance']
    exact ih hstart (h.advance_eq hstart _)

/-- **A path leads where it led,** unless it led to a file that is gone: then it leads nowhere. -/
theorem Lacks.resolve?_eq (h : fs.Lacks gone fs') (hcwd : fs.IsDir fs.cwd) (text : String) :
    fs'.resolve? text = (fs.resolve? text).filter fun place => !gone place := by
  have hstart : fs.IsDir (start fs.cwd text) := by
    rw [start]
    split_ifs
    · exact fs.isDir_nil
    · exact hcwd
  rw [resolve?, resolve?, ← h.cwd_eq]
  split_ifs
  · exact h.follow_eq linkLimit hstart
  · rfl

/-- A path reads what it read, unless it led to a file that is gone: then it reads nothing. -/
theorem Lacks.read?_cases (h : fs.Lacks gone fs') (hcwd : fs.IsDir fs.cwd) (text : String) :
    fs'.read? text = fs.read? text ∨
      fs'.read? text = none ∧ ∃ place, fs.resolve? text = some place ∧ gone place = true := by
  have hresolve := h.resolve?_eq hcwd text
  by_cases hgone : ∃ place, fs.resolve? text = some place ∧ gone place = true
  · obtain ⟨place, hplace, hgone⟩ := hgone
    refine Or.inr ⟨?_, place, hplace, hgone⟩
    rw [Option.eq_none_iff_forall_ne_some]
    intro content hread
    obtain ⟨place', hplace', -⟩ := (read?_eq_some_iff fs' text content).mp hread
    rw [hplace', hplace, Option.filter_some, hgone] at hresolve
    cases hresolve
  · have hkept : ∀ place, fs.resolve? text = some place → gone place = false := fun place hplace =>
      Bool.eq_false_iff.mpr fun hplaceGone => hgone ⟨place, hplace, hplaceGone⟩
    have hsame : fs'.resolve? text = fs.resolve? text := by
      cases hplace : fs.resolve? text with
      | none => rw [hresolve, hplace, Option.filter_none]
      | some place =>
        rw [hresolve, hplace, Option.filter_some, hkept place hplace]
        rfl
    left
    ext content
    rw [read?_eq_some_iff, read?_eq_some_iff, hsame]
    refine exists_congr fun place => and_congr_right fun hplace => ?_
    exact (h.tree.leaf_iff (hkept place hplace) (.file content) fun _ => nofun).symm

end FileSystem

end LongFunctions
