/-
A file system that has grown.

One tree is within another one when the second shows all that the first one shows (`Node.Within`). A
place where nothing stood may now hold anything; a file or a link is the same one, and a directory
is still a directory, with at least the entries that it had. That is what becomes of a tree when
something is put at a place where nothing stood, whatever directories are made for it
(`Node.within_insert`).

A path that leads somewhere leads there still (`FileSystem.Within.resolve?_mono`): each of its parts
leads to something that stands, so each of them does what it did. Nothing can be said of a path that
led nowhere. A link whose target was missing may lead to the new file now, and so may the root of a
survey.
-/
import LongFunctions.Proofs.FileSystem.Removal

set_option autoImplicit false

namespace LongFunctions

namespace Node

/-! ## 1. Trees -/

/-- Whether the second tree shows all that the first one shows. -/
def Within (a b : Node) : Prop :=
  ∀ names, a.find? names ≠ none → (a.find? names).map face = (b.find? names).map face

variable {a b : Node} {names : List String}

theorem Within.refl (a : Node) : a.Within a :=
  fun _ _ => rfl

/-- What stands somewhere shows the same in the other tree. -/
theorem Within.face_eq (h : a.Within b) {node : Node} (ha : a.find? names = some node) :
    (a.find? names).map face = (b.find? names).map face := by
  apply h
  rw [ha]
  exact Option.some_ne_none node

/-- A file or a link stands in the other tree too. -/
theorem Within.leaf (h : a.Within b) {node : Node} (ha : a.find? names = some node)
    (hleaf : ∀ entries, node ≠ .dir entries) : b.find? names = some node :=
  eq_some_of_map_face_eq (h.face_eq ha) ha hleaf

/-- A directory stands in the other tree too, and there it shows all that it showed. -/
theorem Within.dir (h : a.Within b) {entries : Entries} (ha : a.find? names = some (.dir entries)) :
    ∃ entries', b.find? names = some (.dir entries') ∧
      (Node.dir entries).Within (.dir entries') := by
  obtain ⟨entries', hb⟩ := exists_dir_of_map_face_eq (h.face_eq ha) ha
  refine ⟨entries', hb, ?_⟩
  intro rest
  have hrest := h (names ++ rest)
  rwa [find?_append, find?_append, ha, hb] at hrest

/-- **What is put where nothing stood** leaves all that the tree shows. The induction is on the way
to the place; each directory on it keeps its other entries, and the entry on the way grows. -/
theorem within_insert (added : Node) {node : Node} {place : List String}
    (h : node.find? place = none) : node.Within (added.insert place node) := by
  induction place generalizing node with
  | nil => simp at h
  | cons name rest ih =>
    cases node with
    | file content => exact Within.refl _
    | link target => exact Within.refl _
    | dir entries =>
      rintro (_ | ⟨other, below⟩) hfound
      · simp [insert, face]
      · rw [insert, find?_dir_cons, find?_dir_cons, Entries.lookup_alter]
        split_ifs with hother
        · -- if something stood under this name, the way leads on through it
          subst hother
          rw [find?_dir_cons] at h hfound
          cases hchild : entries.lookup other with
          | none => simp [hchild] at hfound
          | some child =>
            rw [hchild, Option.bind_some] at h hfound
            exact ih h below hfound
        · rfl

/-- What is put where nothing stood stands there, when the way leads through directories only, those
that are missing aside. -/
theorem find?_insert_new (added : Node) {node : Node} {place : List String}
    (hadded : ∀ entries, added ≠ .dir entries)
    (hway : ∀ front found, front <+: place → node.find? front = some found →
      ∃ entries, found = .dir entries) : (added.insert place node).find? place = some added := by
  induction place generalizing node with
  | nil =>
    cases added with
    | file content => simp [insert]
    | link target => simp [insert]
    | dir entries => exact absurd rfl (hadded entries)
  | cons name rest ih =>
    obtain ⟨entries, rfl⟩ := hway [] node List.nil_prefix (find?_nil node)
    rw [insert, find?_dir_cons, Entries.lookup_alter, if_pos rfl, Option.bind_some]
    apply ih
    intro front found hfront hfound
    cases hchild : entries.lookup name with
    | none =>
      -- a new directory has nothing in it yet
      rw [hchild, Option.getD_none] at hfound
      cases front with
      | nil => exact ⟨[], by simpa using hfound.symm⟩
      | cons next front => simp at hfound
    | some child =>
      rw [hchild, Option.getD_some] at hfound
      refine hway (name :: front) found (List.cons_prefix_cons.mpr ⟨rfl, hfront⟩) ?_
      rw [find?_dir_cons, hchild, Option.bind_some, hfound]

end Node

namespace FileSystem

/-! ## 2. Paths -/

/-- Whether the second file system shows all that the first one shows, and works in the same
directory. -/
def Within (fs fs' : FileSystem) : Prop :=
  fs.cwd = fs'.cwd ∧ (Node.dir fs.top).Within (.dir fs'.top)

variable {fs fs' : FileSystem}

/-- A part that leads somewhere does what it did. -/
theorem Within.turn_mono (h : fs.Within fs') {here : List String} {part : String}
    (hturn : fs.turn here part ≠ .fails) : fs'.turn here part = fs.turn here part := by
  cases hfind : fs.find? (here ++ [part]) with
  | some node =>
    have hface := h.2.face_eq hfind
    exact (turn_eq_of_face hface).symm
  | none =>
    -- nothing stands there, so the part was no name
    unfold turn at hturn ⊢
    split_ifs at hturn ⊢
    · rfl
    · rfl
    · rw [hfind] at hturn
      exact absurd rfl hturn

/-- Parts that lead somewhere lead as far as they did. -/
theorem Within.advance_mono (h : fs.Within fs') {here parts : List String}
    (hadvance : fs.advance here parts ≠ .missing) :
    fs'.advance here parts = fs.advance here parts := by
  induction parts generalizing here with
  | nil => rw [advance, advance]
  | cons part rest ih =>
    rw [advance_cons] at hadvance ⊢
    rw [advance_cons]
    cases hturn : fs.turn here part with
    | fails =>
      rw [hturn] at hadvance
      exact absurd rfl hadvance
    | goes there =>
      rw [hturn] at hadvance
      rw [h.turn_mono (by simp [hturn]), hturn]
      exact ih hadvance
    | ends place => rw [h.turn_mono (by simp [hturn]), hturn]
    | link target => rw [h.turn_mono (by simp [hturn]), hturn]

/-- They lead to the same place, through as many links. -/
theorem Within.follow_mono (h : fs.Within fs') {links : Nat} {here parts place : List String}
    (hplace : fs.follow links here parts = some place) :
    fs'.follow links here parts = some place := by
  have hadvance' := @Within.advance_mono fs fs' h here parts
  induction links, here, parts using follow.induct fs with
  | case1 links here parts there hadvance =>
    rw [hadvance] at hadvance'
    rw [follow_of_arrived hadvance] at hplace
    rw [follow_of_arrived (hadvance' (by simp)), hplace]
  | case2 links here parts hadvance =>
    rw [follow_of_missing hadvance] at hplace
    cases hplace
  | case3 here parts directory target left hadvance =>
    rw [follow_zero_of_atLink hadvance] at hplace
    cases hplace
  | case4 here parts directory target left hadvance links ih =>
    rw [hadvance] at hadvance'
    rw [follow_succ_of_atLink hadvance] at hplace
    rw [follow_succ_of_atLink (hadvance' (by simp))]
    exact ih hplace h.advance_mono

/-- **A path leads where it led,** if it led somewhere. -/
theorem Within.resolve?_mono (h : fs.Within fs') {text : String} {place : List String}
    (hplace : fs.resolve? text = some place) : fs'.resolve? text = some place := by
  unfold resolve? at hplace ⊢
  rw [← h.1]
  split_ifs at hplace ⊢
  exact h.follow_mono hplace

/-- What could be read is read still. -/
theorem Within.read?_mono (h : fs.Within fs') {text : String} {content : ByteArray}
    (hread : fs.read? text = some content) : fs'.read? text = some content := by
  obtain ⟨place, hplace, hfind⟩ := (read?_eq_some_iff fs text content).mp hread
  apply (read?_eq_some_iff fs' text content).mpr
  exact ⟨place, h.resolve?_mono hplace, h.2.leaf hfind fun _ => nofun⟩

/-- A path that leads to a directory leads to it still, and there it shows all that it showed. -/
theorem Within.entries?_mono (h : fs.Within fs') {text : String} {entries : Entries}
    (hentries : fs.entries? text = some entries) :
    ∃ entries', fs'.entries? text = some entries' ∧
      (Node.dir entries).Within (.dir entries') := by
  obtain ⟨place, hplace, hfind⟩ := (entries?_eq_some_iff fs text entries).mp hentries
  obtain ⟨entries', hfind', hwithin⟩ := h.2.dir hfind
  refine ⟨entries', ?_, hwithin⟩
  exact (entries?_eq_some_iff fs' text entries').mpr ⟨place, h.resolve?_mono hplace, hfind'⟩

/-! ## 3. A new file -/

/-- A place where nothing stands is not the root. -/
theorem ne_nil_of_find?_eq_none {place : List String} (h : fs.find? place = none) : place ≠ [] := by
  rintro rfl
  simp [find?] at h

/-- A file system is within the one with something put where nothing stood. -/
theorem within_insert (added : Node) {place : List String} (h : fs.find? place = none) :
    fs.Within (fs.insert place added) := by
  refine ⟨(fs.cwd_insert place added).symm, ?_⟩
  rw [dir_top_insert (ne_nil_of_find?_eq_none h)]
  exact Node.within_insert added h

end FileSystem

end LongFunctions
