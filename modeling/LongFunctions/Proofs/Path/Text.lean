/-
The text of a path, and the path of a text.

`Path.ofString` keeps what a text says about where it leads, and `Path.toString` writes it down
again. A path is clean when its parts are parts that a text can show: not empty, not `.` and without
a slash. Every path of a text is clean, and a clean path is the path of its text
(`Path.ofString_toString`), so clean paths with one text are one path.

`joinNames` says on texts what `Path.below` does on paths: the names behind a root, behind a slash,
and alone when the root is the working directory (`Path.toString_below`).
-/
import Mathlib.Data.List.Basic
import LongFunctions.Path

set_option autoImplicit false

namespace LongFunctions

/-! ## 1. Splitting and joining -/

/-- Nothing between two separators is a separator. -/
theorem not_mem_of_mem_splitOn {sep : Char} {text piece : List Char}
    (h : piece ∈ text.splitOn sep) : sep ∉ piece := by
  induction text generalizing piece with
  | nil =>
    rw [List.splitOn_nil, List.mem_singleton] at h
    rw [h]
    exact List.not_mem_nil
  | cons c text ih =>
    rw [List.splitOn_cons_eq_if_modifyHead] at h
    split_ifs at h with hc
    · rcases List.mem_cons.mp h with rfl | hrest
      · exact List.not_mem_nil
      · exact ih hrest
    · -- the character is added to the first of the pieces behind it
      obtain ⟨first, rest, hsplit⟩ := List.exists_cons_of_ne_nil (List.splitOn_ne_nil sep text)
      rw [hsplit, List.modifyHead_cons] at h
      rcases List.mem_cons.mp h with rfl | hrest
      · have hfirst : sep ∉ first := ih (hsplit ▸ List.mem_cons_self)
        intro hmem
        rcases List.mem_cons.mp hmem with rfl | hmem
        · simp at hc
        · exact hfirst hmem
      · exact ih (hsplit ▸ List.mem_cons_of_mem _ hrest)

/-- No stretch of a text between its slashes holds a slash. -/
theorem slash_not_mem_of_mem_slashParts {text part : String} (h : part ∈ slashParts text) :
    '/' ∉ part.toList := by
  rw [slashParts, List.mem_map] at h
  obtain ⟨piece, hpiece, rfl⟩ := h
  rw [String.toList_ofList]
  exact not_mem_of_mem_splitOn hpiece

/-- Texts without slashes that are joined by slashes are found again. -/
theorem slashParts_intercalate {parts : List String} (hne : parts ≠ [])
    (h : ∀ part ∈ parts, '/' ∉ part.toList) :
    slashParts (String.intercalate "/" parts) = parts := by
  have hslash : "/".toList = ['/'] := rfl
  have hpieces : ∀ piece ∈ parts.map String.toList, '/' ∉ piece := by
    intro piece hpiece
    obtain ⟨part, hpart, rfl⟩ := List.mem_map.mp hpiece
    exact h part hpart
  rw [slashParts, String.toList_intercalate, hslash,
    List.splitOn_intercalate '/' hpieces (by simpa using hne), List.map_map]
  exact List.map_id'' (fun part => String.ofList_toList) parts

theorem slashParts_ne_nil (text : String) : slashParts text ≠ [] := by
  rw [slashParts, ne_eq, List.map_eq_nil_iff]
  exact List.splitOn_ne_nil _ _

/-- The stretches of a text are joined by its slashes. -/
theorem intercalate_slashParts (text : String) :
    String.intercalate "/" (slashParts text) = text := by
  have hslash : "/".toList = ['/'] := rfl
  have hpieces : (slashParts text).map String.toList = text.toList.splitOn '/' := by
    rw [slashParts, List.map_map]
    exact List.map_id'' (fun piece => String.toList_ofList) _
  rw [← String.toList_inj, String.toList_intercalate, hslash, hpieces, List.intercalate_splitOn]

/-- The stretches of two texts with a slash between them are those of the one and of the other. -/
theorem slashParts_append (front behind : String) :
    slashParts (front ++ "/" ++ behind) = slashParts front ++ slashParts behind := by
  have htext : front ++ "/" ++ behind =
      String.intercalate "/" (slashParts front ++ slashParts behind) := by
    rw [String.intercalate_append_of_ne_nil (slashParts_ne_nil _) (slashParts_ne_nil _),
      intercalate_slashParts, intercalate_slashParts]
  rw [htext, slashParts_intercalate]
  · simp [slashParts_ne_nil]
  · exact List.forall_mem_append.mpr
      ⟨fun _ => slash_not_mem_of_mem_slashParts, fun _ => slash_not_mem_of_mem_slashParts⟩

/-- A slash in front adds an empty stretch in front. -/
theorem slashParts_slash_append (text : String) :
    slashParts ("/" ++ text) = "" :: slashParts text := by
  have htext : ("/" ++ text).toList = '/' :: text.toList := by
    rw [String.toList_append]
    rfl
  rw [slashParts, htext, List.splitOn_cons_eq_if_modifyHead, if_pos (by decide), List.map_cons]
  rfl

/-! ## 2. Clean paths -/

/-- Whether this can be a part of a path: it is not empty, it is not `.`, and it has no slash. -/
def IsPart (part : String) : Prop :=
  part ≠ "" ∧ part ≠ "." ∧ '/' ∉ part.toList

namespace Path

/-- Whether all parts of a path can be parts of a path. -/
def Clean (path : Path) : Prop :=
  ∀ part ∈ path.parts, IsPart part

/-- The path of a text is clean. -/
theorem clean_ofString (text : String) : (ofString text).Clean := by
  intro part hpart
  obtain ⟨hmem, hkeep⟩ := List.mem_filter.mp hpart
  rw [decide_eq_true_eq] at hkeep
  exact ⟨hkeep.1, hkeep.2, slash_not_mem_of_mem_slashParts hmem⟩

/-- A path below a clean path is clean when the names can be parts. -/
theorem Clean.below {path : Path} {names : List String} (h : path.Clean)
    (hnames : ∀ name ∈ names, IsPart name) : (path.below names).Clean := by
  intro part hpart
  rcases List.mem_append.mp hpart with hpart | hpart
  · exact h part hpart
  · exact hnames part hpart

/-- Clean parts pass the filter that drops what says nothing. -/
theorem Clean.filter_parts {path : Path} (h : path.Clean) :
    (path.parts.filter fun part => part ≠ "" ∧ part ≠ ".") = path.parts := by
  refine List.filter_eq_self.mpr ?_
  intro part hpart
  rw [decide_eq_true_eq]
  exact ⟨(h part hpart).1, (h part hpart).2.1⟩

/-- The joined parts of a clean path do not start with a slash. -/
theorem Clean.startsAtRoot_intercalate {path : Path} (h : path.Clean) :
    startsAtRoot (String.intercalate "/" path.parts) = false := by
  rw [startsAtRoot, decide_eq_false_iff_not]
  intro hhead
  cases hparts : path.parts with
  | nil => rw [hparts] at hhead; simp at hhead
  | cons part rest =>
    obtain ⟨hne, -, hslash⟩ := h part (hparts ▸ List.mem_cons_self)
    have hnil : part.toList ≠ [] := fun hnil => hne (String.toList_inj.mp hnil)
    obtain ⟨c, cs, hcs⟩ := List.exists_cons_of_ne_nil hnil
    -- the text starts as its first part does, which is not empty and has no slash
    have hc : (String.intercalate "/" (part :: rest)).toList.head? = some c := by
      cases rest with
      | nil => rw [String.intercalate_singleton, hcs]; rfl
      | cons next rest =>
        rw [String.intercalate_cons_cons, String.toList_append, String.toList_append, hcs]
        rfl
    rw [hparts, hc] at hhead
    exact hslash (hcs ▸ Option.some.inj hhead ▸ List.mem_cons_self)

/-- **A clean path is the path of its text.** The three forms of the text are taken in turn: behind
a slash, the dot of the working directory, and the joined parts alone. -/
theorem ofString_toString {path : Path} (h : path.Clean) : ofString path.toString = path := by
  have hslashes : ∀ part ∈ path.parts, '/' ∉ part.toList := fun part hpart => (h part hpart).2.2
  have hkeep := h.filter_parts
  have hstart := h.startsAtRoot_intercalate
  obtain ⟨absolute, parts⟩ := path
  cases absolute with
  | true =>
    have hroot : startsAtRoot ("/" ++ String.intercalate "/" parts) = true := by
      rw [startsAtRoot, String.toList_append]
      rfl
    show ofString ("/" ++ String.intercalate "/" parts) = ⟨true, parts⟩
    rw [ofString, hroot, slashParts_slash_append, List.filter_cons_of_neg (by decide)]
    by_cases hparts : parts = []
    · subst hparts
      rfl
    · rw [slashParts_intercalate hparts hslashes, hkeep]
  | false =>
    by_cases hparts : parts = []
    · subst hparts
      decide
    · have htext : toString ⟨false, parts⟩ = String.intercalate "/" parts := by
        simp [toString, hparts]
      rw [htext, ofString, hstart, slashParts_intercalate hparts hslashes, hkeep]

/-- Between the slashes of the text of a clean path stand its parts. -/
theorem Clean.slashParts_toString {path : Path} (h : path.Clean) (hne : path.parts ≠ []) :
    slashParts path.toString = (if path.absolute then [""] else []) ++ path.parts := by
  have hjoined := slashParts_intercalate hne fun part hpart => (h part hpart).2.2
  obtain ⟨absolute, parts⟩ := path
  cases absolute with
  | true =>
    show slashParts ("/" ++ String.intercalate "/" parts) = "" :: parts
    rw [slashParts_slash_append, hjoined]
  | false =>
    have htext : toString ⟨false, parts⟩ = String.intercalate "/" parts := by
      simp [toString, show parts ≠ [] from hne]
    rw [htext, hjoined]
    rfl

/-- Clean paths with one text are one path. -/
theorem Clean.toString_inj {path other : Path} (h : path.Clean) (h' : other.Clean) :
    path.toString = other.toString ↔ path = other := by
  constructor
  · intro htext
    rw [← ofString_toString h, htext, ofString_toString h']
  · intro heq
    rw [heq]

end Path

/-! ## 3. Names behind a root -/

/-- The text of what stands behind these names below a root: the names behind the root and a slash,
and only the names when the root is the working directory. -/
def joinNames (root : String) (names : List String) : String :=
  if root = "." then String.intercalate "/" names
  else if root = "/" then "/" ++ String.intercalate "/" names
  else root ++ "/" ++ String.intercalate "/" names

namespace Path

theorem Clean.toString_eq_dot_iff {path : Path} (h : path.Clean) :
    path.toString = "." ↔ path = current := by
  have hcurrent : current.Clean := fun part hpart => nomatch hpart
  exact h.toString_inj hcurrent

theorem Clean.toString_eq_slash_iff {path : Path} (h : path.Clean) :
    path.toString = "/" ↔ path = ⟨true, []⟩ := by
  have hroot : (⟨true, []⟩ : Path).Clean := fun part hpart => nomatch hpart
  exact h.toString_inj hroot

/-- The text of a path below a root is the text of the root with the names behind it. -/
theorem toString_below {root : Path} (h : root.Clean) {names : List String} (hne : names ≠ []) :
    (root.below names).toString = joinNames root.toString names := by
  have hbelow : ∀ parts, parts ≠ [] →
      String.intercalate "/" (parts ++ names) =
        String.intercalate "/" parts ++ "/" ++ String.intercalate "/" names :=
    fun parts hparts => String.intercalate_append_of_ne_nil hparts hne
  simp only [joinNames, h.toString_eq_dot_iff, h.toString_eq_slash_iff]
  obtain ⟨absolute, parts⟩ := root
  by_cases hparts : parts = []
  · subst hparts
    cases absolute with
    | true => rfl
    | false => simp [below, toString, current, hne]
  · have hdot : (⟨absolute, parts⟩ : Path) ≠ current := fun heq => hparts (congrArg Path.parts heq)
    have hslash : (⟨absolute, parts⟩ : Path) ≠ ⟨true, []⟩ :=
      fun heq => hparts (congrArg Path.parts heq)
    -- a root with parts is neither of the two that have a text of their own
    rw [if_neg hdot, if_neg hslash]
    cases absolute with
    | true =>
      show "/" ++ String.intercalate "/" (parts ++ names) =
        "/" ++ String.intercalate "/" parts ++ "/" ++ String.intercalate "/" names
      rw [hbelow parts hparts]
      simp only [String.append_assoc]
    | false =>
      simp only [below, toString, Bool.false_eq_true, if_false, List.isEmpty_iff,
        List.append_eq_nil_iff, hparts, false_and]
      exact hbelow parts hparts

end Path

end LongFunctions
