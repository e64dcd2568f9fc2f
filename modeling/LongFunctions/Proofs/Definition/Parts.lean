/-
A file read in parts.

What is found in the first lines of a file does not depend on the lines behind them. These lines add
functions that end behind the cut, and take nothing away, wherever the cut is: inside a function,
between two, or where the depth is below zero. And when no function is open at the cut, what is
found behind it is what would be found if the file began there (`findDefinitions_parts`).

For the first half there is nothing to compare. A file read to the cut is the same file read on
(`Progress.extents_append`), and a function closed by a later line ends on that line
(`Progress.HeadRead.lt_lastLine`). The second half compares two readings with other numbers for the
same lines, and that is what room is for: the lines behind the cut are read with room for the lines
before it (`Progress.extents_makeRoom`).
-/
import LongFunctions.Proofs.Definition.Insertion

set_option autoImplicit false

namespace LongFunctions

/-! ## 1. Behind the first lines -/

/-- Whether no function is open behind these lines. -/
def EndsOutside (lines : List String) : Prop :=
  (lines.foldl Progress.note ({}, [])).1.current = none

instance (lines : List String) : Decidable (EndsOutside lines) :=
  inferInstanceAs (Decidable (_ = _))

/-- Behind lines after which no function is open, the reader stands as before the first line, but
for the number of lines read. -/
theorem EndsOutside.after_eq {lines : List String} (h : EndsOutside lines) :
    ({} : Progress).after lines = (Progress.mk 0 none).makeRoom 0 lines.length := by
  have hread := Progress.after_linesRead lines {}
  rw [EndsOutside, Progress.fst_foldl_note] at h
  generalize ({} : Progress).after lines = reached at h hread
  obtain ⟨n, current⟩ := reached
  obtain rfl : current = none := h
  obtain rfl : n = 0 + lines.length := hread
  rfl

/-- A file is read to the end in two parts. -/
theorem Progress.extents_take_append (lines : List String) (k : Nat) :
    ({} : Progress).extents (lines.take k) ++
        (({} : Progress).after (lines.take k)).extents (lines.drop k) =
      ({} : Progress).extents lines := by
  rw [← extents_append, List.take_append_drop]

/-- Of the functions of a file, those found in its first `k` lines are those that end there. -/
theorem Progress.extents_take (lines : List String) (k : Nat) :
    ({} : Progress).extents (lines.take k) =
      (({} : Progress).extents lines).filter fun extent => extent.lastLine ≤ k := by
  have hfront : (({} : Progress).extents (lines.take k)).filter
      (fun extent => extent.lastLine ≤ k) = ({} : Progress).extents (lines.take k) := by
    rw [List.filter_eq_self]
    intro extent hmem
    have hle := (ends_of_mem_extents hmem).2.2
    rw [List.length_take] at hle
    exact decide_eq_true (by omega)
  have hback : ((({} : Progress).after (lines.take k)).extents (lines.drop k)).filter
      (fun extent => extent.lastLine ≤ k) = [] := by
    rw [List.filter_eq_nil_iff]
    intro extent hmem hle
    rw [decide_eq_true_eq] at hle
    have hlt := (HeadRead.start.after _).lt_lastLine hmem
    rw [after_linesRead, List.length_take] at hlt
    -- there are lines behind the cut, so all `k` lines before it have been read
    have hk : k < lines.length := by
      by_contra hall
      rw [List.drop_eq_nil_of_le (Nat.not_lt.mp hall)] at hmem
      cases hmem
    have hzero : ({} : Progress).linesRead = 0 := rfl
    omega
  rw [← extents_take_append lines k, List.filter_append, hfront, hback, List.append_nil]

/-- When no function is open behind the lines in front, those behind close what they close in a file
of their own, moved by the lines in front. -/
theorem EndsOutside.extents_append {front : List String} (h : EndsOutside front)
    (back : List String) :
    ({} : Progress).extents (front ++ back) =
      ({} : Progress).extents front ++ (({} : Progress).extents back).map fun extent =>
        { extent with firstLine := extent.firstLine + front.length } := by
  -- the room is in front of all lines, so each function is behind it
  have hmoved : ∀ extent ∈ ({} : Progress).extents back, extent.makeRoom 0 front.length =
      { extent with firstLine := extent.firstLine + front.length } := by
    intro extent hmem
    exact Extent.makeRoom_of_lt (Progress.ends_of_mem_extents hmem).1
  rw [Progress.extents_append, h.after_eq, Progress.extents_makeRoom (Nat.le_refl 0),
    List.map_congr_left hmoved]

/-! ## 2. The functions of the parts -/

/-- **The functions of a file in parts.** In the first `k` lines those are found that end on one of
them, the first few of the file's functions; no two end on one line. And when no function is open
behind the lines in front, all others are those of the lines behind, with the lines in front added
to their numbers. -/
theorem findDefinitions_parts (path : String) :
    (∀ (lines : List String) (k : Nat),
      findDefinitions (lines.take k) path =
        (findDefinitions lines path).filter (fun d => d.firstLine + d.length - 1 ≤ k) ∧
      findDefinitions (lines.take k) path <+: findDefinitions lines path) ∧
    (∀ lines : List String, (findDefinitions lines path).Pairwise
      fun d d' => d.firstLine + d.length - 1 < d'.firstLine + d'.length - 1) ∧
    ∀ front back : List String, EndsOutside front →
      findDefinitions (front ++ back) path =
        findDefinitions front path ++
          (findDefinitions back path).map fun d =>
            { d with firstLine := d.firstLine + front.length } := by
  refine ⟨?_, ?_, ?_⟩
  · intro lines k
    refine ⟨?_, ?_⟩
    · rw [findDefinitions_eq_map_extents, findDefinitions_eq_map_extents, List.filter_map,
        Progress.extents_take]
      rfl
    · rw [findDefinitions_eq_map_extents, findDefinitions_eq_map_extents,
        ← Progress.extents_take_append lines k, List.map_append]
      exact List.prefix_append _ _
  · intro lines
    have hsearch := search_findDefinitions lines path
    refine hsearch.pairwise_apart.imp_of_mem ?_
    intro d d' _ hd' hlt
    exact hlt.trans (hsearch.ends hd').2.1
  · intro front back hfront
    rw [findDefinitions_eq_map_extents, findDefinitions_eq_map_extents,
      findDefinitions_eq_map_extents, hfront.extents_append, List.map_append, List.map_map,
      List.map_map]
    rfl

/-- A function behind another one whose depth goes below zero, and behind a line outside of both. -/
theorem findDefinitions_parts_cut :
    EndsOutside ["int f()", "\x7d", "\x7b", "int n;"] ∧
      findDefinitions (["int f()", "\x7d", "\x7b", "int n;"] ++ ["int g() \x7b", "\x7d"]) "f.c" =
        [⟨⟨"f", 1, 3⟩, "f.c"⟩, ⟨⟨"g", 5, 2⟩, "f.c"⟩] := by
  have houtside : EndsOutside ["int f()", "\x7d", "\x7b", "int n;"] := by decide +kernel
  refine ⟨houtside, ((findDefinitions_parts "f.c").2.2 _ _ houtside).trans ?_⟩
  decide +kernel

end LongFunctions
