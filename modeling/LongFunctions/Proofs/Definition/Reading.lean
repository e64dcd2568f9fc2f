/-
How the reader of a file moves, one line at a time.

`Progress.read` decides three things at once: whether the line is passed over, whether a function is
open, and whether the depth has come to zero. Here each of its ways is one equation, under the
condition that leads to it, and nothing after this file opens `Progress.read` again.

The fold behind `findDefinitions` collects what was closed in reverse, with the lines that closed
nothing in between. `Progress.extents` is the same run as a recursion on the lines that are still
to be read, from any progress, and `findDefinitions_eq_map_extents` is the passage from one to the
other. Read in two parts, a file gives what the first part gives and then what the second one gives
from where the first one ends (`Progress.extents_append`).
-/
import Mathlib.Data.List.Basic
import LongFunctions.Definition

set_option autoImplicit false

namespace LongFunctions

/-! ## 1. Lines that count -/

/-- Whether a line counts for the functions of its file: without the white space around it, it is
not empty and starts neither with `//` nor with `#`. -/
def Counts (line : String) : Prop :=
  trim line ≠ "" ∧ ¬ "//".toList <+: (trim line).toList ∧ ¬ "#".toList <+: (trim line).toList

instance (line : String) : Decidable (Counts line) :=
  inferInstanceAs (Decidable (_ ∧ _ ∧ _))

/-- The lines that are passed over are those that do not count. -/
theorem isInert_trim_iff (line : String) : isInert (trim line) = true ↔ ¬ Counts line := by
  have hempty : trim line = "" ↔ (trim line).toList = [] := by
    rw [← String.toList_inj]
    rfl
  rw [Counts, ne_eq, hempty, isInert]
  show _ ↔ ¬ (_ ∧ ¬ ['/', '/'] <+: (trim line).toList ∧ ¬ ['#'] <+: (trim line).toList)
  split
  · next h => simp [h]
  · next h => simp [h]
  · next h => simp [h]
  · next hnil hhash hslash =>
    -- what the three patterns leave is a line that counts
    refine iff_of_false Bool.false_ne_true (not_not.mpr ⟨hnil, ?_, ?_⟩)
    · rintro ⟨rest, hrest⟩
      exact hslash rest hrest.symm
    · rintro ⟨rest, hrest⟩
      exact hhash rest hrest.symm

theorem Counts.not_isInert {line : String} (h : Counts line) : ¬ isInert (trim line) = true :=
  fun hi => (isInert_trim_iff line).mp hi h

/-! ## 2. One line -/

namespace Progress

/-- A line that does not count changes nothing but the number of lines read. -/
theorem read_of_not_counts {line : String} (h : ¬ Counts line) (progress : Progress) :
    progress.read line = ({ progress with linesRead := progress.linesRead + 1 }, none) := by
  unfold read
  exact if_pos ((isInert_trim_iff line).mpr h)

/-- Outside a function, a line that counts opens a function if it is a head, and closes none. -/
theorem read_outside {line : String} (h : Counts line) (n : Nat) :
    (Progress.mk n none).read line =
      (⟨n + 1, (headName? (trim line)).map fun name => ⟨name, n + 1, braceBalance (trim line)⟩⟩,
        none) := by
  simp only [read, if_neg h.not_isInert]

/-- Inside a function, a line that counts closes it when the depth comes to zero, and else leaves
it open at the new depth. -/
theorem read_inside {line : String} (h : Counts line) (n : Nat) (f : Unclosed) :
    (Progress.mk n (some f)).read line =
      if f.depth + braceBalance (trim line) = 0 then
        (⟨n + 1, none⟩, some ⟨f.name, f.firstLine, n + 1 - f.firstLine + 1⟩)
      else (⟨n + 1, some { f with depth := f.depth + braceBalance (trim line) }⟩, none) := by
  simp only [read, if_neg h.not_isInert]

/-- Each line is counted as read, whatever it holds. -/
@[simp] theorem read_linesRead (progress : Progress) (line : String) :
    (progress.read line).1.linesRead = progress.linesRead + 1 := by
  obtain ⟨n, current⟩ := progress
  by_cases h : Counts line
  · cases current with
    | none => rw [read_outside h]
    | some f =>
      rw [read_inside h]
      split_ifs <;> rfl
  · rw [read_of_not_counts h]

/-! ## 3. The lines that are left -/

/-- The functions that are closed while the given lines are read, in order. -/
def extents (progress : Progress) : List String → List Extent
  | [] => []
  | line :: rest => (progress.read line).2.toList ++ (progress.read line).1.extents rest

theorem note_eq (progress : Progress) (noted : List (Option Extent)) (line : String) :
    note (progress, noted) line = ((progress.read line).1, (progress.read line).2 :: noted) := by
  simp only [note]

/-- The fold of `closings` notes what `extents` lists, newest first and in front of what it started
with. -/
theorem filterMap_foldl_note (lines : List String) (progress : Progress)
    (noted : List (Option Extent)) :
    ((lines.foldl note (progress, noted)).2.reverse).filterMap id =
      noted.reverse.filterMap id ++ progress.extents lines := by
  induction lines generalizing progress noted with
  | nil => simp only [List.foldl_nil, extents, List.append_nil]
  | cons line rest ih =>
    -- what this line closed is the last thing noted and the first thing listed
    have hclosed : [(progress.read line).2].filterMap id = (progress.read line).2.toList := by
      cases (progress.read line).2 with
      | none => rfl
      | some extent => rfl
    rw [List.foldl_cons, note_eq, ih, extents, List.reverse_cons, List.filterMap_append,
      List.append_assoc, hclosed]

/-! ## 4. Reading in parts -/

/-- How far a file has been read behind the given lines. -/
def after (progress : Progress) : List String → Progress
  | [] => progress
  | line :: rest => (progress.read line).1.after rest

/-- The fold of `closings` moves through a file in the same way. -/
theorem fst_foldl_note (lines : List String) (progress : Progress)
    (noted : List (Option Extent)) :
    (lines.foldl note (progress, noted)).1 = progress.after lines := by
  induction lines generalizing progress noted with
  | nil => rfl
  | cons line rest ih => rw [List.foldl_cons, note_eq, ih, after]

@[simp] theorem after_linesRead (lines : List String) (progress : Progress) :
    (progress.after lines).linesRead = progress.linesRead + lines.length := by
  induction lines generalizing progress with
  | nil => rfl
  | cons line rest ih =>
    rw [after, ih, read_linesRead, List.length_cons]
    omega

/-- What is closed in two parts of a file, one behind the other, is what is closed in the first and
then, from where it ends, in the second. -/
theorem extents_append (lines rest : List String) (progress : Progress) :
    progress.extents (lines ++ rest) =
      progress.extents lines ++ (progress.after lines).extents rest := by
  induction lines generalizing progress with
  | nil => rfl
  | cons line lines ih =>
    rw [List.cons_append, extents, extents, ih, List.append_assoc, after]

/-! ## 5. Lines that do not count -/

variable {n : Nat} {current : Option Unclosed} {line : String} {rest : List String}

theorem extents_of_not_counts (h : ¬ Counts line) :
    (Progress.mk n current).extents (line :: rest) =
      (Progress.mk (n + 1) current).extents rest := by
  rw [extents, read_of_not_counts h]
  rfl

/-- Lines that do not count only add to the number of lines read. -/
theorem extents_append_of_not_counts {skipped : List String} (h : ∀ line ∈ skipped, ¬ Counts line) :
    (Progress.mk n current).extents (skipped ++ rest) =
      (Progress.mk (n + skipped.length) current).extents rest := by
  induction skipped generalizing n with
  | nil => rfl
  | cons line skipped ih =>
    rw [List.forall_mem_cons] at h
    rw [List.cons_append, extents_of_not_counts h.1, ih h.2, List.length_cons, Nat.add_assoc,
      Nat.add_comm 1]

/-- Lines that do not count close no function. -/
theorem extents_of_skipped {skipped : List String} (h : ∀ line ∈ skipped, ¬ Counts line)
    (progress : Progress) : progress.extents skipped = [] := by
  have hrun : progress.extents (skipped ++ []) = _ := extents_append_of_not_counts h
  rwa [List.append_nil] at hrun

end Progress

/-- The functions of a file are those that are closed on the way from its first line to its last,
each with the path of the file. -/
theorem findDefinitions_eq_map_extents (lines : List String) (path : String) :
    findDefinitions lines path = (({} : Progress).extents lines).map (·.inFile path) := by
  have hrun := Progress.filterMap_foldl_note lines {} []
  rw [List.reverse_nil, List.filterMap_nil, List.nil_append] at hrun
  rw [findDefinitions, closings, ← hrun, List.map_filterMap]
  rfl

end LongFunctions
