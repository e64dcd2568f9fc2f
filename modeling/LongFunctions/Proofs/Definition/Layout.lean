/-
The layout of a source file.

What is found in a file does not depend on how the file is laid out. White space around a line may
be added or left out, lines may be broken in any of the three ways, and the last line may end in a
break or not (`findDefinitions_layout`).

Three sets of characters meet here, none of which is another one: those that break lines, those that
are taken off a line, and those that may stand between the words of a head. White space around a
line may hold any character of the second set but those of the first, so a line can be padded by
U+2028 or U+0085 and stays one line.

The argument has one step for each half of the reading of a file. Cutting the text into lines gives
back the padded lines, perhaps with empty ones behind them (`exists_linesOf_fileText_eq`). Reading a
line looks at nothing but its trimmed text (`Progress.read_congr`), which padding does not change
(`Pads.trim_eq`).
-/
import Mathlib.Data.List.Forall2
import Mathlib.Data.List.TakeWhile
import LongFunctions.Proofs.Definition.Reading
import LongFunctions.Proofs.Text.Lines

set_option autoImplicit false

namespace LongFunctions

/-! ## 1. White space around a line -/

/-- Whether a text is white space that breaks no line. -/
def IsPadding (text : String) : Prop :=
  IsLine text ∧ ∀ c ∈ text.toList, isBlank c = true

instance (text : String) : Decidable (IsPadding text) :=
  decidable_of_iff (IsLine text ∧ text.toList.all isBlank = true) (by simp [IsPadding])

/-- Whether the second text is the line with white space in front of it and behind it. -/
def Pads (line padded : String) : Prop :=
  ∃ front back, IsPadding front ∧ IsPadding back ∧ padded = front ++ line ++ back

/-- White space around a text is trimmed off. -/
theorem trimBlanks_append {front back : List Char} (hfront : ∀ c ∈ front, isBlank c = true)
    (hback : ∀ c ∈ back, isBlank c = true) (text : List Char) :
    trimBlanks (front ++ text ++ back) = trimBlanks text := by
  have hreverse : ∀ c ∈ back.reverse, isBlank c = true := by simpa using hback
  unfold trimBlanks
  rw [List.append_assoc, List.dropWhile_append_of_pos hfront, List.dropWhile_append]
  split_ifs with hblank
  · -- a text of white space only leaves nothing, with white space behind it or without
    rw [List.isEmpty_iff] at hblank
    rw [hblank, List.dropWhile_eq_nil_iff.mpr hback]
  · rw [List.reverse_append, List.dropWhile_append_of_pos hreverse]

/-- Padding does not change what a line is trimmed to. -/
theorem Pads.trim_eq {line padded : String} (h : Pads line padded) : trim line = trim padded := by
  obtain ⟨front, back, hfront, hback, rfl⟩ := h
  rw [trim, trim, String.toList_append, String.toList_append, trimBlanks_append hfront.2 hback.2]

/-- A padded line is a line. -/
theorem Pads.isLine {line padded : String} (h : Pads line padded) (hline : IsLine line) :
    IsLine padded := by
  obtain ⟨front, back, hfront, hback, rfl⟩ := h
  exact (hfront.1.append hline).append hback.1

/-- Padding breaks no line of a file. -/
theorem isLine_of_forall₂_pads {lines padded : List String} (h : List.Forall₂ Pads lines padded)
    (hlines : ∀ line ∈ lines, IsLine line) : ∀ line ∈ padded, IsLine line := by
  induction h with
  | nil => exact hlines
  | cons hpads _ ih =>
    rw [List.forall_mem_cons] at hlines ⊢
    exact ⟨hpads.isLine hlines.1, ih hlines.2⟩

/-! ## 2. Reading lines by their trimmed text -/

namespace Progress

/-- What a line does is told by its trimmed text. -/
theorem read_congr {line line' : String} (h : trim line = trim line') (progress : Progress) :
    progress.read line = progress.read line' := by
  unfold read
  rw [h]

/-- Files whose lines are trimmed to the same have the same functions. -/
theorem extents_congr {lines lines' : List String}
    (h : List.Forall₂ (fun line line' => trim line = trim line') lines lines')
    (progress : Progress) : progress.extents lines = progress.extents lines' := by
  induction h generalizing progress with
  | nil => rfl
  | cons hline _ ih => rw [extents, extents, read_congr hline, ih]

/-- Behind the other lines, lines that do not count close no function. -/
theorem extents_append_skipped {skipped : List String} (h : ∀ line ∈ skipped, ¬ Counts line)
    (lines : List String) (progress : Progress) :
    progress.extents (lines ++ skipped) = progress.extents lines := by
  rw [extents_append, extents_of_skipped h, List.append_nil]

end Progress

/-! ## 3. The layout of a file -/

/-- **Layout does not matter.** Pad each line of a file by white space that breaks no line, break
the lines in one of the three ways, and put a break behind the last one or not: in the text that
this gives, the same functions are found as in the lines. -/
theorem findDefinitions_layout (lines padded : List String) (hlines : ∀ line ∈ lines, IsLine line)
    (hpadded : List.Forall₂ Pads lines padded) (b : LineBreak) (ended : Bool) (path : String) :
    findDefinitions (linesOf (fileText b ended padded)) path = findDefinitions lines path := by
  have hbroken := isLine_of_forall₂_pads hpadded hlines
  obtain ⟨added, hadded, hsplit⟩ := exists_linesOf_fileText_eq b ended hbroken
  have hskipped : ∀ line ∈ added, ¬ Counts line := by
    intro line hline
    rw [hadded line hline]
    decide
  have htrim := hpadded.imp fun _ _ => Pads.trim_eq
  rw [hsplit, findDefinitions_eq_map_extents, findDefinitions_eq_map_extents,
    Progress.extents_append_skipped hskipped, Progress.extents_congr htrim]

/-- A function whose head is padded by U+2028 and U+0085 and whose last line by U+000B, in a text
that is broken by carriage returns. -/
theorem findDefinitions_layout_unusual :
    (∀ line ∈ ["int f() \x7b", "\x7d"], IsLine line) ∧
      List.Forall₂ Pads ["int f() \x7b", "\x7d"] ["\u2028int f() \x7b\u0085", "\x0b\x7d"] ∧
      findDefinitions (linesOf "\u2028int f() \x7b\u0085\r\x0b\x7d\r") "f.c" =
        [⟨⟨"f", 1, 2⟩, "f.c"⟩] := by
  have hlines : ∀ line ∈ ["int f() \x7b", "\x7d"], IsLine line := by decide
  have hpadded : List.Forall₂ Pads ["int f() \x7b", "\x7d"]
      ["\u2028int f() \x7b\u0085", "\x0b\x7d"] :=
    .cons ⟨"\u2028", "\u0085", by decide, by decide, by decide⟩
      (.cons ⟨"\x0b", "", by decide, by decide, by decide⟩ .nil)
  have htext : fileText .cr true ["\u2028int f() \x7b\u0085", "\x0b\x7d"] =
      "\u2028int f() \x7b\u0085\r\x0b\x7d\r" := by decide +kernel
  refine ⟨hlines, hpadded, ?_⟩
  rw [← htext, findDefinitions_layout _ _ hlines hpadded]
  decide +kernel

end LongFunctions
