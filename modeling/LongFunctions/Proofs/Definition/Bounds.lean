/-
How large the numbers of a reader become.

The depth of a function is a sum of balances, so it is at most the number of braces in the lines
that it was taken from, however far it goes below zero and comes back. These lines are different
lines of one text, and between two lines there is a break; so the braces of all lines, and the lines
themselves, are bounded by the size of the text (`sum_length_linesOf_le`). Nothing more is known of
a text than its size, and nothing more is needed.

That a depth is such a sum is what `Progress.Follows` knows of each progress; here it is said of
what is reached behind any part of a file (`Progress.Follows.after`).
-/
import Mathlib.Algebra.Order.BigOperators.Group.Finset
import Mathlib.Algebra.Order.BigOperators.Group.List
import Mathlib.Algebra.BigOperators.Fin
import Mathlib.Algebra.BigOperators.Ring.Finset
import Mathlib.Algebra.Order.Group.Abs
import Mathlib.Algebra.Order.Group.Int
import LongFunctions.Proofs.Definition.Search
import LongFunctions.Proofs.Text.Breaks

set_option autoImplicit false

namespace LongFunctions

/-! ## 1. Braces -/

/-- The number of braces in a text, opening and closing ones. -/
def braceCount (text : String) : Nat :=
  text.toList.countP fun c => c = '{' ∨ c = '}'

theorem count_opening_le (text : String) : text.toList.count '{' ≤ braceCount text :=
  List.countP_mono_left (by simp +contextual)

theorem count_closing_le (text : String) : text.toList.count '}' ≤ braceCount text :=
  List.countP_mono_left (by simp +contextual)

theorem abs_braceBalance_le (text : String) : |braceBalance text| ≤ braceCount text := by
  have hopening := count_opening_le text
  have hclosing := count_closing_le text
  rw [braceBalance, abs_le]
  omega

/-- Nothing is added when the white space around a text is taken off. -/
theorem trim_sublist (text : String) : (trim text).toList.Sublist text.toList := by
  have hfront : (text.toList.dropWhile isBlank).Sublist text.toList := List.dropWhile_sublist _
  have hback : ((text.toList.dropWhile isBlank).reverse.dropWhile isBlank).Sublist
      (text.toList.dropWhile isBlank).reverse := List.dropWhile_sublist _
  rw [trim, String.toList_ofList, trimBlanks]
  exact (List.reverse_sublist.mp (by rwa [List.reverse_reverse])).trans hfront

/-- A line has the braces that it has without the white space around it, and perhaps more. -/
theorem braceCount_trim_le (line : String) : braceCount (trim line) ≤ braceCount line :=
  (trim_sublist line).countP_le

theorem braceCount_le_length (text : String) : braceCount text ≤ text.length := by
  rw [← String.length_toList]
  exact List.countP_le_length

/-- The number of braces on the line with this number. -/
def bracesAt (lines : List String) (j : Nat) : Nat :=
  ((lineAt lines j).map braceCount).getD 0

/-- The number of braces on the lines `s` to `e` that count. -/
def bracesThrough (lines : List String) (s e : Nat) : Nat :=
  ∑ j ∈ Finset.Icc s e with CountsAt lines j, bracesAt lines j

theorem abs_balanceAt_le (lines : List String) (j : Nat) :
    |balanceAt lines j| ≤ bracesAt lines j := by
  rw [balanceAt, bracesAt]
  cases lineAt lines j with
  | none => simp
  | some line =>
    have h := (abs_braceBalance_le (trim line)).trans
      (Int.ofNat_le.mpr (braceCount_trim_le line))
    exact h

/-- The depth that lines add up to is at most the number of their braces. -/
theorem abs_depthThrough_le (lines : List String) (s e : Nat) :
    |depthThrough lines s e| ≤ bracesThrough lines s e := by
  rw [depthThrough, bracesThrough, Nat.cast_sum]
  refine (Finset.abs_sum_le_sum_abs _ _).trans ?_
  exact Finset.sum_le_sum fun j _ => abs_balanceAt_le lines j

/-- The braces of all lines, by number. -/
theorem sum_bracesAt (lines : List String) :
    ∑ j ∈ Finset.range (lines.length + 1), bracesAt lines j = (lines.map braceCount).sum := by
  have hzero : bracesAt lines 0 = 0 := rfl
  rw [Finset.sum_range_succ', hzero, add_zero, Finset.sum_range, ← Fin.sum_univ_fun_getElem]
  refine Finset.sum_congr rfl fun i _ => ?_
  have hline : lineAt lines (i + 1) = some lines[i] := List.getElem?_eq_getElem i.isLt
  rw [bracesAt, hline]
  rfl

/-- Some of the lines have no more braces than all of them. -/
theorem bracesThrough_le (lines : List String) (s e : Nat) :
    bracesThrough lines s e ≤ (lines.map braceCount).sum := by
  rw [← sum_bracesAt, bracesThrough]
  refine Finset.sum_le_sum_of_subset ?_
  intro j hj
  have hle := (Finset.mem_filter.mp hj).2.le_length
  exact Finset.mem_range.mpr (by omega)

theorem abs_depthThrough_le_sum (lines : List String) (s e : Nat) :
    |depthThrough lines s e| ≤ ((lines.map braceCount).sum : Nat) :=
  (abs_depthThrough_le lines s e).trans (Int.ofNat_le.mpr (bracesThrough_le lines s e))

theorem braceCount_le_of_lineAt {lines : List String} {j : Nat} {line : String}
    (h : lineAt lines j = some line) : braceCount line ≤ (lines.map braceCount).sum := by
  obtain ⟨i, rfl, hi⟩ := exists_of_lineAt h
  exact List.le_sum_of_mem (List.mem_map_of_mem (List.mem_of_getElem? hi))

/-! ## 2. The size of a text -/

theorem length_le_utf8ByteSize (text : String) : text.length ≤ text.utf8ByteSize := by
  induction text using String.push_induction with
  | empty => exact Nat.zero_le _
  | push text c ih =>
    have hc := c.utf8Size_pos
    rw [String.length_push, String.utf8ByteSize_push]
    omega

/-- The lines of a text with the breaks between them are no longer than the text. -/
theorem length_brokenText_le (last : String) (broken : List (String × LineBreak)) :
    ((broken.map Prod.fst ++ [last]).map String.length).sum + broken.length ≤
      (brokenText last broken).length := by
  induction broken with
  | nil => simp [brokenText]
  | cons p rest ih =>
    obtain ⟨line, b⟩ := p
    have hbreak : 0 < b.text.length := by cases b <;> decide
    simp only [brokenText, String.length_append, List.map_cons, List.cons_append, List.sum_cons,
      List.length_cons]
    omega

/-- The lines of a text and a character for each break between them are at most as long as the
text. -/
theorem sum_length_linesOf_le (content : String) :
    ((linesOf content).map String.length).sum + ((linesOf content).length - 1) ≤
      content.length := by
  obtain ⟨t, rfl⟩ := BrokenLines.exists_text_eq content
  have hle := length_brokenText_le t.last t.broken
  have hlength : t.lines.length - 1 = t.broken.length := by
    simp [BrokenLines.lines]
  rw [t.linesOf_text, hlength]
  exact hle

/-- There is at most one line more than there are bytes. -/
theorem length_linesOf_le (content : String) :
    (linesOf content).length ≤ content.utf8ByteSize + 1 := by
  have hlines := sum_length_linesOf_le content
  have hbytes := length_le_utf8ByteSize content
  omega

/-- The lines of a text have no more braces than the text has bytes. -/
theorem sum_braceCount_linesOf_le (content : String) :
    ((linesOf content).map braceCount).sum ≤ content.utf8ByteSize := by
  have hlines := sum_length_linesOf_le content
  have hbytes := length_le_utf8ByteSize content
  have hbraces :
      ((linesOf content).map braceCount).sum ≤ ((linesOf content).map String.length).sum :=
    List.sum_le_sum fun line _ => braceCount_le_length line
  omega

/-! ## 3. The function that is open -/

namespace Progress

/-- A reader that follows a search goes on to follow one behind the next line. -/
theorem Follows.exists_read {lines : List String} {line : String} {p : Nat} {progress : Progress}
    (h : Follows lines p progress) (hline : lineAt lines (progress.linesRead + 1) = some line) :
    ∃ q, Follows lines q (progress.read line).1 := by
  rcases h.read hline with ⟨-, hfollows⟩ | ⟨name, s, -, -, hfollows⟩
  · exact ⟨_, hfollows⟩
  · exact ⟨_, hfollows⟩

/-- A reader that follows a search goes on to follow one behind any part of the lines that are
left. -/
theorem Follows.after {lines read rest : List String} {p : Nat} {progress : Progress}
    (h : Follows lines p progress) (hrest : lines.drop progress.linesRead = read ++ rest) :
    ∃ q, Follows lines q (progress.after read) := by
  induction read generalizing p progress with
  | nil => exact ⟨p, h⟩
  | cons line read ih =>
    obtain ⟨hline, hrest'⟩ := lineAt_of_drop hrest
    obtain ⟨q, hnext⟩ := h.exists_read hline
    rw [← read_linesRead progress line] at hrest'
    rw [Progress.after]
    exact ih hnext hrest'

/-- The head of the function that is open is one of the lines read. -/
theorem Follows.firstLine_bounds {lines : List String} {p n : Nat} {f : Unclosed}
    (h : Follows lines p ⟨n, some f⟩) : 0 < f.firstLine ∧ f.firstLine ≤ n := by
  cases h with
  | inside hfirst hread hdepth hopen => exact ⟨hfirst.2.pos, hread⟩

/-- The depth of the function that is open is at most the number of braces in all lines. -/
theorem Follows.abs_depth_le {lines : List String} {p n : Nat} {f : Unclosed}
    (h : Follows lines p ⟨n, some f⟩) : |f.depth| ≤ ((lines.map braceCount).sum : Nat) := by
  cases h with
  | inside hfirst hread hdepth hopen =>
    rw [hdepth]
    exact abs_depthThrough_le_sum lines f.firstLine n

end Progress

end LongFunctions
