/-
The lines that the functions of a file cover.

Each function covers the lines from its head to the line that closes it. No line is covered by two
functions, and none is outside the file: the functions come one behind the other
(`findDefinitions_spans`). This holds whatever braces the lines have, since it comes from the search
alone, which goes on behind the line that closes a function.

A function that is still open covers lines as well, though it is not known how many. Its head is
among the lines that have been read (`Progress.HeadRead`), and so the line that closes it is behind
all of them (`Progress.HeadRead.lt_lastLine`).
-/
import LongFunctions.Proofs.Definition.Search
import LongFunctions.Proofs.FunctionHead.Reading

set_option autoImplicit false

namespace LongFunctions

/-! ## 1. Functions that are closed -/

/-- The functions found from line `p` on have no more lines together than there are from there. -/
theorem Search.sum_length_le {lines : List String} {path : String} {p : Nat} {ds : List Definition}
    (h : Search lines path p ds) (hp : p ≤ lines.length + 1) :
    p + (ds.map (·.length)).sum ≤ lines.length + 1 := by
  induction h with
  | done => simpa using hp
  | @found p name s e rest next _ ih =>
    have hle := next.le
    have hlt := next.lt
    have hend : e ≤ lines.length := next.2.1.2.1.le_length
    have hrest := ih (by omega)
    rw [List.map_cons, List.sum_cons]
    show p + ((e - s + 1) + (rest.map (·.length)).sum) ≤ lines.length + 1
    omega

/-- A function that is found in a file starts on one of its lines and ends on a later one. -/
theorem Progress.ends_of_mem_extents {lines : List String} {extent : Extent}
    (h : extent ∈ ({} : Progress).extents lines) :
    0 < extent.firstLine ∧ extent.firstLine < extent.lastLine ∧
      extent.lastLine ≤ lines.length := by
  have hsearch := search_findDefinitions lines ""
  rw [findDefinitions_eq_map_extents] at hsearch
  obtain ⟨hfirst, hlt, -, hcounts⟩ := hsearch.ends (List.mem_map_of_mem h)
  exact ⟨hfirst, hlt, hcounts.le_length⟩

/-- **The functions of a file cover lines of their own.** Each covers two lines or more, inside the
file, from a head with its name to a line that counts. They come one behind the other, so no two
start on one line and together they have no more lines than the file. -/
theorem findDefinitions_spans (lines : List String) (path : String) :
    (∀ d ∈ findDefinitions lines path,
      1 ≤ d.firstLine ∧ 2 ≤ d.length ∧ d.firstLine + d.length - 1 ≤ lines.length) ∧
    (findDefinitions lines path).Pairwise (fun d d' => d.firstLine + d.length ≤ d'.firstLine) ∧
    (findDefinitions lines path).Pairwise (fun d d' => d.firstLine ≠ d'.firstLine) ∧
    ((findDefinitions lines path).map (·.length)).sum ≤ lines.length ∧
    ∀ d ∈ findDefinitions lines path,
      d.name ≠ "" ∧ (∀ c ∈ d.name.toList, isWord c = true) ∧
        CountsAt lines d.firstLine ∧ CountsAt lines (d.firstLine + d.length - 1) := by
  have hsearch := search_findDefinitions lines path
  refine ⟨?_, ?_, ?_, ?_, ?_⟩
  · intro d hd
    obtain ⟨hfirst, hlt, -, hcounts⟩ := hsearch.ends hd
    have hlast := hcounts.le_length
    unfold Extent.lastLine at hlt hlast
    omega
  · refine hsearch.pairwise_apart.imp ?_
    intro d d' hlt
    unfold Extent.lastLine at hlt
    omega
  · refine hsearch.pairwise_firstLine.2.imp ?_
    intro d d' hlt
    exact Nat.ne_of_lt hlt
  · have hsum := hsearch.sum_length_le (by omega)
    omega
  · intro d hd
    obtain ⟨-, -, hopens, hcounts⟩ := hsearch.ends hd
    obtain ⟨line, -, -, hname⟩ := id hopens
    exact ⟨ne_empty_of_headName? hname, isWord_of_headName? hname, hopens.countsAt, hcounts⟩

/-! ## 2. The function that is open -/

namespace Progress

/-- Whether the head of the function that is open, if there is one, is among the lines read. -/
def HeadRead (progress : Progress) : Prop :=
  ∀ f, progress.current = some f → f.firstLine ≤ progress.linesRead

/-- Before the first line nothing is open. -/
theorem HeadRead.start : ({} : Progress).HeadRead := by
  intro f hf
  cases hf

variable {progress : Progress}

/-- A line that opens a function has been read then, and one that closes a function leaves none
open. -/
theorem HeadRead.read (h : progress.HeadRead) (line : String) :
    (progress.read line).1.HeadRead := by
  obtain ⟨n, current⟩ := progress
  by_cases hcounts : Counts line
  · cases current with
    | none =>
      rw [read_outside hcounts]
      intro f hf
      simp only [Option.map_eq_some_iff] at hf
      obtain ⟨name, -, hname⟩ := hf
      rw [← hname]
    | some f =>
      have hf : f.firstLine ≤ n := h f rfl
      rw [read_inside hcounts]
      split_ifs
      · intro g hg
        cases hg
      · intro g hg
        cases hg
        exact Nat.le_succ_of_le hf
  · rw [read_of_not_counts hcounts]
    intro f hf
    exact Nat.le_succ_of_le (h f hf)

theorem HeadRead.after (h : progress.HeadRead) (lines : List String) :
    (progress.after lines).HeadRead := by
  induction lines generalizing progress with
  | nil => exact h
  | cons line rest ih =>
    rw [Progress.after]
    exact ih (h.read line)

/-- A line closes a function that is open, and is the last line of that function. -/
theorem HeadRead.lastLine_eq (h : progress.HeadRead) {line : String} {extent : Extent}
    (hclosed : (progress.read line).2 = some extent) :
    extent.lastLine = progress.linesRead + 1 := by
  obtain ⟨n, current⟩ := progress
  by_cases hcounts : Counts line
  · cases current with
    | none =>
      rw [read_outside hcounts] at hclosed
      cases hclosed
    | some f =>
      have hf : f.firstLine ≤ n := h f rfl
      rw [read_inside hcounts] at hclosed
      split_ifs at hclosed
      cases hclosed
      show f.firstLine + (n + 1 - f.firstLine + 1) - 1 = n + 1
      omega
  · rw [read_of_not_counts hcounts] at hclosed
    cases hclosed

/-- **What is closed later ends later.** A function that is closed by one of the lines that are left
ends behind the lines read. -/
theorem HeadRead.lt_lastLine (h : progress.HeadRead) {lines : List String} {extent : Extent}
    (hmem : extent ∈ progress.extents lines) : progress.linesRead < extent.lastLine := by
  induction lines generalizing progress with
  | nil => cases hmem
  | cons line rest ih =>
    rw [extents, List.mem_append, Option.mem_toList] at hmem
    rcases hmem with hclosed | hlater
    · rw [h.lastLine_eq hclosed]
      omega
    · have hlt := ih (h.read line) hlater
      rw [read_linesRead] at hlt
      omega

end Progress

end LongFunctions
