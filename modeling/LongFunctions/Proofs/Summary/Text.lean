/-
The plain text of a summary, read back.

The text of a summary quotes nothing. The path of a function stands between ` (` and a colon, and
may hold either of them itself, as well as brackets, digits or the word `lines`. Still two summaries
with one text list the same functions (`toText_unambiguous`).

A line of the list is read from both ends. From the left it starts with the rank, which is known,
and the name, which ends at the first space because names consist of word characters. From the right
it ends with the length, which begins behind the last space because it consists of digits, and in
front of that with the line of the head, which begins behind the last colon. The path is what is
left between them, whatever it holds (`entryLine_inj`).

The lines end at their line feeds, for nothing in them is a line feed, and the list ends where the
next character is no digit: at the end of the text, or at the empty line in front of the number of
functions that are too long (`entries_inj`).
-/
import LongFunctions.Proofs.FunctionHead.Reading
import LongFunctions.Summary

set_option autoImplicit false

namespace LongFunctions

/-! ## 1. Names in a line -/

/-- Whether a function can be told from its line: its name was taken from a function head, and its
path has no line feed. -/
def Definition.Printable (d : Definition) : Prop :=
  (∃ line, headName? line = some d.name) ∧ '\n' ∉ d.path.toList

namespace Definition.Printable

variable {d : Definition}

theorem not_mem_name (h : d.Printable) {c : Char} (hc : isWord c = false) : c ∉ d.name.toList := by
  obtain ⟨⟨line, hline⟩, -⟩ := h
  exact not_mem_of_forall hc (isWord_of_headName? hline)

end Definition.Printable

/-! ## 2. The line of a function -/

namespace Summary

/-- The characters of the line of a function with its rank, without the line feed. -/
def entryLine (d : Definition) (rank : Nat) : List Char :=
  rank.repr.toList ++ ". ".toList ++ (d.name.toList ++ ' ' :: '(' ::
    (((d.path.toList ++ ':' :: d.firstLine.repr.toList) ++ ") -".toList ++
      ' ' :: d.length.repr.toList) ++ " lines".toList))

theorem toList_entryText (d : Definition) (rank : Nat) :
    (entryText (d, rank)).toList = entryLine d rank ++ ['\n'] := by
  simp [entryText, entryLine]

/-- **A line tells its function.** Lines with one rank are equal only for one function, if no name
has a space in it. -/
theorem entryLine_inj {d d' : Definition} {rank : Nat} (hname : ' ' ∉ d.name.toList)
    (hname' : ' ' ∉ d'.name.toList) (h : entryLine d rank = entryLine d' rank) : d = d' := by
  -- from the left, up to the bracket in front of the path
  obtain ⟨hnames, hbracket⟩ := append_cons_inj_left hname hname' (List.append_cancel_left h)
  -- and then from the right
  have hplaces := List.append_cancel_right (List.tail_eq_of_cons_eq hbracket)
  obtain ⟨hheads, hlengths⟩ :=
    append_cons_inj_right (not_mem_repr rfl _) (not_mem_repr rfl _) hplaces
  obtain ⟨hpaths, hlines⟩ := append_cons_inj_right (not_mem_repr rfl _) (not_mem_repr rfl _)
    (List.append_cancel_right hheads)
  obtain ⟨⟨name, firstLine, length⟩, path⟩ := d
  obtain ⟨⟨name', firstLine', length'⟩, path'⟩ := d'
  rw [String.toList_inj] at hnames hpaths
  rw [Definition.mk.injEq, Extent.mk.injEq]
  exact ⟨⟨hnames, eq_of_toList_repr_eq hlines, eq_of_toList_repr_eq hlengths⟩, hpaths⟩

/-- Nothing in a line is a line feed. -/
theorem lf_not_mem_entryLine {d : Definition} (h : d.Printable) (rank : Nat) :
    '\n' ∉ entryLine d rank := by
  have hdigits : ∀ n : Nat, '\n' ∉ n.repr.toList := not_mem_repr rfl
  have hname : '\n' ∉ d.name.toList := h.not_mem_name (by decide +kernel)
  simp only [entryLine, List.mem_append, List.mem_cons, hdigits, hname, h.2, or_false, false_or]
  decide

/-- A line starts with a digit. -/
theorem not_halts_entryText (d : Definition) (rank : Nat) (rest : List Char) :
    ¬ Halts Char.isDigit ((entryText (d, rank)).toList ++ rest) := by
  have hne : rank.repr.toList ≠ [] := by simp
  obtain ⟨c, cs, hcs⟩ := List.exists_cons_of_ne_nil hne
  have hdigit : c.isDigit = true := isDigit_of_mem_repr c (hcs ▸ List.mem_cons_self)
  intro hhalts
  have hc := hhalts c (by rw [toList_entryText, entryLine, hcs]; rfl)
  rw [hdigit] at hc
  cases hc

/-! ## 3. The list of functions -/

/-- **The lines tell their functions,** and what comes behind them, as long as that does not start
with a digit. -/
theorem entries_inj {ds ds' : List Definition} {rank : Nat} {rest rest' : List Char}
    (hds : ∀ d ∈ ds, d.Printable) (hds' : ∀ d ∈ ds', d.Printable)
    (hrest : Halts Char.isDigit rest) (hrest' : Halts Char.isDigit rest')
    (h : (ds.zipIdx rank).flatMap (fun entry => (entryText entry).toList) ++ rest =
      (ds'.zipIdx rank).flatMap (fun entry => (entryText entry).toList) ++ rest') :
    ds = ds' ∧ rest = rest' := by
  induction ds generalizing ds' rank with
  | nil =>
    cases ds' with
    | nil => exact ⟨rfl, h⟩
    | cons d' ds' =>
      rw [List.zipIdx_cons, List.flatMap_cons, List.append_assoc] at h
      rw [List.zipIdx_nil, List.flatMap_nil, List.nil_append] at h
      rw [h] at hrest
      exact absurd hrest (not_halts_entryText d' rank _)
  | cons d ds ih =>
    rw [List.zipIdx_cons, List.flatMap_cons, List.append_assoc] at h
    cases ds' with
    | nil =>
      rw [List.zipIdx_nil, List.flatMap_nil, List.nil_append] at h
      rw [← h] at hrest'
      exact absurd hrest' (not_halts_entryText d rank _)
    | cons d' ds' =>
      rw [List.forall_mem_cons] at hds hds'
      rw [List.zipIdx_cons, List.flatMap_cons, List.append_assoc, toList_entryText,
        toList_entryText, List.append_assoc, List.append_assoc] at h
      -- the first lines end at the first line feeds
      obtain ⟨hline, hlater⟩ := append_cons_inj_left (lf_not_mem_entryLine hds.1 rank)
        (lf_not_mem_entryLine hds'.1 rank) h
      have hspace : isWord ' ' = false := by decide +kernel
      have hfirst :=
        entryLine_inj (hds.1.not_mem_name hspace) (hds'.1.not_mem_name hspace) hline
      obtain ⟨hothers, hbehind⟩ := ih hds.2 hds'.2 hlater
      exact ⟨by rw [hfirst, hothers], hbehind⟩

/-! ## 4. The text around the list -/

/-- What follows the list does not start with a digit. -/
theorem halts_longText (summary : Summary) : Halts Char.isDigit summary.longText.toList := by
  unfold longText
  split_ifs
  · exact Halts.nil
  · simp only [String.toList_append, List.append_assoc]
    exact Halts.cons rfl

/-- What is said of the functions that are too long tells whether there are any and, if so, how many
and how long they are at least. -/
theorem longText_inj {summary summary' : Summary} (h : summary.longText = summary'.longText) :
    (summary.tooLong = 0 ↔ summary'.tooLong = 0) ∧
      (summary.tooLong ≠ 0 →
        summary.tooLong = summary'.tooLong ∧ summary.threshold = summary'.threshold) := by
  have htext : ∀ s : Summary, s.tooLong ≠ 0 → s.longText.toList =
      "\nFound ".toList ++ (s.tooLong.repr.toList ++ ' ' ::
        ("functions exceeding ".toList ++ (s.threshold.repr.toList ++ " lines\n".toList))) := by
    intro s hs
    simp [longText, hs]
  have hnone : ∀ s : Summary, s.tooLong = 0 → s.longText.toList = [] := by
    intro s hs
    simp [longText, hs]
  have hlist := congrArg String.toList h
  by_cases hzero : summary.tooLong = 0 <;> by_cases hzero' : summary'.tooLong = 0
  · exact ⟨iff_of_true hzero hzero', fun hne => absurd hzero hne⟩
  · rw [hnone _ hzero, htext _ hzero'] at hlist
    cases hlist
  · rw [htext _ hzero, hnone _ hzero'] at hlist
    cases hlist
  · rw [htext _ hzero, htext _ hzero'] at hlist
    obtain ⟨hcount, hbehind⟩ := append_cons_inj_left (not_mem_repr rfl _) (not_mem_repr rfl _)
      (List.append_cancel_left hlist)
    have hthreshold := List.append_cancel_right (List.append_cancel_left hbehind)
    exact ⟨iff_of_false hzero hzero', fun _ =>
      ⟨eq_of_toList_repr_eq hcount, eq_of_toList_repr_eq hthreshold⟩⟩

/-- The text of a summary: the heading, the list, and what is said of the functions that are too
long. -/
theorem toList_toText (summary : Summary) :
    summary.toText.toList = "Top ".toList ++ (summary.limit.repr.toList ++ ' ' ::
      ("longest functions:\n".toList ++
        ((summary.longest.zipIdx 1).flatMap (fun entry => (entryText entry).toList) ++
          summary.longText.toList))) := by
  simp [toText, listed, String.toList_join, List.flatMap_map]

/-! ## 5. The text -/

/-- **The text of a summary is unambiguous.** Take two summaries of functions whose names come from
function heads and whose paths have no line feed. If they have the same text, they list the same
functions in the same order, up to the same limit; either both of them tell of functions that are
too long or neither does, and if they do, of the same number and the same threshold. -/
theorem toText_unambiguous (summary summary' : Summary)
    (hlisted : ∀ d ∈ summary.longest, d.Printable)
    (hlisted' : ∀ d ∈ summary'.longest, d.Printable)
    (h : summary.toText = summary'.toText) :
    summary.limit = summary'.limit ∧ summary.longest = summary'.longest ∧
      (summary.tooLong = 0 ↔ summary'.tooLong = 0) ∧
      (summary.tooLong ≠ 0 →
        summary.tooLong = summary'.tooLong ∧ summary.threshold = summary'.threshold) := by
  have hlist := congrArg String.toList h
  rw [toList_toText, toList_toText] at hlist
  obtain ⟨hlimit, hbehind⟩ := append_cons_inj_left (not_mem_repr rfl _) (not_mem_repr rfl _)
    (List.append_cancel_left hlist)
  obtain ⟨hlongest, hlong⟩ := entries_inj hlisted hlisted' summary.halts_longText
    summary'.halts_longText (List.append_cancel_left hbehind)
  exact ⟨eq_of_toList_repr_eq hlimit, hlongest, longText_inj (String.toList_inj.mp hlong)⟩

/-- A function with a path that looks like the end of a line. -/
def bracketed : Definition :=
  { name := "f", firstLine := 1, length := 2, path := "a (f.c:3) - 4 lines" }

/-- Two summaries of the bracketed function, with one text. They differ in what the text does not
show: the number of all functions, and the threshold when no function is too long. -/
theorem toText_unambiguous_bracketed :
    (∀ d ∈ [bracketed], d.Printable) ∧
      (Summary.mk [bracketed] 5 150 1 0 .passed).toText =
        (Summary.mk [bracketed] 5 7 8 0 .passed).toText ∧
      (Summary.mk [bracketed] 5 150 1 0 .passed).longest =
        (Summary.mk [bracketed] 5 7 8 0 .passed).longest := by
  have hlisted : ∀ d ∈ [bracketed], d.Printable :=
    List.forall_mem_singleton.mpr ⟨⟨"int f() \x7b", by decide +kernel⟩, by decide⟩
  have htext : (Summary.mk [bracketed] 5 150 1 0 .passed).toText =
      (Summary.mk [bracketed] 5 7 8 0 .passed).toText := by decide +kernel
  exact ⟨hlisted, htext, (toText_unambiguous _ _ hlisted hlisted htext).2.1⟩

end Summary

end LongFunctions
