/-
Lines that are joined by breaks, and found again.

A text is put together from lines and breaks, and read back line by line. A line without characters
of a break is read up to its break, whatever follows (`linesOf_append_break`); only a carriage
return needs care, for in front of a line feed it would be half of a break. Lines that are all
broken in one way never meet that case, because then no line feed follows a lone carriage return. So
they are found again as they are (`linesOf_intercalate`).

A break behind the last line starts one more line, which is empty, and nothing else distinguishes a
text that ends in a break from one that does not (`exists_linesOf_fileText_eq`).
-/
import Mathlib.Data.List.Basic
import LongFunctions.Text

set_option autoImplicit false

namespace LongFunctions

/-! ## 1. Breaks -/

/-- The ways to break a line. -/
inductive LineBreak where
  | lf
  | crlf
  | cr
deriving DecidableEq, Repr

/-- The characters of a break. -/
def LineBreak.text : LineBreak → String
  | .lf => "\n"
  | .crlf => "\r\n"
  | .cr => "\r"

/-- Whether a text is a single line: it has no character that breaks lines. -/
def IsLine (text : String) : Prop :=
  '\r' ∉ text.toList ∧ '\n' ∉ text.toList

instance (text : String) : Decidable (IsLine text) :=
  inferInstanceAs (Decidable (_ ∧ _))

theorem IsLine.append {text text' : String} (h : IsLine text) (h' : IsLine text') :
    IsLine (text ++ text') := by
  unfold IsLine at *
  simp only [String.toList_append, List.mem_append]
  exact ⟨not_or.mpr ⟨h.1, h'.1⟩, not_or.mpr ⟨h.2, h'.2⟩⟩

/-! ## 2. Reading one line -/

/-- Lines that are done already come first, and change nothing else. -/
theorem collectLines_append (before : List String) (line : List Char) (done : List String)
    (text : List Char) :
    collectLines line (done ++ before) text = before.reverse ++ collectLines line done text := by
  fun_induction collectLines line done text with
  | case1 line done => simp [collectLines]
  | case2 line done rest ih =>
    rw [collectLines, ← ih]
    rfl
  | case3 line done c rest hpair hbreak ih =>
    rw [collectLines, if_pos hbreak, ← ih]
    · rfl
    · exact hpair
  | case4 line done c rest hpair hplain ih =>
    rw [collectLines, if_neg hplain, ih]
    exact hpair

/-- Characters that are no break are added to the line. -/
theorem collectLines_run {run : List Char} (h : ∀ c ∈ run, ¬ (c = '\n' ∨ c = '\r'))
    (line : List Char) (done : List String) (rest : List Char) :
    collectLines line done (run ++ rest) = collectLines (run.reverse ++ line) done rest := by
  induction run generalizing line with
  | nil => rfl
  | cons c run ih =>
    rw [List.forall_mem_cons] at h
    rw [List.cons_append, collectLines, if_neg h.1, ih h.2, List.reverse_cons, List.append_assoc,
      List.singleton_append]
    rintro _ rfl -
    exact h.1 (Or.inr rfl)

/-- A break ends the line, unless it is only the first half of one. -/
theorem collectLines_break (b : LineBreak) (line : List Char) (done : List String)
    {rest : List Char} (h : b = .cr → rest.head? ≠ some '\n') :
    collectLines line done (b.text.toList ++ rest) =
      collectLines [] (String.ofList line.reverse :: done) rest := by
  cases b with
  | lf =>
    show collectLines line done ('\n' :: rest) = _
    simp [collectLines]
  | crlf =>
    show collectLines line done ('\r' :: '\n' :: rest) = _
    rw [collectLines]
  | cr =>
    show collectLines line done ('\r' :: rest) = _
    rw [collectLines, if_pos (Or.inr rfl)]
    rintro rest' - rfl
    exact h rfl rfl

theorem IsLine.not_break {line : String} (h : IsLine line) :
    ∀ c ∈ line.toList, ¬ (c = '\n' ∨ c = '\r') := by
  rintro c hc (rfl | rfl)
  · exact h.2 hc
  · exact h.1 hc

/-- A text without a break is one line. -/
theorem linesOf_of_isLine {line : String} (h : IsLine line) : linesOf line = [line] := by
  have hrun := collectLines_run h.not_break [] [] []
  rw [List.append_nil] at hrun
  simp [linesOf, hrun, collectLines]

/-- **One line.** A line in front of a break is read as it is, and then the lines behind the break.
A lone carriage return is a break when no line feed follows it. -/
theorem linesOf_append_break {line rest : String} {b : LineBreak} (hline : IsLine line)
    (hrest : b = .cr → rest.toList.head? ≠ some '\n') :
    linesOf (line ++ b.text ++ rest) = line :: linesOf rest := by
  have hbefore := collectLines_append [line] [] [] rest.toList
  simp only [List.nil_append, List.reverse_singleton, List.singleton_append] at hbefore
  rw [linesOf, linesOf, String.toList_append, String.toList_append, List.append_assoc,
    collectLines_run hline.not_break, collectLines_break b _ _ hrest, ← hbefore]
  simp

/-! ## 3. All lines -/

/-- In lines that are broken by carriage returns there is no line feed. -/
theorem lf_not_mem_intercalate_cr {lines : List String} (h : ∀ line ∈ lines, IsLine line) :
    '\n' ∉ (String.intercalate LineBreak.cr.text lines).toList := by
  induction lines with
  | nil => simp
  | cons line lines ih =>
    rw [List.forall_mem_cons] at h
    cases lines with
    | nil => simpa using h.1.2
    | cons next lines =>
      rw [String.intercalate_cons_cons]
      simp only [String.toList_append, List.mem_append, not_or]
      exact ⟨⟨h.1.2, by decide⟩, ih h.2⟩

/-- **Lines that are joined by breaks of one kind** are found again. -/
theorem linesOf_intercalate (b : LineBreak) {lines : List String} (hne : lines ≠ [])
    (h : ∀ line ∈ lines, IsLine line) : linesOf (String.intercalate b.text lines) = lines := by
  induction lines with
  | nil => exact absurd rfl hne
  | cons line lines ih =>
    rw [List.forall_mem_cons] at h
    cases lines with
    | nil => simpa using linesOf_of_isLine h.1
    | cons next lines =>
      rw [String.intercalate_cons_cons, linesOf_append_break h.1, ih (List.cons_ne_nil _ _) h.2]
      rintro rfl hhead
      exact lf_not_mem_intercalate_cr h.2 (List.mem_of_mem_head? hhead)

/-- The text of a file with these lines, each but the last in front of a break, and the last one too
when the file is to end in a break. -/
def fileText (b : LineBreak) (ended : Bool) (lines : List String) : String :=
  String.intercalate b.text lines ++ if ended then b.text else ""

/-- **The lines of a file** are the lines that it was made of, and then perhaps empty ones. -/
theorem exists_linesOf_fileText_eq (b : LineBreak) (ended : Bool) {lines : List String}
    (h : ∀ line ∈ lines, IsLine line) :
    ∃ added, (∀ line ∈ added, line = "") ∧ linesOf (fileText b ended lines) = lines ++ added := by
  have hempty : ∀ line ∈ [""], IsLine line := by decide
  by_cases hne : lines = []
  · -- without lines there is the empty text, or a lone break between two empty lines
    subst hne
    cases ended with
    | false => exact ⟨[""], by simp, by simpa [fileText] using linesOf_of_isLine (hempty _ (by simp))⟩
    | true =>
      have htext : fileText b true [] = String.intercalate b.text ["", ""] := by
        simp [fileText, String.intercalate_cons_cons]
      refine ⟨["", ""], by simp, ?_⟩
      rw [htext, linesOf_intercalate b (List.cons_ne_nil _ _) (by decide), List.nil_append]
  cases ended with
  | false => exact ⟨[], List.forall_mem_nil _, by simp [fileText, linesOf_intercalate b hne h]⟩
  | true =>
    -- the last break stands in front of one more line
    have htext : fileText b true lines = String.intercalate b.text (lines ++ [""]) := by
      rw [String.intercalate_append_of_ne_nil hne (List.cons_ne_nil _ _)]
      simp [fileText]
    refine ⟨[""], by simp, ?_⟩
    rw [htext, linesOf_intercalate b (by simp) (List.forall_mem_append.mpr ⟨h, hempty⟩)]

end LongFunctions
