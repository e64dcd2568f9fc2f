/-
A text as lines and breaks, in the one way that there is.

Lines with breaks between them make a text, and different lines and breaks can make the same one: a
carriage return in front of a line feed is one break, or two with an empty line between them.
Nothing else makes the way back doubtful. `BrokenLines` rules the second reading out. Then each text
is made in one way, and `linesOf` finds the lines that it was made of (`linesOf_brokenLines`).

The work is done at the front of a text, once for each direction. A text that is not a single line
starts with a line and a break (`exists_append_break`), and no other break could stand there
(`LineBreak.unique`). Both are said under one condition, that no line feed follows a lone carriage
return. A text made of `BrokenLines` meets it at each of its breaks, because it starts with a line
feed only when its first line is empty and its first break is a lone line feed
(`ProperlyBroken.head?_eq_lf_iff`).
-/
import Mathlib.Data.List.Chain
import LongFunctions.Proofs.Text.Lines

set_option autoImplicit false

namespace LongFunctions

/-! ## 1. Lines with their breaks -/

/-- The text of lines that each stand in front of a break, and of a last line. -/
def brokenText (last : String) : List (String × LineBreak) → String
  | [] => last
  | (line, b) :: rest => line ++ b.text ++ brokenText last rest

/-- Whether the breaks behind two neighbouring lines are two breaks: not a lone carriage return and
a lone line feed with an empty line between them. -/
def BreaksApart (p q : String × LineBreak) : Prop :=
  ¬ (p.2 = .cr ∧ q.1 = "" ∧ q.2 = .lf)

/-- Whether these are single lines, each but the last with its break, and all breaks are breaks of
their own. -/
structure ProperlyBroken (last : String) (broken : List (String × LineBreak)) : Prop where
  isLine : ∀ line ∈ broken.map Prod.fst ++ [last], IsLine line
  apart : broken.IsChain BreaksApart

/-- Lines with the breaks between them. -/
structure BrokenLines where
  /-- The lines in front of a break, each with its break. -/
  broken : List (String × LineBreak)
  /-- The line behind the last break. -/
  last : String
  proper : ProperlyBroken last broken

namespace BrokenLines

/-- All the lines, in order. There is at least one. -/
def lines (t : BrokenLines) : List String :=
  t.broken.map Prod.fst ++ [t.last]

/-- The text of the lines and breaks. -/
def text (t : BrokenLines) : String :=
  brokenText t.last t.broken

end BrokenLines

/-! ## 2. The front of a text -/

/-- A text that is not a single line starts with a line and a break. -/
theorem exists_append_break {content : String} (h : ¬ IsLine content) :
    ∃ (line : String) (b : LineBreak) (rest : String), IsLine line ∧
      (b = .cr → rest.toList.head? ≠ some '\n') ∧ content = line ++ b.text ++ rest := by
  cases hfind : content.toList.find? fun c => c = '\n' ∨ c = '\r' with
  | none =>
    rw [List.find?_eq_none] at hfind
    refine absurd ⟨?_, ?_⟩ h
    · exact fun hcr => hfind _ hcr (by decide)
    · exact fun hlf => hfind _ hlf (by decide)
  | some c =>
    -- the first character of a break, with the line in front of it
    obtain ⟨hc, run, behind, hsplit, hrun⟩ := List.find?_eq_some_iff_append.mp hfind
    have hline : IsLine (String.ofList run) := by
      unfold IsLine
      rw [String.toList_ofList]
      refine ⟨?_, ?_⟩
      · exact fun hcr => absurd (hrun _ hcr) (by decide)
      · exact fun hlf => absurd (hrun _ hlf) (by decide)
    have hcontent : ∀ (b : LineBreak) (rest : List Char), c :: behind = b.text.toList ++ rest →
        content = String.ofList run ++ b.text ++ String.ofList rest := by
      intro b rest hbehind
      rw [← String.toList_inj, hsplit, hbehind]
      simp
    rw [decide_eq_true_eq] at hc
    rcases hc with rfl | rfl
    · exact ⟨_, .lf, String.ofList behind, hline, nofun, hcontent .lf behind rfl⟩
    · by_cases hlf : behind.head? = some '\n'
      · obtain ⟨rest, rfl⟩ := List.head?_eq_some_iff.mp hlf
        exact ⟨_, .crlf, String.ofList rest, hline, nofun, hcontent .crlf rest rfl⟩
      · refine ⟨_, .cr, String.ofList behind, hline, fun _ => ?_, hcontent .cr behind rfl⟩
        rwa [String.toList_ofList]

/-- A text starts with one break only, if no line feed follows a lone carriage return. -/
theorem LineBreak.unique {b b' : LineBreak} {rest rest' : List Char}
    (h : b = .cr → rest.head? ≠ some '\n') (h' : b' = .cr → rest'.head? ≠ some '\n')
    (heq : b.text.toList ++ rest = b'.text.toList ++ rest') : b = b' ∧ rest = rest' := by
  have hlf : LineBreak.lf.text.toList = ['\n'] := rfl
  have hcrlf : LineBreak.crlf.text.toList = ['\r', '\n'] := rfl
  have hcr : LineBreak.cr.text.toList = ['\r'] := rfl
  cases b <;> cases b' <;> simp [hlf, hcrlf, hcr] at heq ⊢
  case crlf.cr => exact h' rfl (by rw [← heq]; rfl)
  case cr.crlf => exact h rfl (by rw [heq]; rfl)
  all_goals exact heq

/-! ## 3. The lines of a text -/

namespace ProperlyBroken

variable {last line : String} {b : LineBreak} {rest : List (String × LineBreak)}

theorem first (h : ProperlyBroken last ((line, b) :: rest)) : IsLine line :=
  h.isLine line List.mem_cons_self

theorem behind (h : ProperlyBroken last ((line, b) :: rest)) : ProperlyBroken last rest :=
  ⟨(List.forall_mem_cons.mp h.isLine).2, List.isChain_of_isChain_cons h.apart⟩

/-- A text of lines and breaks starts with a line feed when its first line is empty and its first
break is a lone line feed, and only then. -/
theorem head?_eq_lf_iff {broken : List (String × LineBreak)} (h : ProperlyBroken last broken) :
    (brokenText last broken).toList.head? = some '\n' ↔ ∃ rest, broken = ("", .lf) :: rest := by
  have hhead : ∀ line : String, IsLine line → line.toList.head? ≠ some '\n' :=
    fun line hline hlf => hline.2 (List.mem_of_mem_head? hlf)
  cases broken with
  | nil =>
    rw [brokenText]
    refine iff_of_false (hhead last (h.isLine last (by simp))) ?_
    rintro ⟨rest, hrest⟩
    cases hrest
  | cons p rest =>
    obtain ⟨line, b⟩ := p
    rw [brokenText, String.toList_append, String.toList_append, List.append_assoc]
    by_cases hempty : line = ""
    · -- the text starts with its first break
      subst hempty
      have hbreak : (b.text.toList ++ (brokenText last rest).toList).head? = some '\n' ↔
          b = .lf := by
        cases b <;> simp [LineBreak.text]
      rw [String.toList_empty, List.nil_append, hbreak]
      simp
    · have hne : line.toList ≠ [] := by simpa using hempty
      rw [List.head?_append_of_ne_nil _ hne]
      refine iff_of_false (hhead line h.first) ?_
      rintro ⟨rest', hrest⟩
      exact hempty (Prod.ext_iff.mp (List.cons.inj hrest).1).1

/-- No line feed follows a lone carriage return that breaks a line. -/
theorem head?_ne_lf (h : ProperlyBroken last ((line, b) :: rest)) (hcr : b = .cr) :
    (brokenText last rest).toList.head? ≠ some '\n' := by
  rw [ne_eq, h.behind.head?_eq_lf_iff]
  rintro ⟨later, rfl⟩
  exact (List.isChain_cons_cons.mp h.apart).1 ⟨hcr, rfl, rfl⟩

/-- The lines of a text are those that it is made of. -/
theorem linesOf_eq {broken : List (String × LineBreak)} (h : ProperlyBroken last broken) :
    linesOf (brokenText last broken) = broken.map Prod.fst ++ [last] := by
  induction broken with
  | nil => exact linesOf_of_isLine (h.isLine last (by simp))
  | cons p rest ih =>
    obtain ⟨line, b⟩ := p
    rw [brokenText, linesOf_append_break h.first h.head?_ne_lf, ih h.behind, List.map_cons,
      List.cons_append]

/-- A text is made of lines and breaks in one way only. The induction is on the first of two ways;
the other one has the same lines, so it has a break where the first one has. -/
theorem unique {broken broken' : List (String × LineBreak)} {last' : String}
    (h : ProperlyBroken last broken) (h' : ProperlyBroken last' broken')
    (heq : brokenText last broken = brokenText last' broken') :
    broken = broken' ∧ last = last' := by
  have hlines : broken.map Prod.fst ++ [last] = broken'.map Prod.fst ++ [last'] := by
    rw [← h.linesOf_eq, heq, h'.linesOf_eq]
  obtain ⟨hfronts, hlast⟩ := List.append_inj' hlines rfl
  refine ⟨?_, List.singleton_inj.mp hlast⟩
  clear hlines
  induction broken generalizing broken' with
  | nil =>
    rw [List.map_nil] at hfronts
    exact (List.map_eq_nil_iff.mp hfronts.symm).symm
  | cons p rest ih =>
    obtain ⟨line, b⟩ := p
    cases broken' with
    | nil => cases hfronts
    | cons p' rest' =>
      obtain ⟨line', b'⟩ := p'
      obtain ⟨rfl, hrests⟩ := List.cons.inj hfronts
      -- the lines are the same, so the breaks behind them can be compared
      have hbehind : b.text.toList ++ (brokenText last rest).toList =
          b'.text.toList ++ (brokenText last' rest').toList := by
        simpa [brokenText] using congrArg String.toList heq
      obtain ⟨rfl, htexts⟩ := LineBreak.unique h.head?_ne_lf h'.head?_ne_lf hbehind
      rw [ih h.behind h'.behind (String.toList_inj.mp htexts) hrests]

end ProperlyBroken

namespace BrokenLines

theorem linesOf_text (t : BrokenLines) : linesOf t.text = t.lines :=
  t.proper.linesOf_eq

theorem text_injective : Function.Injective text := by
  rintro ⟨broken, last, proper⟩ ⟨broken', last', proper'⟩ h
  obtain ⟨rfl, rfl⟩ := proper.unique proper' h
  rfl

/-- Each text is made of lines and breaks. The induction is on its length; a first line and a first
break are taken off. -/
theorem exists_text_eq (content : String) : ∃ t : BrokenLines, t.text = content := by
  induction hlength : content.length using Nat.strongRecOn generalizing content with
  | ind n ih =>
    by_cases hline : IsLine content
    · exact ⟨⟨[], content, by simpa using hline, List.isChain_nil⟩, rfl⟩
    · obtain ⟨line, b, rest, hfirst, hcr, rfl⟩ := exists_append_break hline
      have hshort : rest.length < n := by
        have hbreak : 0 < b.text.length := by cases b <;> decide
        rw [← hlength, String.length_append, String.length_append]
        omega
      obtain ⟨t, rfl⟩ := ih rest.length hshort rest rfl
      refine ⟨⟨(line, b) :: t.broken, t.last, ?_, ?_⟩, rfl⟩
      · rw [List.map_cons, List.cons_append, List.forall_mem_cons]
        exact ⟨hfirst, t.proper.isLine⟩
      · -- the next break is no line feed of its own directly behind a carriage return
        refine t.proper.apart.cons ?_
        rintro ⟨line', b'⟩ hhead ⟨hb, rfl, rfl⟩
        obtain ⟨later, hlater⟩ := List.head?_eq_some_iff.mp hhead
        exact hcr hb (t.proper.head?_eq_lf_iff.mpr ⟨later, hlater⟩)

end BrokenLines

/-- **The lines of a text.** None of them holds a character that breaks lines, and breaks between
them give the text. The other way, whatever lines and breaks a text is made of, these are its lines,
so that no text is made of lines and breaks in two ways. -/
theorem linesOf_brokenLines :
    (∀ content : String,
      (∀ line ∈ linesOf content, '\r' ∉ line.toList ∧ '\n' ∉ line.toList) ∧
      ∃ t : BrokenLines, t.text = content ∧ t.lines = linesOf content) ∧
    (∀ t : BrokenLines, linesOf t.text = t.lines) ∧
    Function.Injective BrokenLines.text := by
  refine ⟨?_, BrokenLines.linesOf_text, BrokenLines.text_injective⟩
  intro content
  obtain ⟨t, rfl⟩ := BrokenLines.exists_text_eq content
  rw [t.linesOf_text]
  exact ⟨t.proper.isLine, t, rfl, rfl⟩

/-- A lone carriage return in front of both, and a line feed in front of a lone one. -/
example : linesOf "a\r\r\nb\n\rc\n" = ["a", "", "b", "", "c", ""] := by
  decide +kernel

end LongFunctions
