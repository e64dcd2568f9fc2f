/-
The functions of a file, said without a reader: a search for least lines.

A reader that carries a depth from line to line is how the functions of a file are found. What they
are can be said without it. From line `p` on, the next function starts at the least line `s` that
counts and is a function head, and ends at the least later line `e` that counts and at which the
braces of the lines `s` to `e` that count are balanced; then the search goes on behind `e`. When
there is no such `s`, or no such `e`, there are no more functions.

Main statement: the definitions found in a file are the outcome of this search from line 1, and it
has no other (`search_iff_findDefinitions`).

The two are tied together by `Progress.Follows`, which says where a reader stands in terms of the
search: outside a function, no line from `p` to the last one read is a head; inside a function, its
head is the first from `p` on, its depth is the sum of the balances since, and none of the lines
read has closed it. One line keeps that (`Follows.read`), so a whole run does
(`Follows.search_extents`).
-/
import Mathlib.Algebra.BigOperators.Intervals
import Mathlib.Order.Interval.Finset.Nat
import Mathlib.Order.Bounds.Basic
import LongFunctions.Proofs.Definition.Reading

set_option autoImplicit false

namespace LongFunctions

/-! ## 1. Lines by number -/

/-- The line with this number, if there is one. The first line of a file is line 1. -/
def lineAt (lines : List String) : Nat → Option String
  | 0 => none
  | i + 1 => lines[i]?

/-- Whether the line with this number counts. -/
def CountsAt (lines : List String) (j : Nat) : Prop :=
  ∃ line, lineAt lines j = some line ∧ Counts line

/-- Whether the line with this number counts and is the head of a function of this name. -/
def OpensAt (lines : List String) (name : String) (j : Nat) : Prop :=
  ∃ line, lineAt lines j = some line ∧ Counts line ∧ headName? (trim line) = some name

/-- The balance of the braces on the line with this number, the white space around it aside. -/
def balanceAt (lines : List String) (j : Nat) : Int :=
  ((lineAt lines j).map fun line => braceBalance (trim line)).getD 0

instance (lines : List String) : DecidablePred (CountsAt lines) := fun j =>
  match h : lineAt lines j with
  | none => isFalse (by rintro ⟨line, hline, -⟩; simp [h] at hline)
  | some line => decidable_of_iff (Counts line) (by simp [CountsAt, h])

/-- The depth that the lines `s` to `e` add up to: the sum of the balances of those that count. -/
def depthThrough (lines : List String) (s e : Nat) : Int :=
  ∑ j ∈ Finset.Icc s e with CountsAt lines j, balanceAt lines j

/-- Whether line `e` closes a function with its head on line `s`, as far as the depth goes. -/
def ClosesAt (lines : List String) (s e : Nat) : Prop :=
  s < e ∧ CountsAt lines e ∧ depthThrough lines s e = 0

/-! ## 2. The search -/

/-- Line `s` is the first head from line `p` on, and the function is called `name`. -/
def FirstHead (lines : List String) (p : Nat) (name : String) (s : Nat) : Prop :=
  IsLeast {j | p ≤ j ∧ ∃ other, OpensAt lines other j} s ∧ OpensAt lines name s

/-- The next function from line `p` on is called `name` and covers the lines `s` to `e`. -/
def NextFunction (lines : List String) (p : Nat) (name : String) (s e : Nat) : Prop :=
  FirstHead lines p name s ∧ IsLeast {j | ClosesAt lines s j} e

/-- The outcome of the search for functions from line `p` on. -/
inductive Search (lines : List String) (path : String) : Nat → List Definition → Prop
  /-- There is no head any more, or no line that closes the next one. -/
  | done {p : Nat} (h : ∀ name s e, ¬ NextFunction lines p name s e) : Search lines path p []
  /-- The next function is found, and the search goes on behind it. -/
  | found {p : Nat} {name : String} {s e : Nat} {rest : List Definition}
      (next : NextFunction lines p name s e) (later : Search lines path (e + 1) rest) :
      Search lines path p
        ({ name, firstLine := s, length := e - s + 1, path } :: rest)

/-! ## 3. The search has one outcome -/

theorem OpensAt.name_unique {lines : List String} {name name' : String} {j : Nat}
    (h : OpensAt lines name j) (h' : OpensAt lines name' j) : name = name' := by
  obtain ⟨line, hline, -, hname⟩ := h
  obtain ⟨line', hline', -, hname'⟩ := h'
  have hsame : line = line' := Option.some.inj (hline.symm.trans hline')
  rw [hsame, hname'] at hname
  exact (Option.some.inj hname).symm

/-- There is at most one next function. -/
theorem NextFunction.unique {lines : List String} {p s e s' e' : Nat} {name name' : String}
    (h : NextFunction lines p name s e) (h' : NextFunction lines p name' s' e') :
    name = name' ∧ s = s' ∧ e = e' := by
  obtain ⟨⟨hs, hname⟩, he⟩ := h
  obtain ⟨⟨hs', hname'⟩, he'⟩ := h'
  have hss : s = s' := hs.unique hs'
  subst hss
  exact ⟨hname.name_unique hname', rfl, he.unique he'⟩

/-- The search has at most one outcome. The induction is on one of the two searches; the other has
to take the same step, for the next function is the same. -/
theorem Search.unique {lines : List String} {path : String} {p : Nat} {ds ds' : List Definition}
    (h : Search lines path p ds) (h' : Search lines path p ds') : ds = ds' := by
  induction h generalizing ds' with
  | done hnone =>
    cases h' with
    | done => rfl
    | found next => exact absurd next (hnone _ _ _)
  | found next _ ih =>
    cases h' with
    | done hnone => exact absurd next (hnone _ _ _)
    | found next' later' =>
      obtain ⟨rfl, rfl, rfl⟩ := next.unique next'
      rw [ih later']

/-! ## 4. The functions that a search finds -/

/-- Among the functions found one behind the other from line `p` on is one that is called `name` and
covers the lines `s` to `e`. -/
inductive FunctionFrom (lines : List String) : Nat → String → Nat → Nat → Prop
  /-- It is the next function. -/
  | next {p : Nat} {name : String} {s e : Nat} (h : NextFunction lines p name s e) :
      FunctionFrom lines p name s e
  /-- It is found behind the next function. -/
  | later {p : Nat} {other name : String} {s' e' s e : Nat}
      (first : NextFunction lines p other s' e') (h : FunctionFrom lines (e' + 1) name s e) :
      FunctionFrom lines p name s e

section Found

variable {lines : List String} {path name : String} {p s e : Nat} {ds : List Definition}

theorem NextFunction.lt (h : NextFunction lines p name s e) : s < e :=
  h.2.1.1

theorem NextFunction.le (h : NextFunction lines p name s e) : p ≤ s :=
  h.1.1.1.1

/-- A function found from line `p` on is the next one from some line on. -/
theorem FunctionFrom.exists_next (h : FunctionFrom lines p name s e) :
    ∃ q, p ≤ q ∧ NextFunction lines q name s e := by
  induction h with
  | next hnext => exact ⟨_, Nat.le_refl _, hnext⟩
  | later hfirst _ ih =>
    obtain ⟨q, hq, hnext⟩ := ih
    have hle := hfirst.le
    have hlt := hfirst.lt
    exact ⟨q, by omega, hnext⟩

/-- A function has its head before the line that closes it. -/
theorem FunctionFrom.lt (h : FunctionFrom lines p name s e) : s < e := by
  obtain ⟨q, -, hnext⟩ := h.exists_next
  exact hnext.lt

/-- The line that closes a function is told by its head and the number of its lines. -/
theorem FunctionFrom.last_eq (h : FunctionFrom lines p name s e) : s + (e - s + 1) - 1 = e := by
  have hlt := h.lt
  omega

/-- The outcome of a search is made of the functions from its first line on. -/
theorem Search.mem_iff (h : Search lines path p ds) (d : Definition) :
    d ∈ ds ↔ ∃ name s e, FunctionFrom lines p name s e ∧
      d = { name, firstLine := s, length := e - s + 1, path } := by
  induction h with
  | done hnone =>
    constructor
    · intro hd
      cases hd
    · rintro ⟨name, s, e, hfrom, -⟩
      cases hfrom with
      | next hnext => exact absurd hnext (hnone _ _ _)
      | later hfirst => exact absurd hfirst (hnone _ _ _)
  | found next _ ih =>
    rw [List.mem_cons, ih]
    constructor
    · rintro (rfl | ⟨name, s, e, hfrom, rfl⟩)
      · exact ⟨_, _, _, FunctionFrom.next next, rfl⟩
      · exact ⟨name, s, e, FunctionFrom.later next hfrom, rfl⟩
    · rintro ⟨name, s, e, hfrom, rfl⟩
      cases hfrom with
      | next hnext =>
        obtain ⟨rfl, rfl, rfl⟩ := next.unique hnext
        exact Or.inl rfl
      | later hfirst hfrom =>
        obtain ⟨rfl, rfl, rfl⟩ := next.unique hfirst
        exact Or.inr ⟨name, s, e, hfrom, rfl⟩

/-- The line that closes the function. -/
def Extent.lastLine (extent : Extent) : Nat :=
  extent.firstLine + extent.length - 1

/-- What a search finds starts with a head and ends with a line that counts, behind the head. -/
theorem Search.ends {d : Definition} (h : Search lines path p ds) (hd : d ∈ ds) :
    p ≤ d.firstLine ∧ d.firstLine < d.lastLine ∧ OpensAt lines d.name d.firstLine ∧
      CountsAt lines d.lastLine := by
  obtain ⟨name, s, e, hfrom, rfl⟩ := (h.mem_iff d).mp hd
  obtain ⟨q, hpq, hnext⟩ := hfrom.exists_next
  have hlast : Extent.lastLine ⟨name, s, e - s + 1⟩ = e := hfrom.last_eq
  show p ≤ s ∧ s < Extent.lastLine ⟨name, s, e - s + 1⟩ ∧ OpensAt lines name s ∧
    CountsAt lines (Extent.lastLine ⟨name, s, e - s + 1⟩)
  rw [hlast]
  exact ⟨hpq.trans hnext.le, hnext.lt, hnext.1.2, hnext.2.1.2.1⟩

/-- A function that is found later starts behind the line that closes this one. -/
theorem Search.pairwise_apart (h : Search lines path p ds) :
    ds.Pairwise fun d d' => d.lastLine < d'.firstLine := by
  induction h with
  | done => exact List.Pairwise.nil
  | @found p name s e rest next later ih =>
    refine List.Pairwise.cons ?_ ih
    intro d hd
    have hlt := next.lt
    have hbehind := (later.ends hd).1
    show s + (e - s + 1) - 1 < d.firstLine
    omega

/-- The functions that a search finds come in the order of their heads, none of which is before the
line from which they are searched. -/
theorem Search.pairwise_firstLine (h : Search lines path p ds) :
    (∀ d ∈ ds, p ≤ d.firstLine) ∧ ds.Pairwise fun d d' => d.firstLine < d'.firstLine := by
  refine ⟨fun d hd => (h.ends hd).1, h.pairwise_apart.imp_of_mem ?_⟩
  intro d d' hd _ hlt
  exact (h.ends hd).2.1.trans hlt

end Found

/-! ## 5. One line more -/

theorem depthThrough_succ {lines : List String} {s n : Nat} (hs : s ≤ n + 1) :
    depthThrough lines s (n + 1) =
      depthThrough lines s n + if CountsAt lines (n + 1) then balanceAt lines (n + 1) else 0 := by
  rw [depthThrough, depthThrough, Finset.sum_filter, Finset.sum_filter]
  exact Finset.sum_Icc_succ_top hs _

theorem depthThrough_self (lines : List String) (s : Nat) :
    depthThrough lines s s = if CountsAt lines s then balanceAt lines s else 0 := by
  rw [depthThrough, Finset.sum_filter, Finset.Icc_self, Finset.sum_singleton]

theorem balanceAt_of_lineAt {lines : List String} {j : Nat} {line : String}
    (h : lineAt lines j = some line) : balanceAt lines j = braceBalance (trim line) := by
  rw [balanceAt, h]
  rfl

/-- Whether a line counts at its number depends on the line alone. -/
theorem countsAt_iff {lines : List String} {j : Nat} {line : String}
    (h : lineAt lines j = some line) : CountsAt lines j ↔ Counts line := by
  constructor
  · rintro ⟨line', hline', hcounts⟩
    rwa [Option.some.inj (h.symm.trans hline')]
  · intro hcounts
    exact ⟨line, h, hcounts⟩

theorem OpensAt.countsAt {lines : List String} {name : String} {j : Nat}
    (h : OpensAt lines name j) : CountsAt lines j := by
  obtain ⟨line, hline, hcounts, -⟩ := h
  exact ⟨line, hline, hcounts⟩

/-- A line that has a number is a line of the file, and the number is one from 1 on. -/
theorem exists_of_lineAt {lines : List String} {j : Nat} {line : String}
    (h : lineAt lines j = some line) : ∃ i, j = i + 1 ∧ lines[i]? = some line := by
  cases j with
  | zero => cases h
  | succ i => exact ⟨i, rfl, h⟩

theorem le_length_of_lineAt {lines : List String} {j : Nat} {line : String}
    (h : lineAt lines j = some line) : j ≤ lines.length := by
  obtain ⟨i, rfl, hi⟩ := exists_of_lineAt h
  exact (List.getElem?_eq_some_iff.mp hi).1

theorem OpensAt.pos {lines : List String} {name : String} {j : Nat}
    (h : OpensAt lines name j) : 0 < j := by
  obtain ⟨line, hline, -, -⟩ := h
  obtain ⟨i, rfl, -⟩ := exists_of_lineAt hline
  exact Nat.succ_pos i

/-- A line that counts is a line of the file. -/
theorem CountsAt.le_length {lines : List String} {j : Nat} (h : CountsAt lines j) :
    j ≤ lines.length := by
  obtain ⟨line, hline, -⟩ := h
  exact le_length_of_lineAt hline

/-- The first of the lines that are left has the next number. -/
theorem lineAt_of_drop {lines rest : List String} {line : String} {n : Nat}
    (h : lines.drop n = line :: rest) :
    lineAt lines (n + 1) = some line ∧ lines.drop (n + 1) = rest := by
  constructor
  · show lines[n]? = some line
    rw [← List.head?_drop, h]
    rfl
  · rw [← List.tail_drop, h]
    rfl

/-! ## 6. Where a reader stands -/

namespace Progress

/-- Where a reader stands that looks for functions from line `p` on. -/
inductive Follows (lines : List String) (p : Nat) : Progress → Prop
  /-- Outside a function, none of the lines from `p` on that have been read is a head. -/
  | outside {n : Nat} (hp : p ≤ n + 1)
      (hnone : ∀ name j, p ≤ j → j ≤ n → ¬ OpensAt lines name j) :
      Follows lines p ⟨n, none⟩
  /-- Inside a function, its head is the first from `p` on, the depth is what the lines since then
  add up to, and none of them has closed it. -/
  | inside {n : Nat} {f : Unclosed} (hfirst : FirstHead lines p f.name f.firstLine)
      (hread : f.firstLine ≤ n) (hdepth : f.depth = depthThrough lines f.firstLine n)
      (hopen : ∀ j, j ≤ n → ¬ ClosesAt lines f.firstLine j) :
      Follows lines p ⟨n, some f⟩

/-- Before the first line nothing is open. -/
theorem Follows.start (lines : List String) : Follows lines 1 {} := by
  refine Follows.outside (Nat.le_refl 1) ?_
  intro name j hj hj0
  omega

variable {lines : List String} {p n : Nat} {line : String}

/-- A line that does not count leaves the reader where it stands. -/
theorem Follows.skip {current : Option Unclosed} (h : Follows lines p ⟨n, current⟩)
    (hskip : ¬ CountsAt lines (n + 1)) : Follows lines p ⟨n + 1, current⟩ := by
  cases h with
  | outside hp hnone =>
    refine Follows.outside (by omega) ?_
    intro name j hj hjn hopens
    rcases Nat.lt_or_ge n j with hlt | hle
    · have hj1 : j = n + 1 := by omega
      exact hskip (hj1 ▸ hopens.countsAt)
    · exact hnone name j hj hle hopens
  | inside hfirst hread hdepth hopen =>
    refine Follows.inside hfirst (by omega) ?_ ?_
    · -- the line adds nothing to the depth
      rw [depthThrough_succ (by omega), if_neg hskip, add_zero]
      exact hdepth
    · intro j hj hcloses
      rcases Nat.lt_or_ge n j with hlt | hle
      · have hj1 : j = n + 1 := by omega
        exact hskip (hj1 ▸ hcloses.2.1)
      · exact hopen j hle hcloses

/-- Outside a function, a line that is no head leaves the reader outside. -/
theorem Follows.pass (h : Follows lines p ⟨n, none⟩) (hline : lineAt lines (n + 1) = some line)
    (hhead : headName? (trim line) = none) : Follows lines p ⟨n + 1, none⟩ := by
  cases h with
  | outside hp hnone =>
    refine Follows.outside (by omega) ?_
    intro name j hj hjn hopens
    rcases Nat.lt_or_ge n j with hlt | hle
    · have hj1 : j = n + 1 := by omega
      subst hj1
      obtain ⟨line', hline', -, hname⟩ := hopens
      rw [← Option.some.inj (hline.symm.trans hline'), hhead] at hname
      cases hname
    · exact hnone name j hj hle hopens

/-- Outside a function, a head that counts opens the first function from `p` on. -/
theorem Follows.enter {name : String} (h : Follows lines p ⟨n, none⟩)
    (hline : lineAt lines (n + 1) = some line) (hcounts : Counts line)
    (hhead : headName? (trim line) = some name) :
    Follows lines p ⟨n + 1, some ⟨name, n + 1, braceBalance (trim line)⟩⟩ := by
  cases h with
  | outside hp hnone =>
    have hopens : OpensAt lines name (n + 1) := ⟨line, hline, hcounts, hhead⟩
    refine Follows.inside ⟨⟨⟨hp, name, hopens⟩, ?_⟩, hopens⟩ (Nat.le_refl _) ?_ ?_
    · -- a head before this one would have been among the lines already read
      rintro j ⟨hj, other, hother⟩
      by_contra hlt
      exact hnone other j hj (Nat.le_of_lt_succ (Nat.lt_of_not_ge hlt)) hother
    · rw [depthThrough_self, if_pos hopens.countsAt, balanceAt_of_lineAt hline]
    · -- the head itself never closes: a closing line comes after it
      intro j hj hcloses
      have hlt : n + 1 < j := hcloses.1
      omega

/-- The depth of an open function after a line that counts. -/
theorem Follows.depth_succ {f : Unclosed} (h : Follows lines p ⟨n, some f⟩)
    (hline : lineAt lines (n + 1) = some line) (hcounts : Counts line) :
    depthThrough lines f.firstLine (n + 1) = f.depth + braceBalance (trim line) := by
  cases h with
  | inside hfirst hread hdepth hopen =>
    rw [depthThrough_succ (by omega), if_pos ((countsAt_iff hline).mpr hcounts),
      balanceAt_of_lineAt hline, hdepth]

/-- Inside a function, a line at which the depth is not zero leaves the function open. -/
theorem Follows.stay {f : Unclosed} (h : Follows lines p ⟨n, some f⟩)
    (hline : lineAt lines (n + 1) = some line) (hcounts : Counts line)
    (hzero : f.depth + braceBalance (trim line) ≠ 0) :
    Follows lines p ⟨n + 1, some { f with depth := f.depth + braceBalance (trim line) }⟩ := by
  have hdepth' := h.depth_succ hline hcounts
  cases h with
  | inside hfirst hread hdepth hopen =>
    refine Follows.inside hfirst (Nat.le_succ_of_le hread) hdepth'.symm ?_
    intro j hj hcloses
    rcases Nat.lt_or_ge n j with hlt | hle
    · have hj1 : j = n + 1 := by omega
      subst hj1
      exact hzero (hdepth'.symm.trans hcloses.2.2)
    · exact hopen j hle hcloses

/-- Inside a function, a line at which the depth is zero completes the next function. -/
theorem Follows.close {f : Unclosed} (h : Follows lines p ⟨n, some f⟩)
    (hline : lineAt lines (n + 1) = some line) (hcounts : Counts line)
    (hzero : f.depth + braceBalance (trim line) = 0) :
    NextFunction lines p f.name f.firstLine (n + 1) := by
  have hdepth' := h.depth_succ hline hcounts
  cases h with
  | inside hfirst hread hdepth hopen =>
    refine ⟨hfirst, ⟨Nat.lt_succ_of_le hread, (countsAt_iff hline).mpr hcounts,
      hdepth'.trans hzero⟩, ?_⟩
    -- no line before this one has closed the function
    intro j hcloses
    by_contra hlt
    exact hopen j (by omega) hcloses

/-- Behind a function that has been closed the search starts anew. -/
theorem Follows.anew (lines : List String) (n : Nat) : Follows lines (n + 1) ⟨n, none⟩ := by
  refine Follows.outside (Nat.le_refl _) ?_
  intro name j hj hjn
  omega

/-! ## 7. The step and the run -/

/-- **One line.** A reader that has not closed a function still follows the search from `p`; one
that has closed a function has found the next function of that search, and follows the search
behind it. -/
theorem Follows.read {progress : Progress} (h : Follows lines p progress)
    (hline : lineAt lines (progress.linesRead + 1) = some line) :
    ((progress.read line).2 = none ∧ Follows lines p (progress.read line).1) ∨
      ∃ name s, (progress.read line).2 = some ⟨name, s, progress.linesRead + 1 - s + 1⟩ ∧
        NextFunction lines p name s (progress.linesRead + 1) ∧
        Follows lines (progress.linesRead + 2) (progress.read line).1 := by
  obtain ⟨n, current⟩ := progress
  by_cases hcounts : Counts line
  · cases current with
    | none =>
      left
      rw [read_outside hcounts]
      refine ⟨rfl, ?_⟩
      cases hhead : headName? (trim line) with
      | none => exact h.pass hline hhead
      | some name => exact h.enter hline hcounts hhead
    | some f =>
      rw [read_inside hcounts]
      by_cases hzero : f.depth + braceBalance (trim line) = 0
      · right
        rw [if_pos hzero]
        exact ⟨f.name, f.firstLine, rfl, h.close hline hcounts hzero, Follows.anew lines (n + 1)⟩
      · left
        rw [if_neg hzero]
        exact ⟨rfl, h.stay hline hcounts hzero⟩
  · left
    rw [read_of_not_counts hcounts]
    exact ⟨rfl, h.skip (mt (countsAt_iff hline).mp hcounts)⟩

/-- When all lines have been read, the search finds nothing more. -/
theorem Follows.search_nil {progress : Progress} (h : Follows lines p progress)
    (hall : lines.length ≤ progress.linesRead) (path : String) : Search lines path p [] := by
  refine Search.done ?_
  rintro name s e ⟨⟨⟨⟨hps, -⟩, hleast⟩, hopens⟩, ⟨hcloses, -⟩⟩
  cases h with
  | outside hp hnone => exact hnone name s hps (hopens.countsAt.le_length.trans hall) hopens
  | inside hfirst hread hdepth hopen =>
    -- the function that is open is the next one, and it has not been closed
    rw [← hfirst.1.unique ⟨⟨hps, name, hopens⟩, hleast⟩] at hcloses
    exact hopen e (hcloses.2.1.le_length.trans hall) hcloses

/-- **A run.** What a reader closes in the lines that are left is the outcome of the search that it
follows. The induction is on these lines; `Follows` is what each of them keeps. -/
theorem Follows.search_extents (path : String) (rest : List String) {progress : Progress}
    (h : Follows lines p progress) (hrest : lines.drop progress.linesRead = rest) :
    Search lines path p ((progress.extents rest).map (·.inFile path)) := by
  induction rest generalizing p progress with
  | nil => exact h.search_nil (List.drop_eq_nil_iff.mp hrest) path
  | cons line rest ih =>
    obtain ⟨hline, hrest'⟩ := lineAt_of_drop hrest
    rw [← read_linesRead progress line] at hrest'
    rw [extents]
    rcases h.read hline with ⟨hnone, hfollows⟩ | ⟨name, s, hclosed, hnext, hfollows⟩
    · rw [hnone]
      exact ih hfollows hrest'
    · rw [hclosed]
      exact Search.found hnext (ih hfollows hrest')

end Progress

/-! ## 8. The definitions of a file -/

/-- The definitions found in a file are an outcome of the search from its first line. -/
theorem search_findDefinitions (lines : List String) (path : String) :
    Search lines path 1 (findDefinitions lines path) := by
  rw [findDefinitions_eq_map_extents]
  exact (Progress.Follows.start lines).search_extents path lines rfl

/-- **The definitions found in a file are the outcome of the search** for least lines from line 1,
and its only one. -/
theorem search_iff_findDefinitions (lines : List String) (path : String)
    (definitions : List Definition) :
    Search lines path 1 definitions ↔ findDefinitions lines path = definitions := by
  constructor
  · intro h
    exact (search_findDefinitions lines path).unique h
  · intro h
    rw [← h]
    exact search_findDefinitions lines path

end LongFunctions
