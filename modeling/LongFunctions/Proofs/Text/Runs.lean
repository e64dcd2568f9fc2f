/-
Runs of characters: reading a text as pieces of one kind after the other.

A text is read by taking the longest run of one kind of character from its front and going on with
what is left. That finds given pieces again exactly when no piece can be extended into the next one,
which `Halts` says of the text behind a run. So a composition of runs has one reading when the kinds
of neighbours exclude each other, and here they do: white space is no word character
(`isWord_of_isBlank`). Numerals are such runs too, and their digits say which number they are.
-/
import Mathlib.Data.List.Basic
import Mathlib.Data.List.TakeWhile
import LongFunctions.Text

set_option autoImplicit false

namespace LongFunctions

/-! ## 1. One run -/

section Runs

variable {α : Type} {p : α → Bool} {run rest text : List α}

/-- Whether a run of elements with `p` halts in front of this text: the text is empty or starts with
an element without `p`. -/
def Halts (p : α → Bool) (text : List α) : Prop :=
  ∀ c, text.head? = some c → p c = false

theorem Halts.nil : Halts p [] := by
  intro c hc
  cases hc

theorem Halts.cons {c : α} (h : p c = false) : Halts p (c :: text) := by
  intro c' hc'
  rwa [← Option.some.inj hc']

/-- What is left behind the longest run starts with something else. -/
theorem halts_dropWhile (p : α → Bool) (text : List α) : Halts p (text.dropWhile p) := by
  intro c hc
  have h := List.head?_dropWhile_not p text
  rw [hc] at h
  exact h

theorem takeWhile_of_halts (h : Halts p text) : text.takeWhile p = [] := by
  cases text with
  | nil => rfl
  | cons c text => exact List.takeWhile_cons_of_neg (Bool.eq_false_iff.mp (h c rfl))

theorem dropWhile_of_halts (h : Halts p text) : text.dropWhile p = text := by
  cases text with
  | nil => rfl
  | cons c text => exact List.dropWhile_cons_of_neg (Bool.eq_false_iff.mp (h c rfl))

/-- A run is read back from in front of a text that it halts at. -/
theorem takeWhile_run (hrun : ∀ c ∈ run, p c = true) (h : Halts p rest) :
    (run ++ rest).takeWhile p = run := by
  rw [List.takeWhile_append_of_pos hrun, takeWhile_of_halts h, List.append_nil]

/-- What stands behind a run that halts is read back. -/
theorem dropWhile_run (hrun : ∀ c ∈ run, p c = true) (h : Halts p rest) :
    (run ++ rest).dropWhile p = rest := by
  rw [List.dropWhile_append_of_pos hrun, dropWhile_of_halts h]

/-- A text starts in one way only with a run that halts. -/
theorem run_unique {run' rest' : List α} (hrun : ∀ c ∈ run, p c = true) (h : Halts p rest)
    (hrun' : ∀ c ∈ run', p c = true) (h' : Halts p rest') (heq : run ++ rest = run' ++ rest') :
    run = run' ∧ rest = rest' := by
  refine ⟨?_, ?_⟩
  · rw [← takeWhile_run hrun h, heq, takeWhile_run hrun' h']
  · rw [← dropWhile_run hrun h, heq, dropWhile_run hrun' h']

/-- Elements without `p` halt a run, or else what stands behind them does. -/
theorem Halts.append (h : ∀ c ∈ run, p c = false) (hrest : Halts p rest) :
    Halts p (run ++ rest) := by
  cases run with
  | nil => exact hrest
  | cons c run => exact Halts.cons (h c List.mem_cons_self)

/-- At least one element without `p` halts a run, whatever stands behind it. -/
theorem Halts.append_of_ne_nil (hne : run ≠ []) (h : ∀ c ∈ run, p c = false) :
    Halts p (run ++ rest) := by
  obtain ⟨c, run, rfl⟩ := List.exists_cons_of_ne_nil hne
  exact Halts.cons (h c List.mem_cons_self)

/-- A text that starts with the end of a list that is not empty halts a run when no element of the
list has `p`. -/
theorem Halts.reverse_append (hne : run ≠ []) (h : ∀ c ∈ run, p c = false) :
    Halts p (run.reverse ++ rest) :=
  Halts.append_of_ne_nil (List.reverse_ne_nil_iff.mpr hne) fun c hc => h c (List.mem_reverse.mp hc)

/-- An element without `p` is not among elements that all have it. -/
theorem not_mem_of_forall {stop : α} (hstop : p stop = false) (h : ∀ c ∈ run, p c = true) :
    stop ∉ run := by
  intro hmem
  rw [h stop hmem] at hstop
  cases hstop

end Runs

/-! ## 2. Up to an element -/

section UpTo

variable {α : Type} [DecidableEq α] {stop c : α} {run rest text : List α}

/-- The run up to an element does not have it. -/
theorem not_mem_takeWhile_ne (stop : α) (text : List α) : stop ∉ text.takeWhile (· ≠ stop) := by
  intro hmem
  have hne := List.mem_takeWhile_imp hmem
  rw [decide_eq_true_eq] at hne
  exact hne rfl

/-- What is left behind the run up to an element starts with this element. -/
theorem eq_append_of_dropWhile_ne (h : text.dropWhile (· ≠ stop) = c :: rest) :
    c = stop ∧ text = text.takeWhile (· ≠ stop) ++ stop :: rest := by
  have hc : c = stop := by
    have hhalts := halts_dropWhile (· ≠ stop) text c (by rw [h]; rfl)
    simpa using hhalts
  subst hc
  refine ⟨rfl, ?_⟩
  rw [← h, List.takeWhile_append_dropWhile]

theorem forall_ne_of_not_mem (h : stop ∉ run) : ∀ c ∈ run, decide (c ≠ stop) = true := by
  intro c hc
  rw [decide_eq_true_eq]
  rintro rfl
  exact h hc

/-- A run without an element is what is read up to this element. -/
theorem takeWhile_ne_append (h : stop ∉ run) :
    (run ++ stop :: rest).takeWhile (· ≠ stop) = run :=
  takeWhile_run (forall_ne_of_not_mem h) (Halts.cons (by simp))

theorem dropWhile_ne_append (h : stop ∉ run) :
    (run ++ stop :: rest).dropWhile (· ≠ stop) = stop :: rest :=
  dropWhile_run (forall_ne_of_not_mem h) (Halts.cons (by simp))

/-- A text is divided in one way only by the first of an element. -/
theorem append_cons_inj_left {run' rest' : List α} (h : stop ∉ run) (h' : stop ∉ run')
    (heq : run ++ stop :: rest = run' ++ stop :: rest') : run = run' ∧ rest = rest' := by
  have hhalts : ∀ text, Halts (fun c => decide (c ≠ stop)) (stop :: text) :=
    fun text => Halts.cons (by simp)
  obtain ⟨hruns, hrests⟩ := run_unique (forall_ne_of_not_mem h) (hhalts rest)
    (forall_ne_of_not_mem h') (hhalts rest') heq
  exact ⟨hruns, List.tail_eq_of_cons_eq hrests⟩

/-- And in one way only by the last of an element. -/
theorem append_cons_inj_right {run' rest' : List α} (h : stop ∉ rest) (h' : stop ∉ rest')
    (heq : run ++ stop :: rest = run' ++ stop :: rest') : run = run' ∧ rest = rest' := by
  have hreverse : rest.reverse ++ stop :: run.reverse = rest'.reverse ++ stop :: run'.reverse := by
    simpa using congrArg List.reverse heq
  obtain ⟨hrests, hruns⟩ :=
    append_cons_inj_left (mt List.mem_reverse.mp h) (mt List.mem_reverse.mp h') hreverse
  exact ⟨List.reverse_inj.mp hruns, List.reverse_inj.mp hrests⟩

end UpTo

/-! ## 3. Kinds of characters -/

/-- White space is no word character. The two tables have no code point in common, and there are
few enough blanks to look each of them up. -/
theorem isWord_of_isBlank {c : Char} (h : isBlank c = true) : isWord c = false := by
  have htables : ∀ r ∈ blankRanges, ∀ n ∈ List.range' r.1 (r.2 + 1 - r.1),
      wordRanges.covers n = false := by
    decide +kernel
  obtain ⟨r, hr, hlow, hhigh⟩ := (isBlank_iff c).mp h
  exact htables r hr c.toNat (List.mem_range'_1.mpr (by omega))

/-- A word character is no white space. -/
theorem isBlank_of_isWord {c : Char} (h : isWord c = true) : isBlank c = false := by
  cases hblank : isBlank c with
  | false => rfl
  | true => rw [isWord_of_isBlank hblank] at h; cases h

/-! ## 4. Numerals -/

/-- A numeral consists of digits. -/
theorem isDigit_of_mem_repr {n : Nat} : ∀ c ∈ n.repr.toList, c.isDigit = true := by
  intro c hc
  rw [Nat.toList_repr] at hc
  exact Nat.isDigit_of_mem_toDigits (by omega) (by omega) hc

theorem not_mem_repr {c : Char} (h : c.isDigit = false) (n : Nat) : c ∉ n.repr.toList :=
  not_mem_of_forall h isDigit_of_mem_repr

/-- The digits of a numeral say its number. -/
theorem ofDigitChars_repr (n : Nat) : Nat.ofDigitChars 10 n.repr.toList 0 = n := by
  rw [Nat.toList_repr, Nat.ofDigitChars_ten_toDigits]

/-- Numerals are told apart by their characters. -/
theorem eq_of_toList_repr_eq {m n : Nat} (h : m.repr.toList = n.repr.toList) : m = n := by
  rw [← ofDigitChars_repr m, h, ofDigitChars_repr]

/-- Only the numeral of zero starts with a zero. -/
theorem eq_zero_of_head?_repr {n : Nat} (h : n.repr.toList.head? = some '0') : n = 0 := by
  rw [Nat.toList_repr] at h
  induction n using Nat.strongRecOn with
  | ind n ih =>
    by_cases hsmall : n < 10
    · rw [Nat.toDigits_of_lt_base hsmall] at h
      have hdigits : ∀ m < 10, m.digitChar = '0' → m = 0 := by decide
      exact hdigits n hsmall (Option.some.inj h)
    · -- the digits in front of the last one are those of the tenth
      rw [Nat.toDigits_of_base_le (by omega) (by omega),
        List.head?_append_of_ne_nil _ Nat.toDigits_ne_nil] at h
      have hzero := ih (n / 10) (by omega) h
      omega

end LongFunctions
