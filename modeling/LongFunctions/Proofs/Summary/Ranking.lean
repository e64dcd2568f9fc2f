/-
The ranking of functions by length, and what decides between functions of one length.

`byLength` sorts by length alone, and sorts stably. So where two functions are equally long the
order in which they were given decides, and whatever holds of the functions in the given order holds
of those of one length in the ranking (`pairwise_byLength`). The proof numbers the functions: a
stable ranking is the ranking of numbered functions by length and then by number
(`exists_numbered_byLength`).
-/
import Mathlib.Data.List.Basic
import LongFunctions.Summary

set_option autoImplicit false

namespace LongFunctions

/-! ## 1. What is ranked -/

/-- Whether functions go from the longest to the shortest. -/
def LongestFirst (definitions : List Definition) : Prop :=
  definitions.Pairwise fun d e => e.length ≤ d.length

instance (definitions : List Definition) : Decidable (LongestFirst definitions) :=
  inferInstanceAs (Decidable (definitions.Pairwise fun d e => e.length ≤ d.length))

theorem longestFirst_cons_iff {d : Definition} {definitions : List Definition} :
    LongestFirst (d :: definitions) ↔
      (∀ e ∈ definitions, e.length ≤ d.length) ∧ LongestFirst definitions :=
  List.pairwise_cons

/-- No function of the list is longer than the first one. -/
theorem LongestFirst.length_le_head {d e : Definition} {definitions : List Definition}
    (h : LongestFirst (d :: definitions)) (he : e ∈ d :: definitions) : e.length ≤ d.length := by
  rcases List.mem_cons.mp he with rfl | he
  · exact Nat.le_refl _
  · exact (longestFirst_cons_iff.mp h).1 e he

theorem LongestFirst.take {definitions : List Definition} (h : LongestFirst definitions) (n : Nat) :
    LongestFirst (definitions.take n) :=
  List.Pairwise.take h

theorem byLength_perm (definitions : List Definition) : (byLength definitions).Perm definitions :=
  List.mergeSort_perm _ _

/-- Of three functions, the first may stand before the last when it may stand before the second and
the second before the last. -/
theorem longerFirst_trans (d e f : Definition) (hde : decide (e.length ≤ d.length) = true)
    (hef : decide (f.length ≤ e.length) = true) : decide (f.length ≤ d.length) = true := by
  rw [decide_eq_true_eq] at hde hef ⊢
  omega

/-- Of two functions, one may stand before the other. -/
theorem longerFirst_total (d e : Definition) :
    (decide (e.length ≤ d.length) || decide (d.length ≤ e.length)) = true := by
  rw [Bool.or_eq_true, decide_eq_true_eq, decide_eq_true_eq]
  omega

/-! ## 2. Functions with their numbers -/

/-- Whether the first of two numbered functions is longer, or is as long and has a lower number. -/
def RankedBefore (p q : Definition × Nat) : Prop :=
  q.1.length < p.1.length ∨ p.1.length = q.1.length ∧ p.2 < q.2

/-- Sorting by length and then by number, two functions may stand in this order when the first is
longer, or is as long and its number is no higher. -/
theorem zipIdxLE_length_iff (p q : Definition × Nat) :
    List.zipIdxLE (fun d e : Definition => e.length ≤ d.length) p q = true ↔
      q.1.length < p.1.length ∨ p.1.length = q.1.length ∧ p.2 ≤ q.2 := by
  simp only [List.zipIdxLE, decide_eq_true_eq]
  split_ifs with hpq hqp
  · rw [decide_eq_true_eq]
    omega
  · simp only [true_iff]
    omega
  · simp only [false_iff]
    omega

/-- **The ranking of numbered functions.** With their numbers in the given order, functions are ranked
by length and then by number. -/
theorem exists_numbered_byLength (definitions : List Definition) :
    ∃ numbered : List (Definition × Nat), numbered.Perm definitions.zipIdx ∧
      numbered.Pairwise RankedBefore ∧ numbered.map Prod.fst = byLength definitions := by
  have hsorted := List.pairwise_mergeSort (List.zipIdxLE_trans longerFirst_trans)
    (List.zipIdxLE_total longerFirst_total) definitions.zipIdx
  have hperm := List.mergeSort_perm definitions.zipIdx
    (List.zipIdxLE fun d e : Definition => e.length ≤ d.length)
  -- no number comes twice, so the order by number is strict
  have hnumbers := hperm.map Prod.snd
  rw [List.zipIdx_map_snd] at hnumbers
  have hdistinct := List.pairwise_map.mp (hnumbers.nodup_iff.mpr List.nodup_range')
  refine ⟨_, hperm, (hsorted.and hdistinct).imp ?_, List.mergeSort_zipIdx⟩
  rintro p q ⟨hle, hne⟩
  rw [zipIdxLE_length_iff] at hle
  unfold RankedBefore
  omega

/-! ## 3. Functions of one length -/

/-- Whatever holds of the functions in the order given decides, in the ranking, between those of one
length. -/
theorem pairwise_byLength {R : Definition → Definition → Prop} {definitions : List Definition}
    (h : definitions.Pairwise R) :
    (byLength definitions).Pairwise fun d e =>
      e.length < d.length ∨ d.length = e.length ∧ R d e := by
  obtain ⟨numbered, hperm, hranked, hfst⟩ := exists_numbered_byLength definitions
  rw [← hfst, List.pairwise_map]
  refine hranked.imp_of_mem ?_
  rintro p q hp hq (hlonger | ⟨hequal, hlt⟩)
  · exact Or.inl hlonger
  · -- the number of a function is its place in the given order
    obtain ⟨hi, hpi⟩ :=
      List.getElem?_eq_some_iff.mp (List.mem_zipIdx_iff_getElem?.mp (hperm.mem_iff.mp hp))
    obtain ⟨hj, hqj⟩ :=
      List.getElem?_eq_some_iff.mp (List.mem_zipIdx_iff_getElem?.mp (hperm.mem_iff.mp hq))
    have hR := List.pairwise_iff_getElem.mp h p.2 q.2 hi hj hlt
    rw [hpi, hqj] at hR
    exact Or.inr ⟨hequal, hR⟩

/-- The ranking goes from the longest function to the shortest. -/
theorem longestFirst_byLength (definitions : List Definition) :
    LongestFirst (byLength definitions) := by
  have hranked := pairwise_byLength (R := fun _ _ => True)
    (List.pairwise_of_forall (l := definitions) fun _ _ => trivial)
  refine hranked.imp ?_
  intro d e h
  omega

/-- Functions that go from the longest to the shortest stay as they are. -/
theorem LongestFirst.byLength_eq {definitions : List Definition} (h : LongestFirst definitions) :
    byLength definitions = definitions :=
  List.mergeSort_of_pairwise (h.imp decide_eq_true)

namespace Summary

/-- A summary lists the first functions of the ranking. -/
theorem longest_ofDefinitions (definitions : List Definition) (limit threshold : Nat) :
    (ofDefinitions definitions limit threshold).longest = (byLength definitions).take limit := rfl

/-- A summary lists the first of functions that go from the longest to the shortest. -/
theorem longest_of_longestFirst {definitions : List Definition} (h : LongestFirst definitions)
    (limit threshold : Nat) :
    (ofDefinitions definitions limit threshold).longest = definitions.take limit := by
  rw [longest_ofDefinitions, h.byLength_eq]

end Summary

end LongFunctions
