/-
Summaries of the same functions in another order.

The order in which functions are found decides between those of one length and nothing else. So it
decides which of them are listed, but not how long the listed ones are: the lengths of a ranking are
the lengths of all functions in decreasing order, and there is one such list
(`map_length_byLength_eq_of_perm`). When no two functions have one length, there is nothing left to
decide, and the whole summary is the same (`Summary.ofDefinitions_perm`).
-/
import Mathlib.Data.List.Nodup
import LongFunctions.Proofs.Summary.Ranking

set_option autoImplicit false

namespace LongFunctions

/-! ## 1. Rankings -/

variable {ds es : List Definition}

/-- The same functions, ranked from any order, are the same functions. -/
theorem byLength_perm_byLength (h : ds.Perm es) : (byLength ds).Perm (byLength es) :=
  ((byLength_perm ds).trans h).trans (byLength_perm es).symm

/-- The order in which functions are given does not show in the lengths of their ranking. -/
theorem map_length_byLength_eq_of_perm (h : ds.Perm es) :
    (byLength ds).map (·.length) = (byLength es).map (·.length) := by
  have hlengths : ((byLength ds).map (·.length)).Perm ((byLength es).map (·.length)) :=
    (byLength_perm_byLength h).map _
  have hdescends (definitions : List Definition) :
      ((byLength definitions).map (·.length)).Pairwise fun m n => n ≤ m :=
    List.pairwise_map.mpr (longestFirst_byLength definitions)
  exact hlengths.eq_of_pairwise (fun _ _ _ _ hge hle => Nat.le_antisymm hle hge) (hdescends ds)
    (hdescends es)

/-- It does not show in the ranking at all when no two functions have one length. -/
theorem byLength_eq_of_perm (h : ds.Perm es)
    (hdistinct : ds.Pairwise fun d e => d.length ≠ e.length) : byLength ds = byLength es := by
  have hnodup : (ds.map (·.length)).Nodup := List.pairwise_map.mpr hdistinct
  refine (byLength_perm_byLength h).eq_of_pairwise ?_ (longestFirst_byLength ds)
    (longestFirst_byLength es)
  intro d e hd he hge hle
  -- neither is longer than the other, and both are among the functions given
  have hdmem : d ∈ ds := (byLength_perm ds).mem_iff.mp hd
  have hemem : e ∈ ds := h.mem_iff.mpr ((byLength_perm es).mem_iff.mp he)
  exact List.inj_on_of_nodup_map hnodup hdmem hemem (Nat.le_antisymm hle hge)

/-! ## 2. Summaries -/

namespace Summary

/-- The number of long functions does not depend on their order. -/
theorem tooLong_eq_of_perm (h : ds.Perm es) (limit threshold : Nat) :
    (ofDefinitions ds limit threshold).tooLong = (ofDefinitions es limit threshold).tooLong :=
  h.countP_eq _

/-- When no two functions have one length, nothing in their summary depends on their order. -/
theorem ofDefinitions_eq_of_perm (h : ds.Perm es)
    (hdistinct : ds.Pairwise fun d e => d.length ≠ e.length) (limit threshold : Nat) :
    ofDefinitions ds limit threshold = ofDefinitions es limit threshold := by
  rw [ofDefinitions, ofDefinitions, byLength_eq_of_perm h hdistinct, h.length_eq, h.countP_eq]

/-- **The order of discovery.** For the same functions in another order, with every limit and every
threshold, the summary counts as many functions and as many long ones, comes to the same verdict,
and lists functions of the same lengths, rank by rank. If no two functions have one length, it lists
the same functions, and its text and its JSON document are the same. -/
theorem ofDefinitions_perm {ds es : List Definition} (h : ds.Perm es) (limit threshold : Nat) :
    (ofDefinitions ds limit threshold).total = (ofDefinitions es limit threshold).total ∧
    (ofDefinitions ds limit threshold).tooLong = (ofDefinitions es limit threshold).tooLong ∧
    (ofDefinitions ds limit threshold).verdict = (ofDefinitions es limit threshold).verdict ∧
    (ofDefinitions ds limit threshold).longest.map (·.length) =
      (ofDefinitions es limit threshold).longest.map (·.length) ∧
    ((ds.Pairwise fun d e => d.length ≠ e.length) →
      (ofDefinitions ds limit threshold).longest = (ofDefinitions es limit threshold).longest ∧
      (ofDefinitions ds limit threshold).toText = (ofDefinitions es limit threshold).toText ∧
      (ofDefinitions ds limit threshold).toJsonText =
        (ofDefinitions es limit threshold).toJsonText) := by
  have hlong := tooLong_eq_of_perm h limit threshold
  refine ⟨h.length_eq, hlong, ?_, ?_, ?_⟩
  · rw [verdict_ofDefinitions, verdict_ofDefinitions, hlong]
  · rw [longest_ofDefinitions, longest_ofDefinitions, List.map_take, List.map_take,
      map_length_byLength_eq_of_perm h]
  · intro hdistinct
    rw [ofDefinitions_eq_of_perm h hdistinct]
    exact ⟨rfl, rfl, rfl⟩

/-- A function of this length. -/
def sized (length : Nat) : Definition :=
  { name := "f", firstLine := 1, length, path := "a.c" }

/-- Three functions of different lengths, found in another order, of which two are listed. -/
theorem ofDefinitions_perm_distinct :
    [sized 2, sized 9, sized 4].Perm [sized 9, sized 4, sized 2] ∧
      ([sized 2, sized 9, sized 4].Pairwise fun d e => d.length ≠ e.length) ∧
      (ofDefinitions [sized 2, sized 9, sized 4] 2 3).longest = [sized 9, sized 4] ∧
      (ofDefinitions [sized 2, sized 9, sized 4] 2 3).toText =
        (ofDefinitions [sized 9, sized 4, sized 2] 2 3).toText := by
  have hperm : [sized 2, sized 9, sized 4].Perm [sized 9, sized 4, sized 2] := by
    decide
  have hdistinct :
      [sized 2, sized 9, sized 4].Pairwise fun d e => d.length ≠ e.length := by decide
  have hsorted : (ofDefinitions [sized 9, sized 4, sized 2] 2 3).longest =
      [sized 9, sized 4] := longest_of_longestFirst (by decide) 2 3
  obtain ⟨-, -, -, -, hsame⟩ := ofDefinitions_perm hperm 2 3
  obtain ⟨hlongest, htext, -⟩ := hsame hdistinct
  exact ⟨hperm, hdistinct, hlongest.trans hsorted, htext⟩

end Summary

end LongFunctions
