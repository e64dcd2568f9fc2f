/-
Which functions a summary selects, told by their positions.

Functions can be equal, so a list of functions does not say which of the given ones it holds. The
positions in the given list do. There is one way to put all positions in order, so that longer
functions come first and, of those of one length, the earlier ones (`RanksBefore`); a summary lists
the functions at the first positions of this order (`Summary.ofDefinitions_selection`). So what is
left out ranks behind all that is listed, and the cut goes through functions of one length as it
goes through others: those found first stay.

The order of positions is the ranking of numbered functions (`exists_numbered_byLength`), with the
functions forgotten in place of the numbers.
-/
import Mathlib.Data.Fintype.Fin
import Mathlib.Data.List.Perm.Basic
import Mathlib.Data.Set.List
import LongFunctions.Proofs.Summary.Ranking

set_option autoImplicit false

namespace LongFunctions

/-! ## 1. The order of positions -/

/-- Whether the function at a position is ranked before that at another one: it is longer, or as
long and comes earlier. -/
def RanksBefore (definitions : List Definition) (i j : Fin definitions.length) : Prop :=
  (definitions.get j).length < (definitions.get i).length ∨
    (definitions.get i).length = (definitions.get j).length ∧ i < j

variable {definitions : List Definition}

theorem RanksBefore.asymm {i j : Fin definitions.length} (h : RanksBefore definitions i j) :
    ¬ RanksBefore definitions j i := by
  unfold RanksBefore at h ⊢
  omega

/-- The function at a position, with the position for its number. -/
def numberedAt (definitions : List Definition) (i : Fin definitions.length) : Definition × Nat :=
  (definitions.get i, i)

theorem numberedAt_injective (definitions : List Definition) :
    Function.Injective (numberedAt definitions) :=
  fun _ _ h => Fin.ext (congrArg Prod.snd h)

/-- The functions with their numbers are the functions at all positions. -/
theorem zipIdx_eq_map_numberedAt (definitions : List Definition) :
    definitions.zipIdx = (List.finRange definitions.length).map (numberedAt definitions) := by
  refine List.ext_getElem (by simp) ?_
  intro i hi hi'
  simp [numberedAt]

/-- **The ranking of positions.** All positions can be put in order, and the functions there are
then the functions by length. -/
theorem exists_positions_byLength (definitions : List Definition) :
    ∃ ranking : List (Fin definitions.length),
      ranking.Perm (List.finRange definitions.length) ∧
      ranking.Pairwise (RanksBefore definitions) ∧
      ranking.map definitions.get = byLength definitions := by
  obtain ⟨numbered, hperm, hranked, hfst⟩ := exists_numbered_byLength definitions
  rw [zipIdx_eq_map_numberedAt] at hperm
  -- a numbered function is the function at its number
  obtain ⟨ranking, rfl⟩ : numbered ∈ Set.range (List.map (numberedAt definitions)) := by
    rw [Set.range_list_map]
    intro p hp
    obtain ⟨i, -, hi⟩ := List.mem_map.mp (hperm.mem_iff.mp hp)
    exact ⟨i, hi⟩
  have hplaces := List.pairwise_map.mp hranked
  refine ⟨ranking, (List.map_perm_map_iff (numberedAt_injective _)).mp hperm, hplaces, ?_⟩
  rw [← hfst, List.map_map]
  rfl

/-- There is no other way to put the positions in order. -/
theorem eq_of_pairwise_ranksBefore {ranking other : List (Fin definitions.length)}
    (hperm : other.Perm ranking) (hranking : ranking.Pairwise (RanksBefore definitions))
    (hother : other.Pairwise (RanksBefore definitions)) : other = ranking :=
  hperm.eq_of_pairwise (fun _ _ _ _ hij hji => absurd hji hij.asymm) hother hranking

/-! ## 2. The selection -/

namespace Summary

/-- The functions that are too long are counted one by one, also those that are equal. -/
theorem tooLong_eq_card (definitions : List Definition) (limit threshold : Nat) :
    (ofDefinitions definitions limit threshold).tooLong =
      (Finset.univ.filter fun i : Fin definitions.length =>
        threshold < (definitions.get i).length).card := by
  have hcount : definitions.countP (·.isLong threshold) =
      (List.finRange definitions.length).countP
        ((·.isLong threshold) ∘ definitions.get) := by
    rw [← List.countP_map, List.map_get_finRange]
  have hcard : (Finset.univ.filter fun i : Fin definitions.length =>
      threshold < (definitions.get i).length).card =
      ((List.finRange definitions.length).filter fun i =>
        decide (threshold < (definitions.get i).length)).length := by
    rw [Fin.univ_def]
    rfl
  rw [hcard, ← List.countP_eq_length_filter]
  exact hcount

/-- **What a summary selects.** All positions of the given functions can be put in order by length
and then by position, in one way. A summary lists the functions at the first `limit` positions of
this order, or at all of them if there are fewer: as many as that, no position twice, from the
longest to the shortest. Each position that is listed ranks before each that is left out. The total
is the number of positions, and a function is counted as too long for each position at which it is
longer than the threshold, whatever the limit is. -/
theorem ofDefinitions_selection (definitions : List Definition) (limit threshold : Nat) :
    ∃ ranking : List (Fin definitions.length),
      ranking.Perm (List.finRange definitions.length) ∧
      ranking.Pairwise (RanksBefore definitions) ∧
      (∀ other : List (Fin definitions.length),
        other.Perm (List.finRange definitions.length) →
        other.Pairwise (RanksBefore definitions) → other = ranking) ∧
      (ofDefinitions definitions limit threshold).longest =
        (ranking.take limit).map definitions.get ∧
      (ranking.take limit).length = min limit definitions.length ∧
      (ranking.take limit).Nodup ∧
      LongestFirst (ofDefinitions definitions limit threshold).longest ∧
      (∀ i ∈ ranking.take limit, ∀ j ∉ ranking.take limit, RanksBefore definitions i j) ∧
      (ofDefinitions definitions limit threshold).total = definitions.length ∧
      (ofDefinitions definitions limit threshold).tooLong =
        (Finset.univ.filter fun i : Fin definitions.length =>
          threshold < (definitions.get i).length).card := by
  obtain ⟨ranking, hperm, hranked, hmap⟩ := exists_positions_byLength definitions
  have hlength : ranking.length = definitions.length := by
    rw [hperm.length_eq, List.length_finRange]
  have hnodup : ranking.Nodup := hperm.nodup_iff.mpr (List.nodup_finRange _)
  refine ⟨ranking, hperm, hranked, ?_, ?_, ?_, hnodup.sublist (List.take_sublist _ _), ?_, ?_, rfl,
    tooLong_eq_card definitions limit threshold⟩
  · intro other hother hpairwise
    exact eq_of_pairwise_ranksBefore (hother.trans hperm.symm) hranked hpairwise
  · rw [longest_ofDefinitions, List.map_take, hmap]
  · rw [List.length_take, hlength]
  · exact (longestFirst_byLength definitions).take limit
  · intro i hi j hj
    -- all positions stand in the ranking, so one that is not among the first stands behind them
    have hmem : j ∈ ranking := hperm.mem_iff.mpr (List.mem_finRange j)
    rw [← List.take_append_drop limit ranking, List.mem_append] at hmem
    exact hranked.rel_of_mem_take_of_mem_drop hi (hmem.resolve_left hj)

/-- Of two functions of one length at the cut, the one found first is listed. -/
example :
    (ofDefinitions
      [⟨⟨"f", 1, 10⟩, "x.c"⟩, ⟨⟨"g", 20, 30⟩, "x.c"⟩, ⟨⟨"h", 1, 10⟩, "y.c"⟩] 2 20).longest =
      [⟨⟨"g", 20, 30⟩, "x.c"⟩, ⟨⟨"f", 1, 10⟩, "x.c"⟩] := by
  cbv

end Summary

end LongFunctions
