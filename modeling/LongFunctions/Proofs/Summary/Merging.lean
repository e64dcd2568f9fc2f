/-
Summaries of parts, put together.

Functions that are found in two places can be summed up in each place, and the two summaries summed
up again: what the whole lists is found among what the parts list, in the right order
(`Summary.ofDefinitions_append`). So nothing that a part leaves out is missed, and functions of one
length come as if they had been ranked at once.

The first step is that the ranking of all functions is the merge of the two rankings
(`byLength_append`). Merging is no part of the definition of a ranking. But a ranking is known by
two things: it goes from the longest function to the shortest, and it has the functions of each
length in the order given (`eq_of_ofLength_eq`). A merge has both. The second step is about merges
alone: the first few of a merge come from the first few on either side (`take_merge`).
-/
import LongFunctions.Proofs.Summary.Ranking

set_option autoImplicit false

namespace LongFunctions

/-! ## 1. The functions of one length -/

/-- The functions of `n` lines, in the order given. -/
def ofLength (n : Nat) (definitions : List Definition) : List Definition :=
  definitions.filter fun d => d.length = n

theorem mem_ofLength_iff {n : Nat} {definitions : List Definition} {d : Definition} :
    d ∈ ofLength n definitions ↔ d ∈ definitions ∧ d.length = n := by
  rw [ofLength, List.mem_filter, decide_eq_true_eq]

theorem ofLength_cons (n : Nat) (d : Definition) (definitions : List Definition) :
    ofLength n (d :: definitions) =
      if d.length = n then d :: ofLength n definitions else ofLength n definitions := by
  simp [ofLength, List.filter_cons]

theorem ofLength_append (n : Nat) (ds es : List Definition) :
    ofLength n (ds ++ es) = ofLength n ds ++ ofLength n es :=
  List.filter_append ..

/-- Lists with the same functions of each length have the same functions. -/
theorem mem_iff_of_ofLength_eq {ds es : List Definition} (h : ∀ n, ofLength n ds = ofLength n es)
    (d : Definition) : d ∈ ds ↔ d ∈ es := by
  have hd : d ∈ ofLength d.length ds ↔ d ∈ ofLength d.length es := by rw [h]
  rwa [mem_ofLength_iff, mem_ofLength_iff, and_iff_left rfl, and_iff_left rfl] at hd

/-- A ranking has the functions of one length in the order given. -/
theorem ofLength_byLength (n : Nat) (definitions : List Definition) :
    ofLength n (byLength definitions) = ofLength n definitions := by
  have hequal : (ofLength n definitions).Pairwise
      fun d e => decide (e.length ≤ d.length) = true := by
    refine List.pairwise_of_forall_mem_list ?_
    intro d hd e he
    have hdn := (mem_ofLength_iff.mp hd).2
    have hen := (mem_ofLength_iff.mp he).2
    rw [decide_eq_true_eq]
    omega
  -- functions that may stand in the order given stay in it
  have hkept : (ofLength n definitions).Sublist (byLength definitions) :=
    List.sublist_mergeSort longerFirst_trans longerFirst_total hequal List.filter_sublist
  have hsub : (ofLength n definitions).Sublist (ofLength n (byLength definitions)) := by
    have hfilter := hkept.filter fun d => d.length = n
    simpa only [ofLength, List.filter_filter, Bool.and_self] using hfilter
  refine (hsub.eq_of_length ?_).symm
  exact ((byLength_perm definitions).filter _).length_eq.symm

/-- **A ranking is known by its order and by the functions of each length.** Two lists that go from
the longest function to the shortest are equal when they have the same functions of each length in
the same order. -/
theorem eq_of_ofLength_eq {ds es : List Definition} (hds : LongestFirst ds)
    (hes : LongestFirst es) (h : ∀ n, ofLength n ds = ofLength n es) : ds = es := by
  have hmem := mem_iff_of_ofLength_eq h
  induction ds generalizing es with
  | nil =>
    cases es with
    | nil => rfl
    | cons e es => exact absurd ((hmem e).mpr List.mem_cons_self) List.not_mem_nil
  | cons d ds ih =>
    cases es with
    | nil => exact absurd ((hmem d).mp List.mem_cons_self) List.not_mem_nil
    | cons e es =>
      -- neither of the two heads is longer than the other
      have hle : d.length ≤ e.length := hes.length_le_head ((hmem d).mp List.mem_cons_self)
      have hge : e.length ≤ d.length := hds.length_le_head ((hmem e).mpr List.mem_cons_self)
      -- so they are the first functions of their length
      have hheads := h d.length
      rw [ofLength_cons, ofLength_cons, if_pos rfl, if_pos (by omega), List.cons.injEq] at hheads
      obtain ⟨rfl, -⟩ := hheads
      have htails : ∀ n, ofLength n ds = ofLength n es := by
        intro n
        have hn := h n
        rw [ofLength_cons, ofLength_cons] at hn
        split_ifs at hn
        · exact List.tail_eq_of_cons_eq hn
        · exact hn
      rw [ih (longestFirst_cons_iff.mp hds).2 (longestFirst_cons_iff.mp hes).2 htails
        (mem_iff_of_ofLength_eq htails)]

/-! ## 2. Merged rankings -/

/-- A merge has the functions of one length of the one list, and then those of the other, if the one
goes from the longest function to the shortest. -/
theorem ofLength_merge {ds es : List Definition} (hds : LongestFirst ds) (n : Nat) :
    ofLength n (ds.merge es fun d e => e.length ≤ d.length) = ofLength n ds ++ ofLength n es := by
  induction ds generalizing es with
  | nil =>
    rw [List.nil_merge]
    rfl
  | cons d ds ih =>
    induction es with
    | nil =>
      rw [List.merge_right]
      exact (List.append_nil _).symm
    | cons e es ihes =>
      by_cases hle : e.length ≤ d.length
      · rw [List.cons_merge_cons_pos _ _ _ (decide_eq_true hle), ofLength_cons, ofLength_cons n d,
          ih (longestFirst_cons_iff.mp hds).2]
        split_ifs
        · rfl
        · rfl
      · rw [List.cons_merge_cons_neg _ _ _ (by simpa using hle), ofLength_cons, ofLength_cons n e,
          ihes]
        split_ifs with hn
        · -- a function that is longer than the first of a list is longer than all of it
          have hnone : ofLength n (d :: ds) = [] := by
            refine List.eq_nil_iff_forall_not_mem.mpr fun f hf => ?_
            obtain ⟨hmem, hf⟩ := mem_ofLength_iff.mp hf
            have hfd : f.length ≤ d.length := hds.length_le_head hmem
            omega
          rw [hnone, List.nil_append, List.nil_append]
        · rfl

/-- **The ranking of two lists,** one behind the other, is the merge of their rankings. -/
theorem byLength_append (ds es : List Definition) :
    byLength (ds ++ es) = (byLength ds).merge (byLength es) fun d e => e.length ≤ d.length := by
  have hmerge : ((byLength ds).merge (byLength es) fun d e => e.length ≤ d.length).Pairwise
      fun d e => decide (e.length ≤ d.length) = true :=
    List.pairwise_merge longerFirst_trans longerFirst_total _ _
      ((longestFirst_byLength ds).imp decide_eq_true)
      ((longestFirst_byLength es).imp decide_eq_true)
  refine eq_of_ofLength_eq (longestFirst_byLength _) (hmerge.imp of_decide_eq_true) ?_
  intro n
  rw [ofLength_merge (longestFirst_byLength ds), ofLength_byLength, ofLength_byLength,
    ofLength_byLength, ofLength_append]

/-- The first `k` of a merge come from the first `k` on either side, so it does not matter what is
cut off behind them. -/
theorem take_merge {α : Type} (le : α → α → Bool) {k m n : Nat} (hm : k ≤ m) (hn : k ≤ n)
    (xs ys : List α) :
    ((xs.take m).merge (ys.take n) le).take k = (xs.merge ys le).take k := by
  induction k generalizing m n xs ys with
  | zero => rw [List.take_zero, List.take_zero]
  | succ k ih =>
    obtain ⟨m, rfl⟩ : ∃ m', m = m' + 1 := ⟨m - 1, by omega⟩
    obtain ⟨n, rfl⟩ : ∃ n', n = n' + 1 := ⟨n - 1, by omega⟩
    cases xs with
    | nil => rw [List.take_nil, List.nil_merge, List.nil_merge, List.take_take, Nat.min_eq_left hn]
    | cons x xs =>
      cases ys with
      | nil =>
        rw [List.take_nil, List.merge_right, List.merge_right, List.take_take, Nat.min_eq_left hm]
      | cons y ys =>
        rw [List.take_succ_cons, List.take_succ_cons, List.cons_merge_cons, List.cons_merge_cons]
        -- one side gives its first element, and the other is left as it is
        split_ifs
        · have hrest := ih (m := m) (n := n + 1) (by omega) (by omega) xs (y :: ys)
          rw [List.take_succ_cons] at hrest
          rw [List.take_succ_cons, List.take_succ_cons, hrest]
        · have hrest := ih (m := m + 1) (n := n) (by omega) (by omega) (x :: xs) ys
          rw [List.take_succ_cons] at hrest
          rw [List.take_succ_cons, List.take_succ_cons, hrest]

/-! ## 3. Summaries of parts -/

namespace Summary

/-- What the whole lists is what is listed of the functions that the parts list. -/
theorem longest_append (ds es : List Definition) (limit threshold : Nat) :
    (ofDefinitions (ds ++ es) limit threshold).longest =
      (ofDefinitions ((ofDefinitions ds limit threshold).longest ++
        (ofDefinitions es limit threshold).longest) limit threshold).longest := by
  have hlisted : byLength ((byLength ds).take limit ++ (byLength es).take limit) =
      ((byLength ds).take limit).merge ((byLength es).take limit)
        fun d e => e.length ≤ d.length := by
    rw [byLength_append, ((longestFirst_byLength ds).take limit).byLength_eq,
      ((longestFirst_byLength es).take limit).byLength_eq]
  simp only [longest_ofDefinitions]
  calc (byLength (ds ++ es)).take limit
      = ((byLength ds).merge (byLength es) fun d e => e.length ≤ d.length).take limit := by
        rw [byLength_append]
    _ = (((byLength ds).take limit).merge ((byLength es).take limit)
          fun d e => e.length ≤ d.length).take limit :=
        (take_merge _ (Nat.le_refl _) (Nat.le_refl _) _ _).symm
    _ = (byLength ((byLength ds).take limit ++ (byLength es).take limit)).take limit := by
        rw [hlisted]

/-- The long functions of the whole are those of the parts. -/
theorem tooLong_append (ds es : List Definition) (limit threshold : Nat) :
    (ofDefinitions (ds ++ es) limit threshold).tooLong =
      (ofDefinitions ds limit threshold).tooLong + (ofDefinitions es limit threshold).tooLong :=
  List.countP_append

/-- **Summaries of parts can be put together.** The functions that a summary of the whole lists are
found by ranking those that the summaries of the parts list, in the order of the parts. The numbers
of all functions and of the long ones add up, and the whole fails when a part does. And with a
higher limit a summary lists what it listed before, and then more. -/
theorem ofDefinitions_append (ds es : List Definition) (limit threshold : Nat) :
    (ofDefinitions (ds ++ es) limit threshold).longest =
      (ofDefinitions ((ofDefinitions ds limit threshold).longest ++
        (ofDefinitions es limit threshold).longest) limit threshold).longest ∧
    (ofDefinitions (ds ++ es) limit threshold).total =
      (ofDefinitions ds limit threshold).total + (ofDefinitions es limit threshold).total ∧
    (ofDefinitions (ds ++ es) limit threshold).tooLong =
      (ofDefinitions ds limit threshold).tooLong + (ofDefinitions es limit threshold).tooLong ∧
    ((ofDefinitions (ds ++ es) limit threshold).verdict = .failed ↔
      (ofDefinitions ds limit threshold).verdict = .failed ∨
        (ofDefinitions es limit threshold).verdict = .failed) ∧
    ∀ limit', limit ≤ limit' →
      (ofDefinitions ds limit threshold).longest <+:
        (ofDefinitions ds limit' threshold).longest := by
  have hlong := tooLong_append ds es limit threshold
  refine ⟨longest_append ds es limit threshold, List.length_append, hlong, ?_, ?_⟩
  · rw [verdict_eq_failed_iff, verdict_eq_failed_iff, verdict_eq_failed_iff, hlong]
    omega
  · intro limit' hle
    exact List.take_prefix_take_left hle

/-- A function of this length at this path. -/
def functionAt (length : Nat) (path : String) : Definition :=
  { name := "f", firstLine := 1, length, path }

/-- Three functions of two lines. -/
def shortPart : List Definition :=
  [functionAt 2 "a.c", functionAt 2 "b.c", functionAt 2 "c.c"]

/-- A long function, and a fourth one of two lines. -/
def longPart : List Definition :=
  [functionAt 200 "d.c", functionAt 2 "e.c"]

/-- Of the four functions of two lines the first one is listed, behind the long one. The numbers add
up, and the whole fails since the second part does, although the first one passes. With a limit of 3
the list of the first part begins as it does with a limit of 2. -/
theorem ofDefinitions_append_tied :
    2 ≤ 3 ∧
      (ofDefinitions (shortPart ++ longPart) 2 150).longest =
        [functionAt 200 "d.c", functionAt 2 "a.c"] ∧
      (ofDefinitions (shortPart ++ longPart) 2 150).total = 3 + 2 ∧
      (ofDefinitions (shortPart ++ longPart) 2 150).tooLong = 0 + 1 ∧
      (ofDefinitions shortPart 2 150).verdict = .passed ∧
      (ofDefinitions (shortPart ++ longPart) 2 150).verdict = .failed ∧
      [functionAt 2 "a.c", functionAt 2 "b.c"] <+: (ofDefinitions shortPart 3 150).longest := by
  have hfirst : LongestFirst shortPart := by decide
  have hsecond : LongestFirst longPart := by decide
  have hshort : (ofDefinitions shortPart 2 150).longest = shortPart.take 2 :=
    longest_of_longestFirst hfirst 2 150
  have hlong : (ofDefinitions longPart 2 150).longest = longPart :=
    longest_of_longestFirst hsecond 2 150
  -- the functions that the parts list, ranked together
  have hmerged : byLength (shortPart.take 2 ++ longPart) =
      [functionAt 200 "d.c", functionAt 2 "a.c", functionAt 2 "b.c", functionAt 2 "e.c"] := by
    rw [byLength_append, (hfirst.take 2).byLength_eq, hsecond.byLength_eq]
    simp [shortPart, longPart, functionAt]
  obtain ⟨hlongest, htotal, htooLong, hverdict, hprefix⟩ :=
    ofDefinitions_append shortPart longPart 2 150
  refine ⟨by decide, ?_, htotal, htooLong, by decide, hverdict.mpr (Or.inr (by decide)), ?_⟩
  · rw [hlongest, hshort, hlong, longest_ofDefinitions, hmerged]
    rfl
  · have hbegins := hprefix 3 (by decide)
    rw [hshort] at hbegins
    exact hbegins

end Summary

end LongFunctions
