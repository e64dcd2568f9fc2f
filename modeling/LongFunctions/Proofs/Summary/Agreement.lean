/-
What the parts of a summary say of the same thing.

Whether a function is too long is told in five places: by the list, by the number of long functions,
by the verdict, by the last line of the text and by two fields of the JSON document. The list is cut
before it is shown, and the number is taken from all functions, so the two are not made from each
other. Still no part contradicts another one (`Summary.ofDefinitions_agrees`).

Between the list and the number it is the order that does it. Functions that go from the longest to
the shortest are the long ones and then the others (`LongestFirst.exists_long_append`), and cutting
such a list keeps long functions as far as it keeps anything. In the text, names and paths may hold
what they like, so a line of the list could be taken for the line that counts long functions. But
not at the end of the text, where the numeral of a line stands behind a dash, and that of the count
behind a word (`Summary.ends_in_countLine_iff`).
-/
import LongFunctions.Proofs.Summary.Json
import LongFunctions.Proofs.Summary.Ranking
import LongFunctions.Proofs.Summary.Text

set_option autoImplicit false

namespace LongFunctions

/-! ## 1. The list and the number of long functions -/

/-- Functions that go from the longest to the shortest are the long ones and then the others. -/
theorem LongestFirst.exists_long_append {definitions : List Definition}
    (h : LongestFirst definitions) (threshold : Nat) :
    ∃ long short : List Definition, definitions = long ++ short ∧
      (∀ d ∈ long, threshold < d.length) ∧ ∀ d ∈ short, d.length ≤ threshold := by
  induction definitions with
  | nil => exact ⟨[], [], rfl, List.forall_mem_nil _, List.forall_mem_nil _⟩
  | cons d ds ih =>
    by_cases hlong : threshold < d.length
    · obtain ⟨long, short, rfl, hlongs, hshorts⟩ := ih (longestFirst_cons_iff.mp h).2
      exact ⟨d :: long, short, rfl, List.forall_mem_cons.mpr ⟨hlong, hlongs⟩, hshorts⟩
    · refine ⟨[], d :: ds, rfl, List.forall_mem_nil _, ?_⟩
      intro e he
      have hle : e.length ≤ d.length := h.length_le_head he
      omega

namespace Summary

/-- A summary lists long functions first, as many of them as it may, and then others. -/
theorem exists_longest_eq_append (definitions : List Definition) (limit threshold : Nat) :
    ∃ long short : List Definition,
      (ofDefinitions definitions limit threshold).longest = long ++ short ∧
      (∀ d ∈ long, threshold < d.length) ∧ (∀ d ∈ short, d.length ≤ threshold) ∧
      long.length = min limit (ofDefinitions definitions limit threshold).tooLong := by
  obtain ⟨long, short, heq, hlong, hshort⟩ :=
    (longestFirst_byLength definitions).exists_long_append threshold
  -- the long functions are counted before the list is cut
  have hcount : (ofDefinitions definitions limit threshold).tooLong = long.length := by
    have hall : long.countP (·.isLong threshold) = long.length :=
      List.countP_eq_length.mpr fun d hd => decide_eq_true (hlong d hd)
    have hnone : short.countP (·.isLong threshold) = 0 := by
      refine List.countP_eq_zero.mpr fun d hd => ?_
      simpa [Definition.isLong] using hshort d hd
    show definitions.countP (·.isLong threshold) = long.length
    rw [← (byLength_perm definitions).countP_eq, heq, List.countP_append, hall, hnone, Nat.add_zero]
  refine ⟨long.take limit, short.take (limit - long.length), ?_, ?_, ?_, ?_⟩
  · rw [longest_ofDefinitions, heq, List.take_append]
  · intro d hd
    exact hlong d (List.mem_of_mem_take hd)
  · intro d hd
    exact hshort d (List.mem_of_mem_take hd)
  · rw [List.length_take, hcount]

/-! ## 2. The last line of the text -/

/-- The line that tells how many functions are too long, with the empty line in front of it. -/
def countLine (count threshold : Nat) : String :=
  "\nFound " ++ count.repr ++ " functions exceeding " ++ threshold.repr ++ " lines\n"

/-- The line behind other text, divided in front of its two numerals. -/
theorem append_toList_countLine (front : List Char) (count threshold : Nat) :
    front ++ (countLine count threshold).toList =
      (((front ++ "\nFound".toList) ++ ' ' :: count.repr.toList) ++
        " functions exceeding".toList ++ ' ' :: threshold.repr.toList) ++ " lines\n".toList := by
  simp [countLine]

/-- The line tells its two numbers, whatever stands in front of it. -/
theorem countLine_inj {front front' : List Char} {count count' threshold threshold' : Nat}
    (h : front ++ (countLine count threshold).toList =
      front' ++ (countLine count' threshold').toList) :
    count = count' ∧ threshold = threshold' := by
  rw [append_toList_countLine, append_toList_countLine] at h
  obtain ⟨hwords, hthreshold⟩ := append_cons_inj_right (not_mem_repr rfl _) (not_mem_repr rfl _)
    (List.append_cancel_right h)
  obtain ⟨-, hcount⟩ := append_cons_inj_right (not_mem_repr rfl _) (not_mem_repr rfl _)
    (List.append_cancel_right hwords)
  exact ⟨eq_of_toList_repr_eq hcount, eq_of_toList_repr_eq hthreshold⟩

/-- The line of a function, divided in front of its last numeral. -/
theorem exists_toList_entryText_eq (entry : Definition × Nat) :
    ∃ front : List Char, (entryText entry).toList =
      (front ++ ") -".toList ++ ' ' :: entry.1.length.repr.toList) ++ " lines\n".toList := by
  obtain ⟨d, rank⟩ := entry
  refine ⟨rank.repr.toList ++ ". ".toList ++ (d.name.toList ++ ' ' :: '(' ::
    (d.path.toList ++ ':' :: d.firstLine.repr.toList)), ?_⟩
  simp [toList_entryText, entryLine]

/-- A text that says nothing of long functions ends in its heading or in the line of a function. -/
theorem toText_ends {summary : Summary} (h : summary.tooLong = 0) :
    (∃ front : List Char, summary.toText.toList = front ++ ":\n".toList) ∨
      ∃ (front : List Char) (n : Nat), summary.toText.toList =
        (front ++ ") -".toList ++ ' ' :: n.repr.toList) ++ " lines\n".toList := by
  have hnothing : summary.longText.toList = [] := by simp [longText, h]
  rw [toList_toText, hnothing, List.append_nil]
  rcases List.eq_nil_or_concat' (summary.longest.zipIdx 1) with hnil | ⟨others, entry, hlast⟩
  · refine Or.inl ⟨"Top ".toList ++ (summary.limit.repr.toList ++ " longest functions".toList), ?_⟩
    rw [hnil]
    simp
  · obtain ⟨front, hentry⟩ := exists_toList_entryText_eq entry
    refine Or.inr ⟨"Top ".toList ++ (summary.limit.repr.toList ++ ' ' ::
      ("longest functions:\n".toList ++
        (others.flatMap (fun entry => (entryText entry).toList) ++ front))), entry.1.length, ?_⟩
    rw [hlast, List.flatMap_append, List.flatMap_singleton, hentry]
    simp only [List.append_assoc, List.cons_append]

/-- So it does not end in a line that counts long functions. -/
theorem toText_ne_append_countLine {summary : Summary} (h : summary.tooLong = 0)
    (front : List Char) (count threshold : Nat) :
    summary.toText.toList ≠ front ++ (countLine count threshold).toList := by
  rw [append_toList_countLine]
  rcases toText_ends h with ⟨before, hheading⟩ | ⟨before, n, hline⟩
  · rw [hheading]
    intro htext
    have hends := congrArg (fun chars => chars.reverse[1]?) htext
    simp at hends
  · rw [hline]
    intro htext
    -- the last numerals could be the same, but not the words in front of them
    obtain ⟨hwords, -⟩ := append_cons_inj_right (not_mem_repr rfl _) (not_mem_repr rfl _)
      (List.append_cancel_right htext)
    have hends := congrArg (fun chars => chars.reverse[0]?) hwords
    simp at hends

/-- A text that tells of long functions does so at its end. -/
theorem toText_eq_append_countLine {summary : Summary} (h : summary.tooLong ≠ 0) :
    summary.toText = ("Top " ++ summary.limit.repr ++ " longest functions:\n" ++
      String.join (summary.listed.map entryText)) ++
        countLine summary.tooLong summary.threshold := by
  rw [toText, longText, if_neg h, countLine]

/-- **The text ends in a line that counts long functions** exactly when there are some, and then in
no other than the one with their number and the threshold. -/
theorem ends_in_countLine_iff (summary : Summary) (count threshold : Nat) :
    (∃ front : String, summary.toText = front ++ countLine count threshold) ↔
      summary.tooLong ≠ 0 ∧ count = summary.tooLong ∧ threshold = summary.threshold := by
  constructor
  · rintro ⟨front, htext⟩
    have hchars : summary.toText.toList = front.toList ++ (countLine count threshold).toList := by
      rw [htext, String.toList_append]
    have hne : summary.tooLong ≠ 0 := fun hzero => toText_ne_append_countLine hzero _ _ _ hchars
    rw [toText_eq_append_countLine hne, String.toList_append] at hchars
    obtain ⟨hcount, hthreshold⟩ := countLine_inj hchars
    exact ⟨hne, hcount.symm, hthreshold.symm⟩
  · rintro ⟨hne, rfl, rfl⟩
    exact ⟨_, toText_eq_append_countLine hne⟩

/-! ## 3. What agrees -/

/-- Whether the parts of a summary agree, with this limit and this threshold. -/
structure Agrees (summary : Summary) (limit threshold : Nat) : Prop where
  /-- The listed functions that are too long are the first ones of the list. -/
  long_listed : summary.longest.filter (fun d => threshold < d.length) =
    summary.longest.take (min limit summary.tooLong)
  /-- There are as many of them as there are long functions, up to the limit. -/
  length_long_listed :
    (summary.longest.take (min limit summary.tooLong)).length = min limit summary.tooLong
  /-- The listed functions behind them are not too long. -/
  others_listed : ∀ d ∈ summary.longest.drop (min limit summary.tooLong), d.length ≤ threshold
  /-- The verdict is about the number of long functions. -/
  failed_iff : summary.verdict = .failed ↔ 0 < summary.tooLong
  /-- The verdict can be told from the first function that is listed, if any may be listed. -/
  failed_iff_first : (∃ d, summary.longest.head? = some d ∧ threshold < d.length) ↔
    0 < limit ∧ summary.verdict = .failed
  /-- The text ends in a line that counts long functions when the exit code is 1. The line tells
  their number and the threshold. -/
  text_iff : ∀ count bound,
    (∃ front : String, summary.toText = front ++ countLine count bound) ↔
      summary.verdict.exitCode = 1 ∧ count = summary.tooLong ∧ bound = threshold
  /-- The JSON document holds one value. Its status is `failed` when its number of long functions
  is not zero. -/
  json_iff : ∃ v, (∀ w, Json.Document summary.toJsonText w ↔ w = v) ∧
    v.field? "long_functions" = some (.number summary.tooLong) ∧
    ∃ status : String, v.field? "status" = some (.string status) ∧
      (status = "failed" ↔ summary.tooLong ≠ 0)

/-- **The parts of a summary agree.** Whatever functions are summed up, with every limit and every
threshold, the list, the number of long functions, the verdict, the exit code, the text and the JSON
document say the same of whether functions are too long. -/
theorem ofDefinitions_agrees (definitions : List Definition) (limit threshold : Nat) :
    (ofDefinitions definitions limit threshold).Agrees limit threshold := by
  obtain ⟨long, short, hlongest, hlong, hshort, hlength⟩ :=
    exists_longest_eq_append definitions limit threshold
  have hfailed := verdict_eq_failed_iff definitions limit threshold
  refine ⟨?_, ?_, ?_, hfailed, ?_, ?_, ?_⟩
  · have hall : long.filter (fun d => threshold < d.length) = long :=
      List.filter_eq_self.mpr fun d hd => decide_eq_true (hlong d hd)
    have hnone : short.filter (fun d => threshold < d.length) = [] := by
      refine List.filter_eq_nil_iff.mpr fun d hd => ?_
      simpa using hshort d hd
    rw [hlongest, ← hlength, List.filter_append, hall, hnone, List.append_nil, List.take_left]
  · rw [hlongest, ← hlength, List.take_left]
  · rw [hlongest, ← hlength, List.drop_left]
    exact hshort
  · rw [hfailed, hlongest]
    cases long with
    | nil =>
      rw [List.length_nil] at hlength
      refine iff_of_false ?_ (by omega)
      rintro ⟨d, hd, hlt⟩
      have hle : d.length ≤ threshold := hshort d (List.mem_of_head? hd)
      omega
    | cons d long =>
      rw [List.length_cons] at hlength
      exact iff_of_true ⟨d, rfl, hlong d List.mem_cons_self⟩ (by omega)
  · intro count bound
    rw [ends_in_countLine_iff, Verdict.exitCode_eq_one_iff, hfailed, Nat.pos_iff_ne_zero]
    rfl
  · refine ⟨_, document_toJsonText_iff _, rfl, _, rfl, ?_⟩
    rw [← Nat.pos_iff_ne_zero, ← hfailed]
    exact Verdict.word_injective.eq_iff' (b := .failed) rfl

end Summary

end LongFunctions
