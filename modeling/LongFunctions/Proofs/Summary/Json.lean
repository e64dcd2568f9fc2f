/-
The JSON document of a summary, read back.

Names and paths come from the files that were searched, and may hold whatever a file name may hold.
The document keeps all of it: whoever reads it comes to one value, and this value has each field of
the summary that is reported, character for character (`toJsonText_faithful`).

That a document holds one value, and that the pretty form of a value holds this value, is known of
every value (`document_pretty_iff`). What is left is about the summary alone: that its fields can be
told from the value.
-/
import LongFunctions.Proofs.Json.Pretty
import LongFunctions.Summary

set_option autoImplicit false

namespace LongFunctions

theorem Verdict.word_injective : Function.Injective Verdict.word := by
  intro v v' h
  cases v <;> cases v' <;> simp_all [Verdict.word]

namespace Summary

open Json (Value Document)

/-! ## 1. What the document holds -/

/-- The value for a listed function with its rank. -/
def entryValue (d : Definition) (rank : ℕ) : Value :=
  .object
    [("rank", .number rank), ("name", .string d.name), ("path", .string d.path),
     ("start_line", .number d.firstLine), ("length", .number d.length)]

/-- The value for a summary. The `i`-th of the listed functions, counted from zero, has rank
`i + 1`. -/
def toValue (summary : Summary) : Value :=
  .object
    [("threshold", .number summary.threshold), ("total_functions", .number summary.total),
     ("long_functions", .number summary.tooLong), ("status", .string summary.verdict.word),
     ("top", .array (summary.longest.mapIdx fun i d => entryValue d (i + 1)))]

/-- The functions with their ranks, as the document lists them. -/
theorem map_listed {β : Type} (summary : Summary) (f : Definition × ℕ → β) :
    summary.listed.map f = summary.longest.mapIdx fun i d => f (d, i + 1) := by
  rw [listed, List.zipIdx_succ, List.map_map, List.mapIdx_eq_zipIdx_map]
  rfl

theorem value_toJson (summary : Summary) : summary.toJson.value = summary.toValue := by
  have hentries : ∀ entry : Definition × ℕ,
      (entryJson entry).value = entryValue entry.1 entry.2 := by
    intro entry
    simp [entryJson, entryValue, Json.value, Json.valueFields]
  have hlisted : (summary.listed.map entryJson).map Json.value =
      summary.longest.mapIdx fun i d => entryValue d (i + 1) := by
    rw [List.map_map, ← map_listed summary fun entry => entryValue entry.1 entry.2]
    exact List.map_congr_left fun entry _ => hentries entry
  simp [toJson, toValue, Json.value, Json.valueFields, Json.valueItems_eq_map, hlisted]

theorem document_toJsonText_iff (summary : Summary) (v : Value) :
    Document summary.toJsonText v ↔ v = summary.toValue := by
  rw [toJsonText, Json.document_pretty_iff (List.all_eq_true.mp rfl), value_toJson]

/-! ## 2. What can be told from it -/

/-- The value for a function tells the function and its rank. -/
theorem entryValue_inj {entry entry' : Definition × ℕ}
    (h : entryValue entry.1 entry.2 = entryValue entry'.1 entry'.2) : entry = entry' := by
  obtain ⟨⟨⟨name, firstLine, length⟩, path⟩, rank⟩ := entry
  obtain ⟨⟨⟨name', firstLine', length'⟩, path'⟩, rank'⟩ := entry'
  simp only [entryValue, Value.object.injEq, List.cons.injEq, Prod.mk.injEq, Value.number.injEq,
    Value.string.injEq, Nat.cast_inj, true_and, and_true] at h
  obtain ⟨rfl, rfl, rfl, rfl, rfl⟩ := h
  rfl

/-- The value for a summary tells the fields that are reported. -/
theorem toValue_inj {summary summary' : Summary} (h : summary.toValue = summary'.toValue) :
    summary.threshold = summary'.threshold ∧ summary.total = summary'.total ∧
      summary.tooLong = summary'.tooLong ∧ summary.verdict = summary'.verdict ∧
      summary.longest = summary'.longest := by
  simp only [toValue, Value.object.injEq, List.cons.injEq, Prod.mk.injEq, Value.number.injEq,
    Value.string.injEq, Value.array.injEq, Nat.cast_inj, true_and, and_true] at h
  obtain ⟨hthreshold, htotal, htooLong, hword, hentries⟩ := h
  have hlisted : summary.listed = summary'.listed := by
    apply List.map_injective_iff.mpr fun _ _ => entryValue_inj
    rw [map_listed, map_listed]
    exact hentries
  have hlongest : ∀ s : Summary, s.listed.map Prod.fst = s.longest :=
    fun s => List.zipIdx_map_fst 1 s.longest
  exact ⟨hthreshold, htotal, htooLong, Verdict.word_injective hword,
    by rw [← hlongest summary, hlisted, hlongest]⟩

/-! ## 3. The document -/

/-- **The JSON text of a summary loses nothing.** Whatever the names and paths in a summary are, and
however many functions it lists, its text is a document that holds one value: the object with the
threshold, the two counts, the verdict and the list of the functions, each with its rank, its name,
its path and its numbers. So summaries with one text agree in all of this. -/
theorem toJsonText_faithful (summary : Summary) :
    (∀ v, Document summary.toJsonText v ↔ v = summary.toValue) ∧
      ∀ other : Summary, other.toJsonText = summary.toJsonText →
        other.threshold = summary.threshold ∧ other.total = summary.total ∧
          other.tooLong = summary.tooLong ∧ other.verdict = summary.verdict ∧
          other.longest = summary.longest := by
  refine ⟨summary.document_toJsonText_iff, ?_⟩
  intro other htext
  -- the document of the one is the document of the other
  have hother := (other.document_toJsonText_iff _).mpr rfl
  rw [htext, document_toJsonText_iff] at hother
  exact toValue_inj hother

end Summary

end LongFunctions
