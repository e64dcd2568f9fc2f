/-
The normal form of the text of a path.

A text says whether its path starts at the root, and which parts it goes through. There are many
texts that say the same, and `Path.normalize` takes one for all of them: that of the clean path,
which is read back as it was written. So everything about the normal form follows from the text of
a clean path. Between its slashes stand its parts and nothing else, apart from an empty stretch in
front of the first slash when the path starts at the root (`Path.Clean.slashParts_toString`).

A survey reads the path of its root and not the text, so it does not see which of the texts was
given (`normalize_canonical`).
-/
import LongFunctions.Survey
import LongFunctions.Proofs.Path.Text

set_option autoImplicit false

namespace LongFunctions

/-! ## 1. Slashes without parts between them -/

/-- A text without an empty stretch behind its first one has no slash behind another. -/
theorem not_infix_of_tail {text : String} (h : "" ∉ (slashParts text).tail) :
    ¬ "//".toList <:+: text.toList := by
  rintro ⟨front, behind, hsplit⟩
  have htext : text = String.ofList front ++ "/" ++ ("" ++ "/" ++ String.ofList behind) := by
    rw [← String.toList_inj, ← hsplit]
    simp
  refine h ?_
  rw [htext, slashParts_append, slashParts_append, List.tail_append_of_ne_nil (slashParts_ne_nil _)]
  exact List.mem_append_right _ (List.mem_append_left _ (by decide))

/-- A text without an empty stretch behind its first one does not end in a slash. -/
theorem not_suffix_of_tail {text : String} (h : "" ∉ (slashParts text).tail) :
    ¬ "/".toList <:+ text.toList := by
  rintro ⟨front, hsplit⟩
  have htext : text = String.ofList front ++ "/" ++ "" := by
    rw [← String.toList_inj, ← hsplit]
    simp
  refine h ?_
  rw [htext, slashParts_append, List.tail_append_of_ne_nil (slashParts_ne_nil _)]
  exact List.mem_append_right _ (by decide)

/-! ## 2. The text of a clean path -/

/-- Whether a text has no dot among its parts, no slash behind another and no slash at its end, but
perhaps the one of the root. -/
structure IsNormal (text : String) : Prop where
  no_dot : "." ∉ slashParts text
  no_double_slash : ¬ "//".toList <:+: text.toList
  no_slash_at_end : text = "/" ∨ ¬ "/".toList <:+ text.toList

namespace Path

/-- The text of a clean path is a dot, or it is normal. -/
theorem Clean.isNormal {path : Path} (h : path.Clean) :
    path.toString = "." ∨ IsNormal path.toString := by
  by_cases hne : path.parts = []
  · -- the two paths without parts are `/` and `.`
    obtain ⟨absolute, parts⟩ := path
    cases hne
    cases absolute with
    | true => exact Or.inr ⟨by decide +kernel, by decide +kernel, Or.inl (by decide +kernel)⟩
    | false => exact Or.inl rfl
  · right
    have hslashes := h.slashParts_toString hne
    have hmem {part : String} (hpart : part ∈ path.parts) : part ≠ "" ∧ part ≠ "." :=
      ⟨(h part hpart).1, (h part hpart).2.1⟩
    have htail : "" ∉ (slashParts path.toString).tail := by
      rw [hslashes]
      split_ifs
      · exact fun hempty => (hmem hempty).1 rfl
      · exact fun hempty => (hmem (List.mem_of_mem_tail hempty)).1 rfl
    refine ⟨?_, not_infix_of_tail htail, Or.inr (not_suffix_of_tail htail)⟩
    rw [hslashes]
    intro hdot
    rcases List.mem_append.mp hdot with hlead | hdot
    · split_ifs at hlead
      · exact absurd hlead (by decide)
      · cases hlead
    · exact (hmem hdot).2 rfl

end Path

/-! ## 3. Texts of one path -/

/-- The parts of a text that say where its path leads: all but the empty ones and the dots. -/
def tellingParts (text : String) : List String :=
  (slashParts text).filter fun part => part ≠ "" ∧ part ≠ "."

/-- The normal form of a text has the path of the text. -/
theorem ofString_normalize (text : String) :
    Path.ofString (Path.normalize text) = Path.ofString text :=
  Path.ofString_toString (Path.clean_ofString text)

/-- Two texts are texts of one path when they agree on the root and on the parts that tell. -/
theorem ofString_eq_iff (text other : String) :
    Path.ofString text = Path.ofString other ↔
      startsAtRoot text = startsAtRoot other ∧ tellingParts text = tellingParts other := by
  rw [Path.ofString, Path.ofString, Path.mk.injEq]
  rfl

/-- A listing reads the path of its root. -/
theorem FileSystem.listing_congr (fs : FileSystem) {text other : String}
    (h : Path.ofString text = Path.ofString other) (ext : String) :
    fs.listing text ext = fs.listing other ext := by
  unfold listing
  rw [h]

/-- So does a survey. -/
theorem FileSystem.survey_congr (fs : FileSystem) {text other : String}
    (h : Path.ofString text = Path.ofString other) : fs.survey text = fs.survey other := by
  unfold survey
  rw [fs.listing_congr h]

/-- **The normal form.** It is the dot or a normal text, says of the root and of the parts what the
text says, and is its own normal form. Two texts have the same one when they say the same of the
root and of the parts; then a survey of either leaves the same behind on every file system. -/
theorem normalize_canonical :
    (∀ text : String,
      (Path.normalize text = "." ∨ IsNormal (Path.normalize text)) ∧
      startsAtRoot (Path.normalize text) = startsAtRoot text ∧
      tellingParts (Path.normalize text) = tellingParts text ∧
      Path.normalize (Path.normalize text) = Path.normalize text) ∧
    ∀ text other : String,
      (Path.normalize text = Path.normalize other ↔
        startsAtRoot text = startsAtRoot other ∧ tellingParts text = tellingParts other) ∧
      (Path.normalize text = Path.normalize other → ∀ (fs : FileSystem) (json : Bool),
        (fs.survey text).outcome json = (fs.survey other).outcome json) := by
  have hiff (text other : String) : Path.normalize text = Path.normalize other ↔
      Path.ofString text = Path.ofString other :=
    (Path.clean_ofString text).toString_inj (Path.clean_ofString other)
  refine ⟨?_, ?_⟩
  · intro text
    have hpath := ofString_normalize text
    obtain ⟨hroot, hparts⟩ := (ofString_eq_iff _ _).mp hpath
    exact ⟨(Path.clean_ofString text).isNormal, hroot, hparts, (hiff _ _).mpr hpath⟩
  · intro text other
    refine ⟨(hiff text other).trans (ofString_eq_iff text other), ?_⟩
    intro h fs json
    rw [fs.survey_congr ((hiff text other).mp h)]

/-- Two texts with the parts `..c` and `..`, both of which are more than a dot. -/
theorem normalize_canonical_dots :
    Path.normalize ".//..c/.." = Path.normalize "..c/./../" ∧
      ∀ (fs : FileSystem) (json : Bool),
        (fs.survey ".//..c/..").outcome json = (fs.survey "..c/./../").outcome json := by
  have hsame : Path.normalize ".//..c/.." = Path.normalize "..c/./../" := by decide +kernel
  exact ⟨hsame, (normalize_canonical.2 _ _).2 hsame⟩

end LongFunctions
