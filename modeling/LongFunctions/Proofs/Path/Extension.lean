/-
What it means for a name to have an extension.

A name has an extension when it can be written as a stem that is not empty, a dot, and the
extension, which holds no dot. There is at most one way to write it so, and `extension?` finds it
(`extension?_eq_some_iff`). For a path only the last name counts (`Path.hasExtension_iff`), and in
the text of a path that is the last part that says something about where the path leads
(`hasExtension_spec`).
-/
import Mathlib.Data.List.DropRight
import LongFunctions.Path
import LongFunctions.Proofs.Path.Text
import LongFunctions.Proofs.Text.Runs

set_option autoImplicit false

namespace LongFunctions

/-- Whether a name is a stem that is not empty, a dot and this extension. -/
def HasExtension (name ext : String) : Prop :=
  ∃ stem : String, stem ≠ "" ∧ name = stem ++ "." ++ ext ∧ '.' ∉ ext.toList

/-- The extension is what stands behind the last dot, unless this dot opens the name. -/
theorem extension?_eq_some_iff (name ext : List Char) :
    extension? name = some ext ↔ ∃ stem, stem ≠ [] ∧ name = stem ++ '.' :: ext ∧ '.' ∉ ext := by
  rw [extension?]
  constructor
  · intro h
    split at h
    · cases h
    · cases h
    · next c d rest hdrop =>
      -- behind the first dot from the right there is a stem, since the dot does not open the name
      obtain ⟨-, hname⟩ := eq_append_of_dropWhile_ne hdrop
      refine ⟨(d :: rest).reverse, by simp, ?_, ?_⟩
      · refine List.reverse_inj.mp (hname.trans ?_)
        rw [← Option.some.inj h]
        simp
      · rw [← Option.some.inj h, List.mem_reverse]
        exact not_mem_takeWhile_ne _ _
  · rintro ⟨stem, hstem, rfl, hext⟩
    obtain ⟨d, rest, hreverse⟩ := List.exists_cons_of_ne_nil (List.reverse_ne_nil_iff.mpr hstem)
    have hname : (stem ++ '.' :: ext).reverse = ext.reverse ++ '.' :: d :: rest := by
      simp [hreverse]
    -- from the right end, the first dot is the one between stem and extension
    have hdotless : '.' ∉ ext.reverse := mt List.mem_reverse.mp hext
    rw [hname, dropWhile_ne_append hdotless, takeWhile_ne_append hdotless, List.reverse_reverse]

theorem hasExtension_iff_extension? (name ext : String) :
    HasExtension name ext ↔ extension? name.toList = some ext.toList := by
  have hdot : ".".toList = ['.'] := rfl
  rw [extension?_eq_some_iff, HasExtension]
  constructor
  · rintro ⟨stem, hstem, rfl, hext⟩
    refine ⟨stem.toList, fun hnil => hstem (String.toList_inj.mp hnil), ?_, hext⟩
    rw [String.toList_append, String.toList_append, hdot, List.append_assoc, List.singleton_append]
  · rintro ⟨stem, hstem, hname, hext⟩
    have hne : String.ofList stem ≠ "" := by
      intro hempty
      have htoList := congrArg String.toList hempty
      rw [String.toList_ofList] at htoList
      exact hstem htoList
    refine ⟨String.ofList stem, hne, ?_, hext⟩
    rw [← String.toList_inj, hname, String.toList_append, String.toList_append,
      String.toList_ofList, hdot, List.append_assoc, List.singleton_append]

/-- A path has the extension of its last part, if this is a name. -/
theorem Path.hasExtension_iff (path : Path) (ext : String) :
    path.hasExtension ext = true ↔
      ∃ name, path.parts.getLast? = some name ∧ name ≠ ".." ∧ HasExtension name ext := by
  simp only [hasExtension_iff_extension?]
  rw [hasExtension, fileName?]
  cases path.parts.getLast? with
  | none => simp
  | some name =>
    rw [Option.filter_some]
    by_cases hname : name = ".."
    · simp [hname]
    · simp [hname]

/-- A path below a root has the extension of the last name. -/
theorem Path.hasExtension_below {root : Path} {names : List String} {last ext : String}
    (hlast : names.getLast? = some last) (hname : last ≠ "..") :
    (root.below names).hasExtension ext = true ↔ HasExtension last ext := by
  have hparts : (root.below names).parts.getLast? = some last := by
    rw [below, List.getLast?_append, hlast, Option.some_or]
  rw [hasExtension_iff, hparts]
  constructor
  · rintro ⟨name, hsome, -, hext⟩
    rwa [Option.some.inj hsome]
  · intro hext
    exact ⟨last, rfl, hname, hext⟩

/-! ## The last part of a text -/

/-- Whether a part of a text says nothing about where the path leads. -/
def SaysNothing (part : String) : Prop :=
  part = "" ∨ part = "."

instance : DecidablePred SaysNothing := fun part =>
  inferInstanceAs (Decidable (part = "" ∨ part = "."))

/-- The last part of the text of a path, without the parts at the end that say nothing. -/
def lastPart? (text : String) : Option String :=
  ((slashParts text).rdropWhile (SaysNothing ·)).getLast?

theorem lastPart?_eq_find? (text : String) :
    lastPart? text = (slashParts text).reverse.find? fun part => !decide (SaysNothing part) := by
  rw [lastPart?, List.rdropWhile, List.getLast?_reverse, List.find?_eq_head?_dropWhile_not]
  simp only [Bool.not_not]

/-- The last part of a text is the last one of its path. -/
theorem getLast?_parts_ofString (text : String) :
    (Path.ofString text).parts.getLast? = lastPart? text := by
  have hkeep : (fun part : String => decide (part ≠ "" ∧ part ≠ ".")) =
      fun part => !decide (SaysNothing part) := by
    funext part
    rw [← decide_not, decide_eq_decide, SaysNothing, not_or]
  rw [lastPart?_eq_find?, Path.ofString, List.getLast?_filter, hkeep]

/-- Behind a slash, a text that says something has its own last part, and one that says nothing
leaves the last part in front of the slash. -/
theorem lastPart?_append (front behind : String) :
    lastPart? (front ++ "/" ++ behind) = (lastPart? behind).or (lastPart? front) := by
  simp only [lastPart?_eq_find?]
  rw [slashParts_append, List.reverse_append, List.find?_append]

/-- The texts of two paths with the same last part have the same extensions. -/
theorem hasExtension_congr {text other : String} (h : lastPart? text = lastPart? other)
    (ext : String) :
    (Path.ofString text).hasExtension ext = (Path.ofString other).hasExtension ext := by
  rw [Bool.eq_iff_iff, Path.hasExtension_iff, Path.hasExtension_iff, getLast?_parts_ofString,
    getLast?_parts_ofString, h]

/-- **Extensions.** The text of a path has an extension when its last part, apart from empty parts
and dots at the end, is a name that has it. So a slash at the end, or a slash and a dot, makes no
difference, nor does what stands in front of a text that has a last part. -/
theorem hasExtension_spec :
    (∀ text ext : String, (Path.ofString text).hasExtension ext = true ↔
      ∃ name, lastPart? text = some name ∧ name ≠ ".." ∧ HasExtension name ext) ∧
    (∀ text ext : String,
      (Path.ofString (text ++ "/")).hasExtension ext = (Path.ofString text).hasExtension ext ∧
      (Path.ofString (text ++ "/.")).hasExtension ext = (Path.ofString text).hasExtension ext) ∧
    (∀ text other ext : String, lastPart? text = lastPart? other →
      (Path.ofString text).hasExtension ext = (Path.ofString other).hasExtension ext) ∧
    ∀ directory text ext : String, lastPart? text ≠ none →
      (Path.ofString (directory ++ "/" ++ text)).hasExtension ext =
        (Path.ofString text).hasExtension ext := by
  refine ⟨?_, ?_, ?_, ?_⟩
  · intro text ext
    rw [Path.hasExtension_iff, getLast?_parts_ofString]
  · intro text ext
    have hend (ending : String) (hnone : lastPart? ending = none) :
        lastPart? (text ++ "/" ++ ending) = lastPart? text := by
      rw [lastPart?_append, hnone, Option.none_or]
    have hempty := hend "" (by decide)
    have hdot := hend "." (by decide)
    rw [String.append_empty] at hempty
    rw [String.append_assoc] at hdot
    exact ⟨hasExtension_congr hempty ext, hasExtension_congr hdot ext⟩
  · intro text other ext h
    exact hasExtension_congr h ext
  · intro directory text ext h
    refine hasExtension_congr ?_ ext
    obtain ⟨name, hname⟩ := Option.ne_none_iff_exists'.mp h
    rw [lastPart?_append, hname, Option.some_or]

/-- A dot that opens a name is no extension, with a dot behind it or not, and an extension of the
directory in front is none of the file. -/
theorem hasExtension_spec_dots :
    lastPart? ".c/." = lastPart? ".c" ∧ lastPart? "..c/." ≠ none ∧
      (Path.ofString ".c/.").hasExtension "c" = false ∧
      (Path.ofString ("a.h" ++ "/" ++ "..c/.")).hasExtension "c" = true := by
  have hsame : lastPart? ".c/." = lastPart? ".c" := by decide +kernel
  have hsome : lastPart? "..c/." ≠ none := by decide +kernel
  obtain ⟨-, -, hcongr, hdirectory⟩ := hasExtension_spec
  refine ⟨hsame, hsome, ?_, ?_⟩
  · rw [hcongr _ _ _ hsame]
    decide +kernel
  · rw [hdirectory _ _ _ hsome]
    decide +kernel

end LongFunctions
