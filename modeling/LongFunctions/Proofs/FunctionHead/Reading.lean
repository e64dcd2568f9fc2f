/-
Function heads as a composition of parts.

A line is a function head when it can be put together from parts: storage, type, gap, star, name,
space, the arguments in parentheses, a tail and a brace. `Before` has the parts in front of the
opening parenthesis and `Behind` those behind it, each with what it may consist of; `Reading` is
both. Nothing in these structures says how the parts are to be found.

Main statement: `headName?` finds a name in a line exactly when the line does not start with
`typedef` and has a reading with this name; all readings of a line agree on the name, which is the
run of word characters that ends at the white space before the first parenthesis (`headName?_spec`).

A reading is taken apart from its ends. No part before the parenthesis can hold a parenthesis, so
the first one of the line is the one before the arguments; and in front of it every run of one kind
halts at its neighbour, so reading from the right gives each part back. The other way, the runs that
`nameBefore?` takes are parts, because they are runs.
-/
import LongFunctions.Proofs.Text.Runs
import LongFunctions.FunctionHead

set_option autoImplicit false

namespace LongFunctions

namespace FunctionHead

/-! ## 1. The parts of a line -/

/-- What stands before the opening parenthesis of a function head. -/
structure Before where
  storage : List Char
  type : List Char
  gap : List Char
  star : List Char
  name : List Char
  space : List Char
  storage_eq : storage = [] ∨
    ∃ blanks, blanks ≠ [] ∧ (∀ c ∈ blanks, isBlank c = true) ∧
      storage = "static".toList ++ blanks
  type_ne : type ≠ []
  type_word : ∀ c ∈ type, isWord c = true
  gap_ne : gap ≠ []
  gap_blank : ∀ c ∈ gap, isBlank c = true
  star_eq : star = [] ∨ star = ['*']
  name_ne : name ≠ []
  name_word : ∀ c ∈ name, isWord c = true
  space_blank : ∀ c ∈ space, isBlank c = true

/-- The text of the parts. -/
def Before.front (b : Before) : List Char :=
  b.storage ++ b.type ++ b.gap ++ b.star ++ b.name ++ b.space

/-- What stands behind the opening parenthesis of a function head. -/
structure Behind where
  arguments : List Char
  tail : List Char
  brace : List Char
  arguments_open : ')' ∉ arguments
  tail_blank : ∀ c ∈ tail, isBlank c = true
  brace_eq : brace = [] ∨ brace = ['{']

/-- The text of the parts. -/
def Behind.back (b : Behind) : List Char :=
  b.arguments ++ ')' :: (b.tail ++ b.brace)

/-- A reading of a line as a function head. -/
structure Reading extends Before, Behind

/-- The line that is read. -/
def Reading.text (r : Reading) : List Char :=
  r.front ++ '(' :: r.back

/-! ## 2. Behind the parenthesis -/

theorem isBodyStart_iff (text : List Char) :
    isBodyStart text = true ↔
      ∃ tail brace, (∀ c ∈ tail, isBlank c = true) ∧ (brace = [] ∨ brace = ['{']) ∧
        text = tail ++ brace := by
  rw [isBodyStart]
  constructor
  · intro h
    -- the tail is the longest run of white space, so that only the brace can be left
    refine ⟨text.takeWhile isBlank, text.dropWhile isBlank, fun c => List.mem_takeWhile_imp, ?_,
      List.takeWhile_append_dropWhile.symm⟩
    split at h
    · next hdrop => exact Or.inl hdrop
    · next hdrop => exact Or.inr hdrop
    · cases h
  · rintro ⟨tail, brace, htail, rfl | rfl, rfl⟩
    · rw [dropWhile_run htail Halts.nil]
    · rw [dropWhile_run htail (Halts.cons (by decide))]
      rfl

/-- The parts behind the parenthesis can be found exactly when they are there. -/
theorem closesArguments_iff (text : List Char) :
    closesArguments text = true ↔ ∃ b : Behind, b.back = text := by
  rw [closesArguments]
  constructor
  · intro h
    split at h
    · cases h
    · next c rest hdrop =>
      -- the arguments end at the first closing parenthesis, for they cannot hold one
      obtain ⟨-, htext⟩ := eq_append_of_dropWhile_ne hdrop
      obtain ⟨tail, brace, htail, hbrace, rfl⟩ := (isBodyStart_iff rest).mp h
      exact ⟨⟨text.takeWhile (· ≠ ')'), tail, brace, not_mem_takeWhile_ne _ _, htail, hbrace⟩,
        htext.symm⟩
  · rintro ⟨b, rfl⟩
    rw [Behind.back, dropWhile_ne_append b.arguments_open]
    exact (isBodyStart_iff _).mpr ⟨b.tail, b.brace, b.tail_blank, b.brace_eq, rfl⟩

/-! ## 3. Before the parenthesis -/

theorem isStorage_iff (text : List Char) :
    isStorage text = true ↔ text = [] ∨
      ∃ blanks, blanks ≠ [] ∧ (∀ c ∈ blanks, isBlank c = true) ∧
        text = "static".toList ++ blanks := by
  simp only [isStorage, Bool.or_eq_true, Bool.and_eq_true, Bool.not_eq_true', List.isEmpty_iff,
    List.isEmpty_eq_false_iff, List.isPrefixOf_iff_prefix, List.all_eq_true]
  constructor
  · rintro (hnil | ⟨⟨⟨blanks, rfl⟩, hne⟩, hblank⟩)
    · exact Or.inl hnil
    · exact Or.inr ⟨blanks, hne, hblank, rfl⟩
  · rintro (hnil | ⟨blanks, hne, hblank, rfl⟩)
    · exact Or.inl hnil
    · exact Or.inr ⟨⟨List.prefix_append _ _, hne⟩, hblank⟩

/-- Taking the star off a text leaves the text in front of which there was a star or nothing. -/
theorem exists_star_append_dropStar (text : List Char) :
    ∃ star, (star = [] ∨ star = ['*']) ∧ text = star ++ dropStar text := by
  rw [dropStar.eq_def]
  split
  · next rest => exact ⟨['*'], Or.inr rfl, rfl⟩
  · exact ⟨[], Or.inl rfl, rfl⟩

theorem dropStar_of_halts {text : List Char} (h : Halts (· = '*') text) : dropStar text = text := by
  rw [dropStar.eq_def]
  split
  · next rest => simpa using h '*' rfl
  · rfl

/-- The runs that are taken from the right end are the parts of the text. -/
theorem exists_before_of_nameBefore? {text name : List Char} (h : nameBefore? text = some name) :
    ∃ b : Before, b.front = text ∧ b.name = name := by
  simp only [nameBefore?] at h
  split at h
  · next hparts =>
    obtain ⟨hname, hgap, htype, hstorage⟩ := hparts
    obtain ⟨star, hstar, hstarred⟩ :=
      exists_star_append_dropStar ((text.reverse.dropWhile isBlank).dropWhile isWord)
    set named := text.reverse.dropWhile isBlank with hnamed
    set gapped := dropStar (named.dropWhile isWord) with hgapped
    set typed := gapped.dropWhile isBlank with htyped
    have hrun : ∀ (p : Char → Bool) (run : List Char),
        ∀ c ∈ (run.takeWhile p).reverse, p c = true := by
      intro p run c hc
      exact List.mem_takeWhile_imp (List.mem_reverse.mp hc)
    refine ⟨{
      storage := (typed.dropWhile isWord).reverse
      type := (typed.takeWhile isWord).reverse
      gap := (gapped.takeWhile isBlank).reverse
      star := star
      name := (named.takeWhile isWord).reverse
      space := (text.reverse.takeWhile isBlank).reverse
      storage_eq := (isStorage_iff _).mp hstorage
      type_ne := List.reverse_ne_nil_iff.mpr htype
      type_word := hrun isWord typed
      gap_ne := List.reverse_ne_nil_iff.mpr hgap
      gap_blank := hrun isBlank gapped
      star_eq := hstar
      name_ne := List.reverse_ne_nil_iff.mpr hname
      name_word := hrun isWord named
      space_blank := hrun isBlank text.reverse }, ?_, Option.some.inj h⟩
    -- put together again, from the right end to the left one
    have hstar' : star.reverse = star := by rcases hstar with rfl | rfl <;> rfl
    have htext : text.reverse = text.reverse.takeWhile isBlank ++
        (named.takeWhile isWord ++ (star ++ (gapped.takeWhile isBlank ++
          (typed.takeWhile isWord ++ typed.dropWhile isWord)))) := by
      rw [List.takeWhile_append_dropWhile, htyped, List.takeWhile_append_dropWhile, ← hstarred,
        List.takeWhile_append_dropWhile, hnamed, List.takeWhile_append_dropWhile]
    refine List.reverse_inj.mp (Eq.trans ?_ htext.symm)
    simp only [Before.front, List.reverse_append, List.reverse_reverse, hstar']
  · cases h

/-- The parts are found again from the right end: each run halts at the part in front of it. -/
theorem Before.nameBefore?_front (b : Before) : nameBefore? b.front = some b.name := by
  have hword : ∀ {run : List Char}, (∀ c ∈ run, isWord c = true) →
      ∀ c ∈ run, isBlank c = false := fun h c hc => isBlank_of_isWord (h c hc)
  have hblank : ∀ {run : List Char}, (∀ c ∈ run, isBlank c = true) →
      ∀ c ∈ run, isWord c = false := fun h c hc => isWord_of_isBlank (h c hc)
  have hreverse : ∀ {p : Char → Bool} {run : List Char}, (∀ c ∈ run, p c = true) →
      ∀ c ∈ run.reverse, p c = true := fun h c hc => h c (List.mem_reverse.mp hc)
  have hfront : b.front.reverse = b.space.reverse ++ (b.name.reverse ++ (b.star.reverse ++
      (b.gap.reverse ++ (b.type.reverse ++ b.storage.reverse)))) := by
    simp only [Before.front, List.reverse_append]
  -- from the left end to the right one, each run halts at its neighbour
  have hstorage : Halts isWord b.storage.reverse := by
    rcases b.storage_eq with hnil | ⟨blanks, hne, hblanks, heq⟩
    · rw [hnil]
      exact Halts.nil
    · rw [heq, List.reverse_append]
      exact Halts.reverse_append hne (hblank hblanks)
  have htype : Halts isBlank (b.type.reverse ++ b.storage.reverse) :=
    Halts.reverse_append b.type_ne (hword b.type_word)
  have hgap : Halts isWord (b.gap.reverse ++ (b.type.reverse ++ b.storage.reverse)) :=
    Halts.reverse_append b.gap_ne (hblank b.gap_blank)
  have hstar : Halts isWord
      (b.star.reverse ++ (b.gap.reverse ++ (b.type.reverse ++ b.storage.reverse))) := by
    rcases b.star_eq with heq | heq
    · rw [heq]
      exact hgap
    · rw [heq]
      exact Halts.cons (by decide +kernel)
  have hname : Halts isBlank (b.name.reverse ++ (b.star.reverse ++
      (b.gap.reverse ++ (b.type.reverse ++ b.storage.reverse)))) :=
    Halts.reverse_append b.name_ne (hword b.name_word)
  have hdrop : dropStar (b.star.reverse ++ (b.gap.reverse ++ (b.type.reverse ++ b.storage.reverse)))
      = b.gap.reverse ++ (b.type.reverse ++ b.storage.reverse) := by
    rcases b.star_eq with heq | heq
    · -- without a star the gap comes next, and white space is no star
      rw [heq, List.reverse_nil, List.nil_append]
      refine dropStar_of_halts (Halts.reverse_append b.gap_ne fun c hc => ?_)
      have hc' := b.gap_blank c hc
      rw [decide_eq_false_iff_not]
      rintro rfl
      exact absurd hc' (by decide)
    · rw [heq]
      rfl
  simp only [nameBefore?, hfront, dropWhile_run (hreverse b.space_blank) hname,
    takeWhile_run (hreverse b.name_word) hstar, dropWhile_run (hreverse b.name_word) hstar, hdrop,
    takeWhile_run (hreverse b.gap_blank) htype, dropWhile_run (hreverse b.gap_blank) htype,
    takeWhile_run (hreverse b.type_word) hstorage, dropWhile_run (hreverse b.type_word) hstorage,
    List.reverse_reverse]
  exact if_pos ⟨List.reverse_ne_nil_iff.mpr b.name_ne, List.reverse_ne_nil_iff.mpr b.gap_ne,
    List.reverse_ne_nil_iff.mpr b.type_ne, (isStorage_iff _).mpr b.storage_eq⟩

/-- No part before the parenthesis can hold a parenthesis. -/
theorem Before.not_paren (b : Before) : '(' ∉ b.front := by
  have hword : isWord '(' = false := by decide +kernel
  have hblank : isBlank '(' = false := by decide
  have hstorage : '(' ∉ b.storage := by
    rcases b.storage_eq with heq | ⟨blanks, -, hblanks, heq⟩
    · rw [heq]
      exact List.not_mem_nil
    · rw [heq, List.mem_append, not_or]
      exact ⟨by decide, not_mem_of_forall hblank hblanks⟩
  have hstar : '(' ∉ b.star := by
    rcases b.star_eq with heq | heq <;> rw [heq] <;> decide
  simp only [Before.front, List.mem_append, not_or]
  exact ⟨⟨⟨⟨⟨hstorage, not_mem_of_forall hword b.type_word⟩,
    not_mem_of_forall hblank b.gap_blank⟩, hstar⟩, not_mem_of_forall hword b.name_word⟩,
    not_mem_of_forall hblank b.space_blank⟩

/-! ## 4. The line -/

theorem Reading.takeWhile_text (r : Reading) : r.text.takeWhile (· ≠ '(') = r.front :=
  takeWhile_ne_append r.not_paren

theorem Reading.dropWhile_text (r : Reading) : r.text.dropWhile (· ≠ '(') = '(' :: r.back :=
  dropWhile_ne_append r.not_paren

/-- The name in a function head is that of a reading of the line. -/
theorem name?_eq_some_iff (line name : List Char) :
    name? line = some name ↔
      ¬ "typedef".toList <+: line ∧ ∃ r : Reading, r.text = line ∧ r.name = name := by
  rw [name?]
  by_cases htypedef : "typedef".toList <+: line
  · rw [if_pos (List.isPrefixOf_iff_prefix.mpr htypedef)]
    exact iff_of_false (fun h => nomatch h) (fun h => h.1 htypedef)
  rw [if_neg (mt List.isPrefixOf_iff_prefix.mp htypedef)]
  constructor
  · intro h
    refine ⟨htypedef, ?_⟩
    split at h
    · cases h
    · next c behind hdrop =>
      obtain ⟨-, hline⟩ := eq_append_of_dropWhile_ne hdrop
      split_ifs at h with hcloses
      obtain ⟨before, hfront, hname⟩ := exists_before_of_nameBefore? h
      obtain ⟨behind', rfl⟩ := (closesArguments_iff behind).mp hcloses
      refine ⟨⟨before, behind'⟩, ?_, hname⟩
      show before.front ++ '(' :: behind'.back = line
      rw [hfront]
      exact hline.symm
  · rintro ⟨-, r, rfl, rfl⟩
    rw [r.dropWhile_text, r.takeWhile_text]
    show (if closesArguments r.back = true then nameBefore? r.front else none) = some r.name
    rw [if_pos ((closesArguments_iff _).mpr ⟨r.toBehind, rfl⟩)]
    exact r.nameBefore?_front

/-- Readings of one line agree on the name, for it is read off the text before the first
parenthesis. -/
theorem Reading.name_unique {r r' : Reading} (h : r.text = r'.text) : r.name = r'.name := by
  have hfront : r.front = r'.front := by
    rw [← r.takeWhile_text, ← r'.takeWhile_text, h]
  have hname := r.nameBefore?_front
  rw [hfront, r'.nameBefore?_front] at hname
  exact (Option.some.inj hname).symm

/-- `name` is the last run of word characters of the text, as long as it can be, and behind it there
is only white space. -/
def IsLastWord (text name : List Char) : Prop :=
  ∃ lead space, text = lead ++ name ++ space ∧ name ≠ [] ∧ (∀ c ∈ name, isWord c = true) ∧
    (∀ c ∈ space, isBlank c = true) ∧ ∀ c, lead.getLast? = some c → isWord c = false

/-- The name cannot be extended to the left: a star or white space stands in front of it. -/
theorem Before.isLastWord (b : Before) : IsLastWord b.front b.name := by
  refine ⟨b.storage ++ b.type ++ b.gap ++ b.star, b.space, rfl, b.name_ne, b.name_word,
    b.space_blank, ?_⟩
  intro c hc
  rcases b.star_eq with heq | heq
  · -- the gap is not empty, so its last character stands in front of the name
    rw [heq, List.append_nil, List.getLast?_append, List.getLast?_eq_some_getLast b.gap_ne,
      Option.some_or] at hc
    exact isWord_of_isBlank (b.gap_blank c (Option.some.inj hc ▸ List.getLast_mem b.gap_ne))
  · rw [heq, List.getLast?_concat] at hc
    rw [← Option.some.inj hc]
    decide +kernel

end FunctionHead

/-! ## 5. The name -/

/-- A line with a name has a reading with this name. -/
theorem exists_reading_of_headName? {line name : String} (h : headName? line = some name) :
    ∃ r : FunctionHead.Reading, r.text = line.toList ∧ r.name = name.toList := by
  rw [headName?, Option.map_eq_some_iff] at h
  obtain ⟨chars, hchars, rfl⟩ := h
  obtain ⟨-, r, htext, hname⟩ := (FunctionHead.name?_eq_some_iff _ _).mp hchars
  exact ⟨r, htext, by rw [hname, String.toList_ofList]⟩

/-- The name in a function head consists of word characters. -/
theorem isWord_of_headName? {line name : String} (h : headName? line = some name) :
    ∀ c ∈ name.toList, isWord c = true := by
  obtain ⟨r, -, hname⟩ := exists_reading_of_headName? h
  rw [← hname]
  exact r.name_word

/-- The name in a function head has a character at least. -/
theorem ne_empty_of_headName? {line name : String} (h : headName? line = some name) :
    name ≠ "" := by
  obtain ⟨r, -, hname⟩ := exists_reading_of_headName? h
  rintro rfl
  exact r.name_ne hname

open FunctionHead in
/-- **Function heads.** A line has a name exactly when it does not start with `typedef` and can be
read as a function head with this name. All its readings agree on the name: it is the run of word
characters that ends at the white space before the first opening parenthesis. -/
theorem headName?_spec (line : String) :
    (∀ name : String, headName? line = some name ↔
      ¬ "typedef".toList <+: line.toList ∧
        ∃ r : Reading, r.text = line.toList ∧ r.name = name.toList) ∧
    (∀ r r' : Reading, r.text = line.toList → r'.text = line.toList → r.name = r'.name) ∧
    (∀ r : Reading, r.text = line.toList →
      IsLastWord (line.toList.takeWhile (· ≠ '(')) r.name) := by
  refine ⟨?_, ?_, ?_⟩
  · intro name
    rw [← name?_eq_some_iff, headName?, Option.map_eq_some_iff]
    constructor
    · rintro ⟨chars, hchars, rfl⟩
      rw [String.toList_ofList]
      exact hchars
    · intro h
      exact ⟨name.toList, h, String.ofList_toList⟩
  · intro r r' hr hr'
    exact Reading.name_unique (hr.trans hr'.symm)
  · intro r hr
    rw [← hr, r.takeWhile_text]
    exact r.isLastWord

end LongFunctions
