/-
Sources that are written out well, and what is found in them.

A reader of braces knows nothing of C, so it has to be said for which files it finds what stands
there. A body (`IsBody`) is made of lines that leave the depth as it is and of blocks, one inside
the other to any depth. A function (`WrittenFunction`) is a head, a body and the lines that open and
close it, with the brace on the line of the head or on a line of its own. A source is a list of
functions with other lines between them. Lines inside a function may look like anything, a function
head among them.

Main statement: in such a source exactly its functions are found, in order, each with the line of
its head and the number of its lines (`findDefinitions_source`).

The argument is one about depth. Within a body the depth comes back to where it began and is never
below that on the way, so a function that is open at a depth above zero stays open through a whole
body (`IsBody.extents_append`). Only the line that closes the function brings the depth to zero.
-/
import LongFunctions.Proofs.Definition.Reading
import LongFunctions.Proofs.FunctionHead.Reading

set_option autoImplicit false

namespace LongFunctions

/-! ## 1. Sources -/

/-- Whether a line counts and its braces change the depth by this much. -/
def Shifts (line : String) (balance : Int) : Prop :=
  Counts line ∧ braceBalance (trim line) = balance

instance (line : String) (balance : Int) : Decidable (Shifts line balance) :=
  inferInstanceAs (Decidable (_ ∧ _))

/-- The lines of a body: lines that leave the depth as it is, because they do not count or because
their braces are balanced, and blocks, each a body between a line that opens one brace and a line
that closes one. -/
inductive IsBody : List String → Prop
  | nil : IsBody []
  | level {line : String} {rest : List String}
      (flat : ¬ Counts line ∨ braceBalance (trim line) = 0) (later : IsBody rest) :
      IsBody (line :: rest)
  | block {opening closing : String} {inner rest : List String} (opens : Shifts opening 1)
      (inside : IsBody inner) (closes : Shifts closing (-1)) (later : IsBody rest) :
      IsBody (opening :: (inner ++ closing :: rest))

/-- The lines from the head of a function to the start of its body: the head alone, which then opens
the brace, or the head, lines that do not count, and a line that opens the brace. -/
inductive IsOpening : List String → Prop
  | sameLine {head : String} (opens : braceBalance (trim head) = 1) : IsOpening [head]
  | nextLine {head opening : String} {between : List String}
      (level : braceBalance (trim head) = 0) (skipped : ∀ line ∈ between, ¬ Counts line)
      (opens : Shifts opening 1) : IsOpening (head :: (between ++ [opening]))

/-- A function as it is written in a source. -/
structure WrittenFunction where
  name : String
  head : String
  /-- The lines between the head and the body. -/
  lead : List String
  body : List String
  closing : String
  head_name : headName? (trim head) = some name
  opens : IsOpening (head :: lead)
  isBody : IsBody body
  closes : Shifts closing (-1)

/-- The lines of a function, from its head to the line that closes it. -/
def WrittenFunction.lines (f : WrittenFunction) : List String :=
  f.head :: f.lead ++ f.body ++ [f.closing]

/-- What a source is made of. -/
inductive SourceItem where
  /-- A line outside of functions, which is no function head or does not count. -/
  | filler (line : String) (noHead : ¬ Counts line ∨ headName? (trim line) = none)
  /-- A function. -/
  | function (f : WrittenFunction)

/-- The lines of an item. -/
def SourceItem.lines : SourceItem → List String
  | .filler line _ => [line]
  | .function f => f.lines

/-- The functions among the items of a source whose first line has this number, as they should be
found. -/
def writtenExtents : Nat → List SourceItem → List Extent
  | _, [] => []
  | number, .filler _ _ :: rest => writtenExtents (number + 1) rest
  | number, .function f :: rest =>
    { name := f.name, firstLine := number, length := f.lines.length } ::
      writtenExtents (number + f.lines.length) rest

/-! ## 2. A head counts -/

/-- What is read as a function head starts with a word character: that of its type, or the first one
of `static`. -/
theorem FunctionHead.Reading.exists_text_eq_cons (r : FunctionHead.Reading) :
    ∃ c rest, r.text = c :: rest ∧ isWord c = true := by
  rcases r.storage_eq with hnone | ⟨blanks, -, -, hstatic⟩
  · obtain ⟨c, type, htype⟩ := List.exists_cons_of_ne_nil r.type_ne
    have hc : isWord c = true := r.type_word c (htype ▸ List.mem_cons_self)
    refine ⟨c, type ++ r.gap ++ r.star ++ r.name ++ r.space ++ '(' :: r.back, ?_, hc⟩
    simp only [Reading.text, Before.front, hnone, htype, List.nil_append, List.cons_append]
  · refine ⟨'s', "tatic".toList ++ blanks ++ r.type ++ r.gap ++ r.star ++ r.name ++ r.space ++
      '(' :: r.back, ?_, by decide +kernel⟩
    have hword : "static".toList = 's' :: "tatic".toList := rfl
    simp only [Reading.text, Before.front, hstatic, hword, List.cons_append]

/-- A function head is never passed over: neither a comment nor a preprocessor line starts with a
word character. -/
theorem counts_of_headName? {line name : String} (h : headName? (trim line) = some name) :
    Counts line := by
  obtain ⟨r, htext, -⟩ := exists_reading_of_headName? h
  obtain ⟨c, rest, hcons, hword⟩ := r.exists_text_eq_cons
  have hline : (trim line).toList = c :: rest := htext.symm.trans hcons
  refine ⟨?_, ?_, ?_⟩
  · intro hempty
    rw [hempty] at hline
    cases hline
  · rintro ⟨text, hslashes⟩
    obtain rfl : '/' = c := (List.cons.inj (hslashes.trans hline)).1
    exact absurd hword (by decide +kernel)
  · rintro ⟨text, hhash⟩
    obtain rfl : '#' = c := (List.cons.inj (hhash.trans hline)).1
    exact absurd hword (by decide +kernel)

/-! ## 3. One line in front of others -/

namespace Progress

variable {n : Nat} {f : Unclosed} {line : String} {rest : List String}

/-- Outside a function, a head opens one. -/
theorem extents_of_head {name : String} (h : headName? (trim line) = some name) :
    (Progress.mk n none).extents (line :: rest) =
      (Progress.mk (n + 1) (some ⟨name, n + 1, braceBalance (trim line)⟩)).extents rest := by
  rw [extents, read_outside (counts_of_headName? h), h]
  rfl

/-- Outside a function, a line that is no head or does not count opens none. -/
theorem extents_of_no_head (h : ¬ Counts line ∨ headName? (trim line) = none) :
    (Progress.mk n none).extents (line :: rest) = (Progress.mk (n + 1) none).extents rest := by
  by_cases hcounts : Counts line
  · have hnone := h.resolve_left (not_not.mpr hcounts)
    rw [extents, read_outside hcounts, hnone]
    rfl
  · exact extents_of_not_counts hcounts

/-- Inside a function, a line that does not bring the depth to zero leaves it open. -/
theorem extents_of_shifts {balance : Int} (h : Shifts line balance)
    (hdepth : f.depth + balance ≠ 0) :
    (Progress.mk n (some f)).extents (line :: rest) =
      (Progress.mk (n + 1) (some { f with depth := f.depth + balance })).extents rest := by
  rw [extents, read_inside h.1, h.2, if_neg hdepth]
  rfl

/-- Inside a function, a line that brings the depth to zero closes it. -/
theorem extents_of_closes {balance : Int} (h : Shifts line balance)
    (hdepth : f.depth + balance = 0) :
    (Progress.mk n (some f)).extents (line :: rest) =
      ⟨f.name, f.firstLine, n + 1 - f.firstLine + 1⟩ :: (Progress.mk (n + 1) none).extents rest := by
  rw [extents, read_inside h.1, h.2, if_pos hdepth]
  rfl

end Progress

/-! ## 4. A body, and the lines before it -/

/-- **A body.** A function that is open at a depth above zero is open at the same depth behind a
body. The induction is on the body; inside a block the depth is higher by one. -/
theorem IsBody.extents_append {body : List String} (h : IsBody body) {n : Nat} {f : Unclosed}
    (hdepth : 0 < f.depth) (rest : List String) :
    (Progress.mk n (some f)).extents (body ++ rest) =
      (Progress.mk (n + body.length) (some f)).extents rest := by
  induction h generalizing n f rest with
  | nil => rfl
  | @level line lines flat _ ih =>
    have hlength : n + (line :: lines).length = n + 1 + lines.length := by
      rw [List.length_cons]
      omega
    rw [List.cons_append, hlength, ← ih hdepth]
    by_cases hcounts : Counts line
    · have hzero := flat.resolve_left (not_not.mpr hcounts)
      rw [Progress.extents_of_shifts ⟨hcounts, hzero⟩ (by omega), Int.add_zero]
    · exact Progress.extents_of_not_counts hcounts
  | @block opening closing inner lines opens _ closes _ ihinside ihlater =>
    have hlength : n + (opening :: (inner ++ closing :: lines)).length =
        n + 1 + inner.length + 1 + lines.length := by
      rw [List.length_cons, List.length_append, List.length_cons]
      omega
    -- one deeper, through the block, and back
    have hdeeper : 0 < ({ f with depth := f.depth + 1 } : Unclosed).depth :=
      Int.add_pos hdepth Int.one_pos
    have hback : f.depth + 1 + -1 = f.depth := by omega
    rw [List.cons_append, List.append_assoc, List.cons_append, hlength,
      Progress.extents_of_shifts opens (by omega), ihinside hdeeper,
      Progress.extents_of_shifts closes (by dsimp only; omega), ← ihlater hdepth]
    dsimp only
    rw [hback]

namespace WrittenFunction

/-- The lines up to the body open the function at depth one. -/
theorem extents_opening (f : WrittenFunction) (n : Nat) (rest : List String) :
    (Progress.mk n none).extents (f.head :: f.lead ++ rest) =
      (Progress.mk (n + 1 + f.lead.length) (some ⟨f.name, n + 1, 1⟩)).extents rest := by
  have hhead := f.head_name
  have hopens := f.opens
  rw [List.cons_append, Progress.extents_of_head hhead]
  generalize f.lead = lead at hopens ⊢
  cases hopens with
  | sameLine hone =>
    rw [hone]
    rfl
  | @nextLine _ opening between hzero hskipped hopening =>
    -- the lines in between leave the depth at zero, and the brace makes it one
    have hlength : n + 1 + (between ++ [opening]).length = n + 1 + between.length + 1 := by
      rw [List.length_append, List.length_singleton]
      omega
    rw [hzero, List.append_assoc, Progress.extents_append_of_not_counts hskipped, hlength,
      List.singleton_append, Progress.extents_of_shifts hopening (by simp)]
    rfl

/-- **A function.** The lines of a function close this one function, and leave none open. -/
theorem extents_lines (f : WrittenFunction) (n : Nat) (rest : List String) :
    (Progress.mk n none).extents (f.lines ++ rest) =
      ⟨f.name, n + 1, f.lines.length⟩ :: (Progress.mk (n + f.lines.length) none).extents rest := by
  have hlength : f.lines.length = f.lead.length + f.body.length + 2 := by
    simp only [lines, List.length_append, List.length_cons, List.length_nil]
    omega
  have hend : n + 1 + f.lead.length + f.body.length + 1 = n + f.lines.length := by omega
  have hcovered : n + f.lines.length - (n + 1) + 1 = f.lines.length := by omega
  have hclosing : f.lines ++ rest = f.head :: f.lead ++ (f.body ++ f.closing :: rest) := by
    simp only [lines, List.append_assoc, List.cons_append, List.nil_append]
  rw [hclosing, f.extents_opening, f.isBody.extents_append Int.one_pos,
    Progress.extents_of_closes f.closes (by rfl), hend]
  dsimp only
  rw [hcovered]

end WrittenFunction

/-! ## 5. A source -/

/-- The functions of a source are closed when its lines are read, and no others. -/
theorem extents_source (items : List SourceItem) (n : Nat) :
    (Progress.mk n none).extents (items.flatMap SourceItem.lines) =
      writtenExtents (n + 1) items := by
  induction items generalizing n with
  | nil => rfl
  | cons item items ih =>
    rw [List.flatMap_cons]
    cases item with
    | filler line hline =>
      rw [SourceItem.lines, List.singleton_append, Progress.extents_of_no_head hline, ih,
        writtenExtents]
    | function f =>
      have hnext : n + f.lines.length + 1 = n + 1 + f.lines.length := by omega
      rw [SourceItem.lines, f.extents_lines, ih, writtenExtents, hnext]

/-- **In a well-formed source exactly its functions are found,** in order: each has the name in its
head, starts on the line of its head, and is as long as it has lines, whether they count or not. -/
theorem findDefinitions_source (items : List SourceItem) (path : String) :
    findDefinitions (items.flatMap SourceItem.lines) path =
      (writtenExtents 1 items).map (·.inFile path) := by
  rw [findDefinitions_eq_map_extents]
  exact congrArg _ (extents_source items 0)

/-- The body of a function: a line with balanced braces, a comment with one that is not, and a block
that looks like a function and has a block of its own. -/
theorem isBody_nested :
    IsBody ["  int t[] = \x7b 1 \x7d;", "  // \x7d", "  int g(void) \x7b", "    if (t) \x7b",
      "      n++;", "    \x7d", "  \x7d"] := by
  have hinner : IsBody ("    if (t) \x7b" :: (["      n++;"] ++ "    \x7d" :: [])) :=
    .block (by decide +kernel) (.level (Or.inr (by decide +kernel)) .nil) (by decide +kernel) .nil
  have houter : IsBody ("  int g(void) \x7b" ::
      (["    if (t) \x7b", "      n++;", "    \x7d"] ++ "  \x7d" :: [])) :=
    .block (by decide +kernel) hinner (by decide +kernel) .nil
  exact .level (Or.inr (by decide +kernel)) (.level (Or.inl (by decide +kernel)) houter)

/-- A function with its brace on a later line, and lines that do not count before it. -/
def nestedFunction : WrittenFunction where
  name := "f"
  head := "static int *f(int a[])"
  lead := ["", "#define N 2", "\x7b"]
  body := ["  int t[] = \x7b 1 \x7d;", "  // \x7d", "  int g(void) \x7b", "    if (t) \x7b",
    "      n++;", "    \x7d", "  \x7d"]
  closing := "\x7d"
  head_name := by decide +kernel
  opens :=
    have hopening : IsOpening ("static int *f(int a[])" :: (["", "#define N 2"] ++ ["\x7b"])) :=
      .nextLine (by decide +kernel) (by decide +kernel) (by decide +kernel)
    hopening
  isBody := isBody_nested
  closes := by decide +kernel

/-- A function of two lines. -/
def emptyFunction : WrittenFunction where
  name := "h"
  head := "void h() \x7b"
  lead := []
  body := []
  closing := "\x7d"
  head_name := by decide +kernel
  opens := .sameLine (by decide +kernel)
  isBody := .nil
  closes := by decide +kernel

/-- Of `nestedFunction` the function and not the block in it is found, with all its lines; and behind
it, and a prototype, the next function. -/
theorem findDefinitions_source_nested :
    findDefinitions
        ["// \x7b", "static int *f(int a[])", "", "#define N 2", "\x7b",
          "  int t[] = \x7b 1 \x7d;", "  // \x7d", "  int g(void) \x7b", "    if (t) \x7b",
          "      n++;", "    \x7d", "  \x7d", "\x7d", "void h();", "void h() \x7b", "\x7d"] "f.c" =
      [⟨⟨"f", 2, 12⟩, "f.c"⟩, ⟨⟨"h", 15, 2⟩, "f.c"⟩] :=
  findDefinitions_source
    [.filler "// \x7b" (Or.inl (by decide +kernel)), .function nestedFunction,
      .filler "void h();" (Or.inr (by decide +kernel)), .function emptyFunction] "f.c"

end LongFunctions
