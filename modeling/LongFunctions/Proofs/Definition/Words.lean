/-
Reading a file with machine words.

A machine keeps the number of a line in an unsigned word of 64 bits and the depth in a signed one.
Its sums and differences wrap around, and then the words are not the numbers that were meant.
`WordProgress.read` is `Progress.read` on words, and gives up at the first operation at which that
happens. It never does for a text of fewer than 2^63 bytes: the lines and the braces of the text are
too few for it (`findDefinitions_words`).

As long as each number that it comes to is one that a word can be, the reader with words does on a
line what the reader with numbers does. That the numbers stay so small is not a new invariant: it is
read off the search that the reader follows (`Progress.Follows.read_toWords`).
-/
import LongFunctions.Proofs.Definition.Bounds
import LongFunctions.Proofs.Definition.Spans

set_option autoImplicit false

namespace LongFunctions

/-! ## 1. Words -/

/-- A signed word that has been computed for a number, if it is this number. -/
def signed? (word : Int64) (n : Int) : Option Int64 :=
  if word.toInt = n then some word else none

/-- An unsigned word that has been computed for a number, if it is this number. -/
def unsigned? (word : UInt64) (n : Int) : Option UInt64 :=
  if word.toNat = n then some word else none

theorem toInt_ofInt {n : Int} (h : |n| < 2 ^ 63) : (Int64.ofInt n).toInt = n := by
  rw [abs_lt] at h
  exact Int64.toInt_ofInt_of_le (by omega) h.2

theorem toNat_ofNat {n : Nat} (h : n < 2 ^ 64) : (UInt64.ofNat n).toNat = n :=
  UInt64.toNat_ofNat_of_lt' h

theorem ofInt_eq_zero_iff {n : Int} (h : |n| < 2 ^ 63) : Int64.ofInt n = 0 ↔ n = 0 := by
  rw [← Int64.toInt_inj, toInt_ofInt h, Int64.toInt_zero]

theorem signed?_ofNat {n : Nat} (h : n < 2 ^ 63) :
    signed? (Int64.ofNat n) n = some (Int64.ofInt n) := by
  rw [← Int64.ofInt_eq_ofNat]
  exact if_pos (toInt_ofInt (by rw [abs_lt]; omega))

variable {a b : Int}

theorem signed?_add (ha : |a| < 2 ^ 63) (hb : |b| < 2 ^ 63) (hab : |a + b| < 2 ^ 63) :
    signed? (Int64.ofInt a + Int64.ofInt b) ((Int64.ofInt a).toInt + (Int64.ofInt b).toInt) =
      some (Int64.ofInt (a + b)) := by
  rw [toInt_ofInt ha, toInt_ofInt hb, ← Int64.ofInt_add]
  exact if_pos (toInt_ofInt hab)

theorem signed?_sub (ha : |a| < 2 ^ 63) (hb : |b| < 2 ^ 63) (hab : |a - b| < 2 ^ 63) :
    signed? (Int64.ofInt a - Int64.ofInt b) ((Int64.ofInt a).toInt - (Int64.ofInt b).toInt) =
      some (Int64.ofInt (a - b)) := by
  rw [toInt_ofInt ha, toInt_ofInt hb, ← Int64.ofInt_sub]
  exact if_pos (toInt_ofInt hab)

theorem unsigned?_add_one {n : Nat} (h : n + 1 < 2 ^ 64) :
    unsigned? (UInt64.ofNat n + 1) ((UInt64.ofNat n).toNat + 1) =
      some (UInt64.ofNat (n + 1)) := by
  have hone : UInt64.ofNat n + 1 = UInt64.ofNat (n + 1) := (UInt64.ofNat_add n 1).symm
  rw [hone, unsigned?, toNat_ofNat h, toNat_ofNat (by omega)]
  exact if_pos rfl

theorem unsigned?_sub {m n : Nat} (hle : n ≤ m) (hm : m < 2 ^ 64) :
    unsigned? (UInt64.ofNat m - UInt64.ofNat n)
        ((UInt64.ofNat m).toNat - (UInt64.ofNat n).toNat) =
      some (UInt64.ofNat (m - n)) := by
  rw [← UInt64.ofNat_sub hle, unsigned?, toNat_ofNat hm, toNat_ofNat (by omega),
    toNat_ofNat (by omega)]
  exact if_pos (by omega)

/-! ## 2. Reading with words -/

/-- The balance of the braces of a text. -/
def wordBalance? (text : String) : Option Int64 := do
  let opening ← signed? (Int64.ofNat (text.toList.count '{')) (text.toList.count '{')
  let closing ← signed? (Int64.ofNat (text.toList.count '}')) (text.toList.count '}')
  signed? (opening - closing) (opening.toInt - closing.toInt)

/-- A function that is open, in words. -/
structure WordUnclosed where
  name : String
  firstLine : UInt64
  depth : Int64
deriving DecidableEq, Repr

/-- How far a file has been read, in words. -/
structure WordProgress where
  linesRead : UInt64 := 0
  current : Option WordUnclosed := none
deriving DecidableEq, Repr

/-- The extent of a function, in words. -/
structure WordExtent where
  name : String
  firstLine : UInt64
  length : UInt64
deriving DecidableEq, Repr

namespace WordProgress

/-- Reads one line. Nothing is read when a word is not the number that was meant. -/
def read (progress : WordProgress) (line : String) :
    Option (WordProgress × Option WordExtent) := do
  let number ← unsigned? (progress.linesRead + 1) (progress.linesRead.toNat + 1)
  let text := trim line
  if isInert text then some ({ progress with linesRead := number }, none)
  else
    match progress.current with
    | none =>
      match headName? text with
      | none => some ({ linesRead := number }, none)
      | some name =>
        let depth ← wordBalance? text
        some ({ linesRead := number, current := some { name, firstLine := number, depth } }, none)
    | some f =>
      let balance ← wordBalance? text
      let depth ← signed? (f.depth + balance) (f.depth.toInt + balance.toInt)
      if depth = 0 then
        let before ← unsigned? (number - f.firstLine) (number.toNat - f.firstLine.toNat)
        let length ← unsigned? (before + 1) (before.toNat + 1)
        some ({ linesRead := number }, some { name := f.name, firstLine := f.firstLine, length })
      else some ({ linesRead := number, current := some { f with depth } }, none)

/-- The functions that are closed while the given lines are read, in order. -/
def extents (progress : WordProgress) : List String → Option (List WordExtent)
  | [] => some []
  | line :: rest => do
    let (next, closed) ← progress.read line
    let later ← next.extents rest
    some (closed.toList ++ later)

end WordProgress

/-! ## 3. Numbers and words -/

/-- The words for a function that is open. -/
def Unclosed.toWords (f : Unclosed) : WordUnclosed :=
  { name := f.name, firstLine := UInt64.ofNat f.firstLine, depth := Int64.ofInt f.depth }

/-- The words for how far a file has been read. -/
def Progress.toWords (progress : Progress) : WordProgress :=
  { linesRead := UInt64.ofNat progress.linesRead
    current := progress.current.map (·.toWords) }

/-- The words for the extent of a function. -/
def Extent.toWords (extent : Extent) : WordExtent :=
  { name := extent.name
    firstLine := UInt64.ofNat extent.firstLine
    length := UInt64.ofNat extent.length }

/-- The extent that the words are. -/
def WordExtent.toExtent (extent : WordExtent) : Extent :=
  { name := extent.name
    firstLine := extent.firstLine.toNat
    length := extent.length.toNat }

theorem Extent.toExtent_toWords {extent : Extent} (hfirst : extent.firstLine < 2 ^ 64)
    (hlength : extent.length < 2 ^ 64) : extent.toWords.toExtent = extent := by
  rw [toWords, WordExtent.toExtent]
  dsimp only
  rw [toNat_ofNat hfirst, toNat_ofNat hlength]

/-- The braces of a text are counted and balanced without loss when they are not too many. -/
theorem wordBalance?_eq {text : String} (h : braceCount text < 2 ^ 63) :
    wordBalance? text = some (Int64.ofInt (braceBalance text)) := by
  have hopening := count_opening_le text
  have hclosing := count_closing_le text
  rw [wordBalance?, signed?_ofNat (by omega), signed?_ofNat (by omega)]
  exact signed?_sub (by rw [abs_lt]; omega) (by rw [abs_lt]; omega) (by rw [abs_lt]; omega)

namespace Progress

variable {n : Nat} {line : String}

theorem read_toWords_of_not_counts (h : ¬ Counts line) (current : Option Unclosed)
    (hn : n + 1 < 2 ^ 64) :
    (Progress.mk n current).toWords.read line =
      some ((Progress.mk (n + 1) current).toWords, none) := by
  rw [WordProgress.read, toWords]
  dsimp only
  rw [unsigned?_add_one hn]
  simp only [Option.bind_eq_bind, Option.bind_some, if_pos ((isInert_trim_iff line).mpr h)]
  rfl

/-- Outside a function, the reader with words starts the depth with the balance of the head. -/
theorem read_toWords_outside (h : Counts line) (hn : n + 1 < 2 ^ 64)
    (hbraces : braceCount (trim line) < 2 ^ 63) :
    (Progress.mk n none).toWords.read line =
      some (((Progress.mk n none).read line).1.toWords, none) := by
  rw [read_outside h, WordProgress.read, toWords]
  dsimp only
  rw [unsigned?_add_one hn, wordBalance?_eq hbraces]
  simp only [Option.bind_eq_bind, Option.bind_some, if_neg h.not_isInert, Option.map_none]
  cases headName? (trim line) with
  | none => rfl
  | some name => rfl

/-- Inside a function, the depth in words is zero when the depth is. -/
theorem read_toWords_inside {f : Unclosed} (h : Counts line) (hn : n + 1 < 2 ^ 64)
    (hbraces : braceCount (trim line) < 2 ^ 63)
    (hfirst : 0 < f.firstLine ∧ f.firstLine ≤ n) (hdepth : |f.depth| < 2 ^ 63)
    (hsum : |f.depth + braceBalance (trim line)| < 2 ^ 63) :
    (Progress.mk n (some f)).toWords.read line =
      some (((Progress.mk n (some f)).read line).1.toWords,
        ((Progress.mk n (some f)).read line).2.map Extent.toWords) := by
  have hbalance : |braceBalance (trim line)| < 2 ^ 63 :=
    (abs_braceBalance_le _).trans_lt (by exact_mod_cast hbraces)
  rw [read_inside h, WordProgress.read, toWords]
  dsimp only
  rw [unsigned?_add_one hn, wordBalance?_eq hbraces]
  simp only [Option.bind_eq_bind, Option.bind_some, if_neg h.not_isInert, Option.map_some,
    Unclosed.toWords]
  rw [signed?_add hdepth hbalance hsum, Option.bind_some]
  by_cases hzero : f.depth + braceBalance (trim line) = 0
  · rw [if_pos hzero, if_pos ((ofInt_eq_zero_iff hsum).mpr hzero),
      unsigned?_sub (by omega) hn, Option.bind_some, unsigned?_add_one (by omega)]
    rfl
  · rw [if_neg hzero, if_neg (mt (ofInt_eq_zero_iff hsum).mp hzero)]
    rfl

/-! ## 4. The step and the run -/

section Follows

variable {lines : List String} {p : Nat} {progress : Progress}

/-- **One line.** The reader with words reads a line of a text with few enough lines and braces as
the reader with numbers does. -/
theorem Follows.read_toWords (h : Follows lines p progress)
    (hline : lineAt lines (progress.linesRead + 1) = some line) (hlines : lines.length < 2 ^ 64)
    (hbraces : (lines.map braceCount).sum < 2 ^ 63) :
    progress.toWords.read line =
      some ((progress.read line).1.toWords, (progress.read line).2.map Extent.toWords) := by
  obtain ⟨n, current⟩ := progress
  have hn : n + 1 < 2 ^ 64 := (le_length_of_lineAt hline).trans_lt hlines
  have htrim : braceCount (trim line) < 2 ^ 63 :=
    ((braceCount_trim_le line).trans (braceCount_le_of_lineAt hline)).trans_lt hbraces
  by_cases hcounts : Counts line
  · cases current with
    | none =>
      rw [read_toWords_outside hcounts hn htrim, read_outside hcounts]
      rfl
    | some f =>
      have hsum := h.abs_depth_le
      have hsum' := abs_depthThrough_le_sum lines f.firstLine (n + 1)
      rw [h.depth_succ hline hcounts] at hsum'
      exact read_toWords_inside hcounts hn htrim h.firstLine_bounds (by omega) (by omega)
  · rw [read_toWords_of_not_counts hcounts current hn, read_of_not_counts hcounts]
    rfl

/-- **A run.** The reader with words closes the functions that the reader with numbers closes. The
induction is on the lines that are left; what bounds the words at each of them is the search that
the reader follows. -/
theorem Follows.extents_toWords (rest : List String) (h : Follows lines p progress)
    (hrest : lines.drop progress.linesRead = rest) (hlines : lines.length < 2 ^ 64)
    (hbraces : (lines.map braceCount).sum < 2 ^ 63) :
    progress.toWords.extents rest = some ((progress.extents rest).map Extent.toWords) := by
  induction rest generalizing p progress with
  | nil => rfl
  | cons line rest ih =>
    obtain ⟨hline, hrest'⟩ := lineAt_of_drop hrest
    obtain ⟨q, hnext⟩ := h.exists_read hline
    rw [← read_linesRead progress line] at hrest'
    rw [WordProgress.extents, h.read_toWords hline hlines hbraces, extents]
    simp only [Option.bind_eq_bind, Option.bind_some, ih hnext hrest']
    rw [List.map_append, ← Option.toList_map]

end Follows

end Progress

/-! ## 5. A whole file -/

/-- The functions of the file at `path` with the given lines, read with words. -/
def findDefinitionsInWords? (lines : List String) (path : String) : Option (List Definition) :=
  (({} : WordProgress).extents lines).map fun extents =>
    extents.map fun extent => extent.toExtent.inFile path

/-- What is known of a function that is open behind the first lines of a text. -/
structure OpenWithin (content : String) (read : List String) (f : Unclosed) : Prop where
  /-- It has been opened by its head. -/
  opens : OpensAt (linesOf content) f.name f.firstLine
  /-- The number of its head is less than that of the next line. -/
  firstLine_lt : f.firstLine < read.length + 1
  /-- Its depth is what the lines from its head on add up to. -/
  depth_eq : f.depth = depthThrough (linesOf content) f.firstLine read.length
  /-- These lines have at least as many braces. -/
  depth_le : |f.depth| ≤ bracesThrough (linesOf content) f.firstLine read.length
  /-- The text is at least as long. -/
  braces_le : bracesThrough (linesOf content) f.firstLine read.length ≤ content.utf8ByteSize

theorem openWithin_of_after {content : String} {read rest : List String} {f : Unclosed}
    (hlines : linesOf content = read ++ rest)
    (hopen : (({} : Progress).after read).current = some f) : OpenWithin content read f := by
  obtain ⟨q, hfollows⟩ := (Progress.Follows.start (linesOf content)).after hlines
  have hread := Progress.after_linesRead read {}
  generalize ({} : Progress).after read = progress at hfollows hopen hread
  obtain ⟨n, current⟩ := progress
  obtain rfl : current = some f := hopen
  obtain rfl : n = read.length := hread.trans (Nat.zero_add _)
  have hbounds := hfollows.firstLine_bounds
  cases hfollows with
  | inside hfirst _ hdepth _ =>
    exact {
      opens := hfirst.2
      firstLine_lt := Nat.lt_succ_of_le hbounds.2
      depth_eq := hdepth
      depth_le := hdepth ▸ abs_depthThrough_le _ _ _
      braces_le := (bracesThrough_le _ _ _).trans (sum_braceCount_linesOf_le content) }

theorem Progress.le_length_of_mem_extents {lines : List String} {extent : Extent}
    (h : extent ∈ ({} : Progress).extents lines) :
    extent.firstLine ≤ lines.length ∧ extent.length ≤ lines.length := by
  obtain ⟨hfirst, hlt, hlast⟩ := ends_of_mem_extents h
  rw [Extent.lastLine] at hlt hlast
  omega

/-- With few enough lines and braces, reading with words finds the functions that are found. -/
theorem findDefinitionsInWords?_eq {lines : List String} (hlines : lines.length < 2 ^ 64)
    (hbraces : (lines.map braceCount).sum < 2 ^ 63) (path : String) :
    findDefinitionsInWords? lines path = some (findDefinitions lines path) := by
  have hrun := (Progress.Follows.start lines).extents_toWords lines rfl hlines hbraces
  have hstart : ({} : Progress).toWords = {} := rfl
  rw [hstart] at hrun
  rw [findDefinitionsInWords?, hrun, Option.map_some, List.map_map, findDefinitions_eq_map_extents]
  refine congrArg some (List.map_congr_left fun extent hextent => ?_)
  have hbounds := Progress.le_length_of_mem_extents hextent
  show extent.toWords.toExtent.inFile path = extent.inFile path
  rw [Extent.toExtent_toWords (by omega) (by omega)]

/-- **Words are enough.** For a text of at most 2^63 - 1 bytes, wherever a reader stands in it, the
depth of the function that is open is exact and no larger than the text, and the number of its head
is behind that of the next line; the numbers of lines and the lengths of functions are at most one
more than the bytes; and reading with words loses nothing. -/
theorem findDefinitions_words (content path : String)
    (hsize : content.utf8ByteSize ≤ 2 ^ 63 - 1) :
    (∀ read rest, linesOf content = read ++ rest →
      ∀ f, (({} : Progress).after read).current = some f → OpenWithin content read f) ∧
    (linesOf content).length ≤ content.utf8ByteSize + 1 ∧
    (∀ d ∈ findDefinitions (linesOf content) path,
      d.firstLine ≤ content.utf8ByteSize + 1 ∧ d.length ≤ content.utf8ByteSize + 1) ∧
    findDefinitionsInWords? (linesOf content) path =
      some (findDefinitions (linesOf content) path) := by
  have hlines := length_linesOf_le content
  have hbraces := sum_braceCount_linesOf_le content
  refine ⟨fun read rest hread f hopen => openWithin_of_after hread hopen, hlines, ?_, ?_⟩
  · intro d hd
    rw [findDefinitions_eq_map_extents] at hd
    obtain ⟨extent, hextent, rfl⟩ := List.mem_map.mp hd
    have hbounds := Progress.le_length_of_mem_extents hextent
    exact ⟨hbounds.1.trans hlines, hbounds.2.trans hlines⟩
  · exact findDefinitionsInWords?_eq (by omega) (by omega) path

/-- A function with a depth below zero behind its second line, and zero again behind its third. -/
theorem findDefinitions_words_negative :
    "int f()\n\x7d\n\x7b\n".utf8ByteSize ≤ 2 ^ 63 - 1 ∧
      OpenWithin "int f()\n\x7d\n\x7b\n" ["int f()", "\x7d"] ⟨"f", 1, -1⟩ ∧
      findDefinitionsInWords? (linesOf "int f()\n\x7d\n\x7b\n") "f.c" =
        some [⟨⟨"f", 1, 3⟩, "f.c"⟩] := by
  have hsize : "int f()\n\x7d\n\x7b\n".utf8ByteSize ≤ 2 ^ 63 - 1 := by decide
  obtain ⟨hopen, -, -, hwords⟩ := findDefinitions_words "int f()\n\x7d\n\x7b\n" "f.c" hsize
  have hlines : linesOf "int f()\n\x7d\n\x7b\n" = ["int f()", "\x7d"] ++ ["\x7b", ""] := by
    decide +kernel
  refine ⟨hsize, hopen _ _ hlines _ (by decide +kernel), hwords.trans ?_⟩
  decide +kernel

end LongFunctions
