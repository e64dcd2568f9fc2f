/-
Lines put into a file.

A line that does not count can be put into a file anywhere. The same functions are found then, and
only the numbers of lines are different: a function behind the new line is moved by one, a function
around it is longer by one, and a function in front of it stays as it is (`findDefinitions_insert`).

Two readings are compared, one with room for more lines behind line `k` and one without. `makeRoom`
says what the room does to a function that has been found, to one that is open, and to the reader.
Behind the room both readings take the same steps, whatever they read (`Progress.read_makeRoom`);
the boundaries between moved, longer and unchanged are all settled in that one step. That the new
line does not count is used only where it is read itself.
-/
import LongFunctions.Proofs.Definition.Spans

set_option autoImplicit false

namespace LongFunctions

/-! ## 1. Room for more lines -/

/-- The extent of a function when more lines are added to its file behind line `k`: the function is
moved if it starts behind that line, longer if it only ends behind it, and else where it was. -/
def Extent.makeRoom (k added : Nat) (extent : Extent) : Extent :=
  if k < extent.firstLine then { extent with firstLine := extent.firstLine + added }
  else if k < extent.lastLine then { extent with length := extent.length + added }
  else extent

/-- The function that is open, when more lines are added behind line `k`. -/
def Unclosed.makeRoom (k added : Nat) (f : Unclosed) : Unclosed :=
  { f with firstLine := if k < f.firstLine then f.firstLine + added else f.firstLine }

/-- How far a file has been read that has more lines added behind line `k`, once these have been
read as well. -/
def Progress.makeRoom (k added : Nat) (progress : Progress) : Progress :=
  { linesRead := progress.linesRead + added
    current := progress.current.map (·.makeRoom k added) }

variable {k added : Nat}

/-- A function that starts behind the room is moved. -/
theorem Extent.makeRoom_of_lt {extent : Extent} (h : k < extent.firstLine) :
    extent.makeRoom k added = { extent with firstLine := extent.firstLine + added } :=
  if_pos h

/-- A function that ends before the room stays as it is. -/
theorem Extent.makeRoom_of_le {extent : Extent} (hfirst : extent.firstLine ≤ extent.lastLine)
    (hlast : extent.lastLine ≤ k) : extent.makeRoom k added = extent := by
  rw [makeRoom, if_neg (by omega), if_neg (by omega)]

/-- A function that is closed on line `n + 1`, behind the room, is moved if its head was, and else
longer. -/
theorem Unclosed.makeRoom_closed {n : Nat} (h : k ≤ n) (f : Unclosed) :
    Extent.makeRoom k added ⟨f.name, f.firstLine, n + 1 - f.firstLine + 1⟩ =
      ⟨f.name, (f.makeRoom k added).firstLine,
        n + 1 + added - (f.makeRoom k added).firstLine + 1⟩ := by
  unfold Extent.makeRoom Extent.lastLine Unclosed.makeRoom
  by_cases hmoved : k < f.firstLine
  · simp only [if_pos hmoved, Nat.add_sub_add_right]
  · have hlength : n + 1 - f.firstLine + 1 + added = n + 1 + added - f.firstLine + 1 := by omega
    have hbehind : k < f.firstLine + (n + 1 - f.firstLine + 1) - 1 := by omega
    simp only [if_neg hmoved, if_pos hbehind, hlength]

namespace Progress

/-! ## 2. One line, and all that are left -/

/-- **One line.** Behind the room, a line does the same with the room and without it. -/
theorem read_makeRoom {progress : Progress} (h : k ≤ progress.linesRead) (line : String) :
    (progress.makeRoom k added).read line =
      ((progress.read line).1.makeRoom k added,
        (progress.read line).2.map (·.makeRoom k added)) := by
  obtain ⟨n, current⟩ := progress
  have hn : k ≤ n := h
  have hnumber : n + added + 1 = n + 1 + added := by omega
  by_cases hcounts : Counts line
  · cases current with
    | none =>
      -- a function that is opened here has its head behind the room
      simp only [makeRoom, Option.map_none, read_outside hcounts, Option.map_map,
        Function.comp_def, Unclosed.makeRoom, if_pos (Nat.lt_succ_of_le hn), hnumber]
    | some f =>
      have hdepth : (f.makeRoom k added).depth = f.depth := rfl
      simp only [makeRoom, Option.map_some, read_inside hcounts, hdepth]
      by_cases hzero : f.depth + braceBalance (trim line) = 0
      · simp only [if_pos hzero, Option.map_none, Option.map_some, hnumber,
          f.makeRoom_closed hn]
        rfl
      · simp only [if_neg hzero, Option.map_none, Option.map_some, hnumber]
        rfl
  · simp only [makeRoom, read_of_not_counts hcounts, Option.map_none, hnumber]

/-- **All lines that are left.** Behind the room, the same functions are closed with the room and
without it. -/
theorem extents_makeRoom {progress : Progress} (h : k ≤ progress.linesRead) (lines : List String) :
    (progress.makeRoom k added).extents lines =
      (progress.extents lines).map (·.makeRoom k added) := by
  induction lines generalizing progress with
  | nil => rfl
  | cons line rest ih =>
    have hrest : k ≤ (progress.read line).1.linesRead := by
      rw [read_linesRead]
      omega
    have hclosed : ((progress.read line).2.map (·.makeRoom k added)).toList =
        (progress.read line).2.toList.map (·.makeRoom k added) := by
      cases (progress.read line).2 <;> rfl
    rw [extents, extents, read_makeRoom h, List.map_append, ih hrest, hclosed]

end Progress

/-! ## 3. Lines that do not count -/

/-- Lines that do not count, put into a file, only make room there. -/
theorem Progress.extents_insert {skipped : List String} (h : ∀ line ∈ skipped, ¬ Counts line)
    (front back : List String) :
    ({} : Progress).extents (front ++ (skipped ++ back)) =
      (({} : Progress).extents (front ++ back)).map (·.makeRoom front.length skipped.length) := by
  have hfront : (({} : Progress).extents front).map (·.makeRoom front.length skipped.length) =
      ({} : Progress).extents front := by
    refine List.map_congr_left ?_ |>.trans (List.map_id _)
    intro extent hmem
    obtain ⟨-, hlt, hle⟩ := ends_of_mem_extents hmem
    exact Extent.makeRoom_of_le hlt.le hle
  have hread : (({} : Progress).after front).linesRead = front.length := by
    rw [after_linesRead]
    exact Nat.zero_add _
  have hhead := Progress.HeadRead.start.after front
  rw [extents_append front (skipped ++ back), extents_append front back, List.map_append, hfront]
  generalize ({} : Progress).after front = reached at hread hhead
  obtain ⟨n, current⟩ := reached
  -- the function that is open, if there is one, has its head in front of the room
  have hroom : (Progress.mk n current).makeRoom front.length skipped.length =
      ⟨n + skipped.length, current⟩ := by
    cases current with
    | none => rfl
    | some f =>
      have hf : f.firstLine ≤ front.length := hread ▸ hhead f rfl
      simp only [makeRoom, Option.map_some, Unclosed.makeRoom, if_neg (Nat.not_lt.mpr hf)]
  rw [extents_append_of_not_counts h, ← hroom, extents_makeRoom hread.ge]

/-- **A line that does not count only moves things.** Put behind the first `k` lines of a file, it
leaves the functions of the file and their order. Those with the head behind it are moved by one
line, those around it are longer by one line, and all others stay as they are. -/
theorem findDefinitions_insert {lines : List String} {k : Nat} (hk : k ≤ lines.length)
    {skipped : String} (h : ¬ Counts skipped) (path : String) :
    findDefinitions (lines.take k ++ skipped :: lines.drop k) path =
      (findDefinitions lines path).map fun d => (d.toExtent.makeRoom k 1).inFile d.path := by
  have hinsert := Progress.extents_insert (List.forall_mem_singleton.mpr h) (lines.take k)
    (lines.drop k)
  rw [List.take_append_drop, List.length_take_of_le hk] at hinsert
  rw [findDefinitions_eq_map_extents, findDefinitions_eq_map_extents, List.map_map,
    ← List.singleton_append, hinsert, List.map_map]
  rfl

/-- A comment with a brace in it, put into the second of three functions: the first one stays, the
second one is longer and the third one is moved. -/
theorem findDefinitions_insert_comment :
    3 ≤ ["int f() \x7b", "\x7d", "int g() \x7b", "\x7d", "int h() \x7b", "\x7d"].length ∧
      ¬ Counts "\t// \x7b" ∧
      findDefinitions
          ["int f() \x7b", "\x7d", "int g() \x7b", "\t// \x7b", "\x7d", "int h() \x7b", "\x7d"]
          "f.c" =
        [⟨⟨"f", 1, 2⟩, "f.c"⟩, ⟨⟨"g", 3, 3⟩, "f.c"⟩, ⟨⟨"h", 6, 2⟩, "f.c"⟩] := by
  have hlines :
      3 ≤ ["int f() \x7b", "\x7d", "int g() \x7b", "\x7d", "int h() \x7b", "\x7d"].length := by
    decide
  have hskipped : ¬ Counts "\t// \x7b" := by decide
  refine ⟨hlines, hskipped, (findDefinitions_insert hlines hskipped "f.c").trans ?_⟩
  decide +kernel

end LongFunctions
