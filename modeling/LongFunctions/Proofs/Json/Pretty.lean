/-
The pretty form of a value is a document that holds the value.

The two sides were written for different ends: `pretty` joins texts, and the grammar of documents
takes a text apart. They meet part by part: a numeral is a number without sign, fraction and
exponent, an escape is one way to write its character, a line break with the indentation behind it
is white space. So the text of a value stands for the value in front of any rest
(`written_prettyAt`), and a document holds just one value (`Document.unique`).

Main statement: the pretty form, with white space behind it, holds the value that was written and no
other (`document_pretty_iff`).
-/
import LongFunctions.Json
import LongFunctions.Proofs.Json.Document

set_option autoImplicit false

namespace LongFunctions.Json

/-! ## 1. Numbers -/

/-- The number that the numeral of a natural number is. -/
def Numeral.ofNat (n : ℕ) : Numeral where
  minus := []
  whole := n.repr.toList
  fraction := []
  exponent := none
  minus_eq := .inl rfl
  whole_ne := by simp
  whole_isDigit := isDigit_of_mem_repr
  whole_zero h := by rw [eq_zero_of_head?_repr h]; rfl
  fraction_isDigit := by simp

theorem Numeral.text_ofNat (n : ℕ) : (Numeral.ofNat n).text = n.repr.toList := by
  simp [Numeral.text, Numeral.ofNat, point, power]

theorem Numeral.value_ofNat (n : ℕ) : (Numeral.ofNat n).value = n := by
  simp [Numeral.value, Numeral.ofNat, digitsValue]

/-! ## 2. Strings -/

theorem mem_letterEscapes {c letter : Char} (h : escapeLetter? c = some letter) :
    (letter, c) ∈ letterEscapes := by
  unfold escapeLetter? at h
  split at h <;> cases h <;> decide

/-- An escape by digits says the number of its character. -/
theorem codeUnit?_escape {n : ℕ} (h : n < 0x20) :
    codeUnit? '0' '0' (Nat.digitChar (n / 16)) (Nat.digitChar (n % 16)) = some n := by
  revert h n
  decide

/-- **An escape stands for its character,** whatever the character is. -/
theorem character_escape (c : Char) (rest : List Char) : Character (escape c ++ rest) c rest := by
  unfold escape
  cases hletter : escapeLetter? c with
  | some letter => exact .letter (mem_letterEscapes hletter)
  | none =>
    by_cases hlow : c.toNat < 0x20
    · simp only [if_pos hlow]
      exact .unit (codeUnit?_escape hlow)
    · simp only [if_neg hlow]
      apply Character.plain (not_lt.mp hlow)
      · rintro rfl
        cases hletter
      · rintro rfl
        cases hletter

theorem characters_escape (chars rest : List Char) :
    Characters (chars.flatMap escape ++ '"' :: rest) chars rest := by
  induction chars with
  | nil => exact .close
  | cons c chars ih =>
    rw [List.flatMap_cons, List.append_assoc]
    exact .cons (character_escape c _) ih

theorem toList_quoted (text : String) (rest : List Char) :
    (quoted text).toList ++ rest = '"' :: (text.toList.flatMap escape ++ '"' :: rest) := by
  simp [quoted]

/-! ## 3. Lists in brackets -/

/-- A line break with the indentation behind it is white space. -/
theorem spaces_newline (depth : ℕ) (rest : List Char) :
    Spaces ((newline depth).toList ++ rest) rest := by
  refine ⟨(newline depth).toList, ?_, rfl⟩
  intro c hc
  simp only [newline, String.toList_append, String.toList_ofList, List.mem_append,
    List.mem_replicate] at hc
  rcases hc with hc | ⟨-, rfl⟩
  · obtain rfl := List.mem_singleton.mp hc
    rfl
  · rfl

theorem spaces_blank (rest : List Char) : Spaces (' ' :: rest) rest :=
  ⟨[' '], by simp [isSpace], rfl⟩

theorem Spaces.none (text : List Char) : Spaces text text :=
  ⟨[], by simp, rfl⟩

section Lists

variable {α : Type} {item : List Char → α → List Char → Prop} {close : Char} {parts : List String}
  {xs : List α}

/-- Whether the text is one way to write the item, whatever stands behind it. -/
def Writes (item : List Char → α → List Char → Prop) (part : String) (x : α) : Prop :=
  ∀ rest, item (part.toList ++ rest) x rest

/-- Parts on lines of their own, each with a comma behind it but the last. -/
theorem separated_lines (hne : parts ≠ []) (h : List.Forall₂ (Writes item) parts xs)
    (depth : ℕ) (rest : List Char) :
    Separated item close ((newline (depth + 1)).toList ++
      ((String.intercalate ("," ++ newline (depth + 1)) parts).toList ++
        ((newline depth).toList ++ close :: rest))) xs rest := by
  have hcomma : ("," ++ newline (depth + 1)).toList = ',' :: (newline (depth + 1)).toList := by simp
  rw [String.toList_intercalate, hcomma]
  induction h with
  | nil => exact absurd rfl hne
  | cons hitem hlater ih =>
    cases hlater with
    | nil =>
      rw [List.map_cons, List.map_nil, List.intercalate_singleton]
      exact .last (.intro (spaces_newline _ _) (hitem _) (spaces_newline _ _))
    | cons =>
      rw [List.map_cons, List.map_cons, List.intercalate_cons_cons]
      simp only [List.append_assoc, List.cons_append]
      exact .more (.intro (spaces_newline _ _) (hitem _) (.none _)) (ih (List.cons_ne_nil _ _))

/-- **Brackets around parts** are a list of what the parts are, if `list` says of a list that it stands
between these brackets. -/
theorem writes_bracketed {β : Type} {list : List Char → β → List Char → Prop} {x : β} {c : Char}
    (hlist : ∀ {text rest : List Char}, Enclosed item close text xs rest → list (c :: text) x rest)
    (h : List.Forall₂ (Writes item) parts xs) {opening closing : String}
    (hopening : opening.toList = [c]) (hclosing : closing.toList = [close]) (depth : ℕ) :
    Writes list (bracketed opening closing depth parts) x := by
  intro rest
  unfold bracketed
  cases h with
  | nil =>
    have hnone := hlist (.empty (Spaces.none (close :: rest)))
    simpa [hopening, hclosing] using hnone
  | cons hitem hlater =>
    have hlines := hlist
      (.items (separated_lines (List.cons_ne_nil _ _) (.cons hitem hlater) depth rest))
    simpa [hopening, hclosing] using hlines

end Lists

/-! ## 4. Values -/

mutual

/-- The value that is to be written. -/
def value : Json → Value
  | .num n => .number n
  | .str text => .string text
  | .arr items => .array (valueItems items)
  | .obj fields => .object (valueFields fields)

/-- The values of the items of an array. -/
def valueItems : List Json → List Value
  | [] => []
  | item :: rest => item.value :: valueItems rest

/-- The fields of an object with their values. -/
def valueFields : List (String × Json) → List (String × Value)
  | [] => []
  | (key, item) :: rest => (key, item.value) :: valueFields rest

end

theorem valueItems_eq_map (items : List Json) : valueItems items = items.map value := by
  induction items with
  | nil => rfl
  | cons item items ih => rw [valueItems, List.map_cons, ih]

mutual

/-- **The text of a value stands for the value,** at any depth and whatever stands behind it. -/
theorem written_prettyAt (depth : ℕ) :
    ∀ json : Json, Writes Written (prettyAt depth json) json.value
  | .num n => by
    intro rest
    rw [prettyAt, value, ← Numeral.value_ofNat]
    exact .number (Numeral.ofNat n) (by rw [Numeral.text_ofNat])
  | .str text => by
    intro rest
    have hstring := Written.string (characters_escape text.toList rest)
    rw [String.ofList_toList] at hstring
    rw [prettyAt, value, toList_quoted]
    exact hstring
  | .arr items => by
    rw [prettyAt, value]
    exact writes_bracketed .array (written_prettyItems (depth + 1) items) rfl rfl depth
  | .obj fields => by
    rw [prettyAt, value]
    exact writes_bracketed .object (written_prettyFields (depth + 1) fields) rfl rfl depth

theorem written_prettyItems (depth : ℕ) : ∀ items : List Json,
    List.Forall₂ (Writes Written) (prettyItems depth items) (valueItems items)
  | [] => .nil
  | item :: rest => .cons (written_prettyAt depth item) (written_prettyItems depth rest)

theorem written_prettyFields (depth : ℕ) : ∀ fields : List (String × Json),
    List.Forall₂ (Writes (Field Written)) (prettyFields depth fields) (valueFields fields)
  | [] => .nil
  | (key, item) :: rest => by
    refine .cons ?_ (written_prettyFields depth rest)
    intro behind
    have hfield := Field.intro (characters_escape key.toList _) (.none _)
      (spaces_blank _) (written_prettyAt depth item behind)
    rw [String.ofList_toList] at hfield
    simpa [toList_quoted] using hfield

end

/-- **The pretty form of a value, with white space behind it, holds the value and no other.** -/
theorem document_pretty_iff {space : String} (hspace : ∀ c ∈ space.toList, isSpace c = true)
    (json : Json) (v : Value) : Document (json.pretty ++ space) v ↔ v = json.value := by
  have hdocument : Document (json.pretty ++ space) json.value := by
    refine ⟨_, space.toList, .none _, ?_, space.toList, hspace, (List.append_nil _).symm⟩
    rw [String.toList_append]
    exact written_prettyAt 0 json space.toList
  refine ⟨fun h => h.unique hdocument, ?_⟩
  rintro rfl
  exact hdocument

end LongFunctions.Json
