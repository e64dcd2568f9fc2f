/-
What a JSON document holds.

This is the grammar of JSON, all of it, and not only of the documents that are written here: white
space wherever the standard allows it, the literals, numbers with a fraction and an exponent, every
escape of a string, nested arrays and objects. Each part of the grammar is a relation between a
text, what the text holds at its front, and the rest behind it. A document is a text that holds a
value and nothing else but white space (`Document`).

Main statement: a document holds one value (`Document.unique`). So whoever reads it as the standard
says comes to that value, whatever the reader does on the way.

Nothing but the next character is needed to tell what comes next, and the proof follows the grammar
for that reason. The one part that does not show its end is a number: `12` could be read as `1` with
a rest. Hence the rest behind a value must not continue a number (`Stops`), which holds wherever the
grammar asks for a comma, a closing bracket or the end.

A number holds a rational number, since that is what its digits say, whatever type a reader may keep
it in. A code unit of a surrogate pair holds nothing by itself.
-/
import Mathlib.Algebra.Field.Rat
import LongFunctions.Json
import LongFunctions.Proofs.Text.Runs

set_option autoImplicit false

namespace LongFunctions.Json

/-! ## 1. Values -/

/-- A value, as JSON has it. The fields of an object stand in the order of the document. -/
inductive Value where
  | null
  | bool (b : Bool)
  | number (q : ℚ)
  | string (text : String)
  | array (items : List Value)
  | object (fields : List (String × Value))

/-- The value of the first field with this key, if the value is an object that has one. -/
def Value.field? (v : Value) (key : String) : Option Value :=
  match v with
  | .object fields => fields.lookup key
  | _ => none

/-- What holds of values without parts, and of an array or an object when it holds of what is in it,
holds of every value. -/
@[elab_as_elim]
theorem Value.induction {motive : Value → Prop} (null : motive .null) (bool : ∀ b, motive (.bool b))
    (number : ∀ q, motive (.number q)) (string : ∀ text, motive (.string text))
    (array : ∀ items : List Value, (∀ v ∈ items, motive v) → motive (.array items))
    (object : ∀ fields : List (String × Value), (∀ f ∈ fields, motive f.2) →
      motive (.object fields)) : ∀ v, motive v
  | .null => null
  | .bool b => bool b
  | .number q => number q
  | .string text => string text
  | .array items =>
    array items fun v _ => Value.induction null bool number string array object v
  | .object fields =>
    object fields fun f _ => Value.induction null bool number string array object f.2
termination_by v => sizeOf v
decreasing_by
  · next hitem =>
    have hlist := List.sizeOf_lt_of_mem hitem
    simp only [Value.array.sizeOf_spec]
    omega
  · next hfield =>
    have hlist := List.sizeOf_lt_of_mem hfield
    have hpair : sizeOf f.2 < sizeOf f := by
      cases f
      simp only [Prod.mk.sizeOf_spec]
      omega
    simp only [Value.object.sizeOf_spec]
    omega

/-! ## 2. White space -/

/-- Whether the character is white space between the parts of a document. -/
def isSpace (c : Char) : Bool :=
  c = ' ' || c = '\t' || c = '\n' || c = '\r'

/-- The text is white space, perhaps none, in front of the rest. -/
def Spaces (text rest : List Char) : Prop :=
  ∃ run, (∀ c ∈ run, isSpace c = true) ∧ text = run ++ rest

/-- White space in front of something else ends in one place. -/
theorem Spaces.unique {text rest rest' : List Char} (h : Spaces text rest)
    (h' : Spaces text rest') (hrest : Halts isSpace rest) (hrest' : Halts isSpace rest') :
    rest = rest' := by
  obtain ⟨run, hrun, rfl⟩ := h
  obtain ⟨run', hrun', heq⟩ := h'
  exact (run_unique hrun hrest hrun' hrest' heq).2

/-! ## 3. Numbers -/

/-- The number with these decimal digits. -/
def digitsValue (digits : List Char) : ℕ :=
  Nat.ofDigitChars 10 digits 0

/-- The parts of an exponent. -/
structure Exponent where
  mark : Char
  sign : List Char
  digits : List Char
  mark_eq : mark = 'e' ∨ mark = 'E'
  sign_eq : sign = [] ∨ sign = ['+'] ∨ sign = ['-']
  digits_ne : digits ≠ []
  digits_isDigit : ∀ c ∈ digits, c.isDigit = true

namespace Exponent

/-- The text of the parts. -/
def text (e : Exponent) : List Char :=
  e.mark :: (e.sign ++ e.digits)

/-- The power of ten that the exponent says. -/
def value (e : Exponent) : ℤ :=
  if e.sign = ['-'] then -(digitsValue e.digits : ℤ) else digitsValue e.digits

end Exponent

/-- The parts of a number. -/
structure Numeral where
  minus : List Char
  whole : List Char
  /-- The digits behind the point. There is no point without one. -/
  fraction : List Char
  exponent : Option Exponent
  minus_eq : minus = [] ∨ minus = ['-']
  whole_ne : whole ≠ []
  whole_isDigit : ∀ c ∈ whole, c.isDigit = true
  /-- No zero stands in front of other digits. -/
  whole_zero : whole.head? = some '0' → whole = ['0']
  fraction_isDigit : ∀ c ∈ fraction, c.isDigit = true

namespace Numeral

/-- The point in front of the fraction. -/
def point (n : Numeral) : List Char :=
  if n.fraction = [] then [] else ['.']

/-- The text of the exponent, if there is one. -/
def power (n : Numeral) : List Char :=
  n.exponent.elim [] Exponent.text

/-- The text of the parts. -/
def text (n : Numeral) : List Char :=
  n.minus ++ (n.whole ++ (n.point ++ (n.fraction ++ n.power)))

/-- The number that the parts say. -/
def value (n : Numeral) : ℚ :=
  (if n.minus = [] then 1 else -1) *
    (digitsValue n.whole + digitsValue n.fraction / 10 ^ n.fraction.length) *
    10 ^ n.exponent.elim 0 Exponent.value

end Numeral

/-- Whether the character could continue a number. -/
def continuesNumber (c : Char) : Bool :=
  c.isDigit || c = '.' || c = 'e' || c = 'E'

/-- Whether a number ends in front of this text. -/
def Stops (text : List Char) : Prop :=
  Halts continuesNumber text

/-- White space in front of what does not continue a number does not continue it either. -/
theorem Spaces.stops {text rest : List Char} (h : Spaces text rest) (hrest : Stops rest) :
    Stops text := by
  obtain ⟨run, hrun, rfl⟩ := h
  apply Halts.append _ hrest
  intro c hc
  have hspace := hrun c hc
  simp only [isSpace, Bool.or_eq_true, decide_eq_true_eq] at hspace
  rcases hspace with ((rfl | rfl) | rfl) | rfl <;> decide

/-- What cannot continue a number ends any run that only what continues a number could continue. -/
theorem Stops.halts {p : Char → Bool} {text : List Char} (h : Stops text)
    (hp : ∀ c, p c = true → continuesNumber c = true) : Halts p text := by
  intro c hc
  have hstop := h c hc
  rw [Bool.eq_false_iff] at hstop ⊢
  exact fun hpc => hstop (hp c hpc)

theorem Stops.halts_isDigit {text : List Char} (h : Stops text) : Halts Char.isDigit text :=
  h.halts fun c hc => by simp [continuesNumber, hc]

theorem beq_of_isDigit {c mark : Char} (hmark : mark.isDigit = false) (hc : c.isDigit = true) :
    (c == mark) = false := by
  rw [beq_eq_false_iff_ne]
  rintro rfl
  rw [hmark] at hc
  cases hc

namespace Exponent

/-- What stands behind a number does not start with an exponent. -/
theorem not_stops (e : Exponent) (rest : List Char) : ¬ Stops (e.text ++ rest) := by
  intro hstops
  have hmark := hstops e.mark rfl
  rcases e.mark_eq with heq | heq <;> rw [heq] at hmark <;> cases hmark

/-- An exponent is read in one way. -/
theorem unique {e e' : Exponent} {rest rest' : List Char} (h : Stops rest) (h' : Stops rest')
    (heq : e.text ++ rest = e'.text ++ rest') : e.value = e'.value ∧ rest = rest' := by
  have hsigns : ∀ e : Exponent, ∀ c ∈ e.sign, (!c.isDigit) = true := by
    intro e
    rcases e.sign_eq with hsign | hsign | hsign <;> rw [hsign] <;> exact List.all_eq_true.mp rfl
  have hdigits : ∀ (e : Exponent) (rest : List Char),
      Halts (fun c => !c.isDigit) (e.digits ++ rest) := by
    intro e rest
    apply Halts.append_of_ne_nil e.digits_ne
    intro c hc
    simp [e.digits_isDigit c hc]
  have htail : e.sign ++ (e.digits ++ rest) = e'.sign ++ (e'.digits ++ rest') := by
    simpa [Exponent.text] using List.tail_eq_of_cons_eq heq
  obtain ⟨hsign, hbehind⟩ :=
    run_unique (hsigns e) (hdigits e rest) (hsigns e') (hdigits e' rest') htail
  obtain ⟨hdigit, hrest⟩ := run_unique e.digits_isDigit h.halts_isDigit e'.digits_isDigit
    h'.halts_isDigit hbehind
  exact ⟨by rw [value, value, hsign, hdigit], hrest⟩

end Exponent

namespace Numeral

variable {n n' : Numeral} {rest rest' : List Char}

/-! Each part of a number ends where the next one starts, whichever parts are there. -/

theorem minus_eq_dash (n : Numeral) : ∀ c ∈ n.minus, (c == '-') = true := by
  rcases n.minus_eq with hminus | hminus <;> rw [hminus] <;> exact List.all_eq_true.mp rfl

theorem point_eq_dot (n : Numeral) : ∀ c ∈ n.point, (c == '.') = true := by
  unfold point
  split_ifs <;> exact List.all_eq_true.mp rfl

/-- Behind the sign stands a digit. -/
theorem halts_whole (n : Numeral) (text : List Char) : Halts (· == '-') (n.whole ++ text) :=
  Halts.append_of_ne_nil n.whole_ne fun c hc => beq_of_isDigit rfl (n.whole_isDigit c hc)

/-- An exponent starts with its mark. -/
theorem halts_power (n : Numeral) {p : Char → Bool} (he : p 'e' = false) (hE : p 'E' = false)
    (hrest : Halts p rest) : Halts p (n.power ++ rest) := by
  unfold power
  cases n.exponent with
  | none => exact hrest
  | some e =>
    apply Halts.cons
    rcases e.mark_eq with hmark | hmark <;> rwa [hmark]

/-- Behind the point stands a digit, or there is neither. -/
theorem halts_fraction (n : Numeral) (h : Stops rest) :
    Halts (· == '.') (n.fraction ++ (n.power ++ rest)) := by
  apply Halts.append
  · exact fun c hc => beq_of_isDigit rfl (n.fraction_isDigit c hc)
  · exact n.halts_power rfl rfl (h.halts (by simp [continuesNumber]))

/-- Behind the first digits stands the point, the exponent or the end. -/
theorem halts_point (n : Numeral) (h : Stops rest) :
    Halts Char.isDigit (n.point ++ (n.fraction ++ (n.power ++ rest))) := by
  unfold point
  split_ifs with hnil
  · rw [hnil]
    exact n.halts_power rfl rfl h.halts_isDigit
  · exact Halts.cons rfl

/-- The exponent, if there is one, is read in one way. -/
theorem power_unique (h : Stops rest) (h' : Stops rest')
    (heq : n.power ++ rest = n'.power ++ rest') :
    n.exponent.elim 0 Exponent.value = n'.exponent.elim 0 Exponent.value ∧ rest = rest' := by
  unfold power at heq
  cases hexponent : n.exponent with
  | none =>
    cases hexponent' : n'.exponent with
    | none => simpa [hexponent, hexponent'] using heq
    | some e' =>
      simp only [hexponent, hexponent', Option.elim_none, Option.elim_some, List.nil_append] at heq
      rw [heq] at h
      exact absurd h (e'.not_stops rest')
  | some e =>
    cases hexponent' : n'.exponent with
    | none =>
      simp only [hexponent, hexponent', Option.elim_none, Option.elim_some, List.nil_append] at heq
      rw [← heq] at h'
      exact absurd h' (e.not_stops rest)
    | some e' =>
      simp only [hexponent, hexponent', Option.elim_some] at heq
      exact Exponent.unique h h' heq

/-- **A number is read in one way,** from its sign to the end of its exponent, when what stands
behind it does not continue it. -/
theorem unique (h : Stops rest) (h' : Stops rest') (heq : n.text ++ rest = n'.text ++ rest') :
    n.value = n'.value ∧ rest = rest' := by
  simp only [text, List.append_assoc] at heq
  obtain ⟨hsigns, heq⟩ := run_unique n.minus_eq_dash (n.halts_whole _) n'.minus_eq_dash
    (n'.halts_whole _) heq
  obtain ⟨hwholes, heq⟩ := run_unique n.whole_isDigit (n.halts_point h) n'.whole_isDigit
    (n'.halts_point h') heq
  obtain ⟨-, heq⟩ := run_unique n.point_eq_dot (n.halts_fraction h) n'.point_eq_dot
    (n'.halts_fraction h') heq
  obtain ⟨hfractions, heq⟩ := run_unique n.fraction_isDigit
    (n.halts_power rfl rfl h.halts_isDigit) n'.fraction_isDigit
    (n'.halts_power rfl rfl h'.halts_isDigit) heq
  obtain ⟨hpowers, hrest⟩ := power_unique h h' heq
  exact ⟨by rw [value, value, hsigns, hwholes, hfractions, hpowers], hrest⟩

/-- A number starts with its sign or with a digit. -/
theorem head_text {c : Char} {text : List Char} (h : c :: text = n.text ++ rest) :
    c = '-' ∨ c.isDigit = true := by
  rcases n.minus_eq with hminus | hminus
  · obtain ⟨first, others, hwhole⟩ := List.exists_cons_of_ne_nil n.whole_ne
    rw [Numeral.text, hminus, hwhole] at h
    rw [List.head_eq_of_cons_eq h]
    exact .inr (n.whole_isDigit first (hwhole ▸ List.mem_cons_self))
  · rw [Numeral.text, hminus] at h
    exact .inl (List.head_eq_of_cons_eq h)

/-- Nothing else starts like a number. -/
theorem cons_ne_text {c : Char} {text : List Char} (hminus : c ≠ '-') (hdigit : c.isDigit = false) :
    c :: text ≠ n.text ++ rest := by
  intro h
  rcases head_text h with rfl | hc
  · exact hminus rfl
  · rw [hdigit] at hc
    cases hc

end Numeral

/-! ## 4. Strings -/

/-- The letters that stand for a character behind a backslash, each with this character. -/
def letterEscapes : List (Char × Char) :=
  [('"', '"'), ('\\', '\\'), ('/', '/'), ('b', '\x08'), ('f', '\x0c'), ('n', '\n'), ('r', '\r'),
    ('t', '\t')]

/-- The value of a hexadecimal digit, in either case. -/
def hexValue? (c : Char) : Option ℕ :=
  if c.isDigit then some (c.toNat - '0'.toNat)
  else if 'a' ≤ c ∧ c ≤ 'f' then some (c.toNat - 'a'.toNat + 10)
  else if 'A' ≤ c ∧ c ≤ 'F' then some (c.toNat - 'A'.toNat + 10)
  else none

/-- The code unit with these four hexadecimal digits. -/
def codeUnit? (a b c d : Char) : Option ℕ :=
  match hexValue? a, hexValue? b, hexValue? c, hexValue? d with
  | some a, some b, some c, some d => some (a * 0x1000 + b * 0x100 + c * 0x10 + d)
  | _, _, _, _ => none

/-- The text has one way to write this character within quotes at its front, and the rest behind it.
A high and a low surrogate one after the other stand for one character. -/
inductive Character : List Char → Char → List Char → Prop
  | plain {ch : Char} {rest : List Char} (hlow : 0x20 ≤ ch.toNat) (hquote : ch ≠ '"')
      (hbackslash : ch ≠ '\\') : Character (ch :: rest) ch rest
  | letter {letter ch : Char} {rest : List Char} (h : (letter, ch) ∈ letterEscapes) :
      Character ('\\' :: letter :: rest) ch rest
  | unit {a b c d ch : Char} {rest : List Char} (h : codeUnit? a b c d = some ch.toNat) :
      Character ('\\' :: 'u' :: a :: b :: c :: d :: rest) ch rest
  | pair {a b c d a' b' c' d' ch : Char} {high low : ℕ} {rest : List Char}
      (h : codeUnit? a b c d = some high) (hhigh : 0xd800 ≤ high ∧ high < 0xdc00)
      (h' : codeUnit? a' b' c' d' = some low) (hlow : 0xdc00 ≤ low ∧ low < 0xe000)
      (hch : ch.toNat = 0x10000 + (high - 0xd800) * 0x400 + (low - 0xdc00)) :
      Character ('\\' :: 'u' :: a :: b :: c :: d :: '\\' :: 'u' :: a' :: b' :: c' :: d' :: rest) ch
        rest

/-- No letter stands for two characters. -/
theorem letterEscapes_functional :
    ∀ e ∈ letterEscapes, ∀ e' ∈ letterEscapes, e.1 = e'.1 → e.2 = e'.2 := by
  decide

/-- The letter in front of four hexadecimal digits has no other meaning. -/
theorem not_mem_letterEscapes (ch : Char) : ('u', ch) ∉ letterEscapes := by
  have hletters : ∀ e ∈ letterEscapes, e.1 ≠ 'u' := by decide
  exact fun h => hletters _ h rfl

/-- A surrogate is no character. -/
theorem not_surrogate (ch : Char) : ¬ (0xd800 ≤ ch.toNat ∧ ch.toNat < 0xe000) := by
  have hvalid : ch.toNat < 0xd800 ∨ 0xdfff < ch.toNat ∧ ch.toNat < 0x110000 := ch.valid
  omega

theorem Character.unique {text rest rest' : List Char} {ch ch' : Char} (h : Character text ch rest)
    (h' : Character text ch' rest') : ch = ch' ∧ rest = rest' := by
  cases h with
  | plain hlow hquote hbackslash =>
    cases h' with
    | plain => exact ⟨rfl, rfl⟩
    | letter | unit | pair => exact absurd rfl hbackslash
  | letter h =>
    cases h' with
    | plain hlow hquote hbackslash => exact absurd rfl hbackslash
    | letter h' => exact ⟨letterEscapes_functional _ h _ h' rfl, rfl⟩
    | unit | pair => exact absurd h (not_mem_letterEscapes _)
  | unit h =>
    cases h' with
    | plain hlow hquote hbackslash => exact absurd rfl hbackslash
    | letter h' => exact absurd h' (not_mem_letterEscapes _)
    | unit h' =>
      rw [h] at h'
      exact ⟨Char.toNat_inj.mp (Option.some.inj h'), rfl⟩
    | pair h' hhigh =>
      rw [h] at h'
      have heq := Option.some.inj h'
      exact absurd (by omega) (not_surrogate ch)
  | pair h hhigh hsecond hlow hch =>
    cases h' with
    | plain hlow hquote hbackslash => exact absurd rfl hbackslash
    | letter h' => exact absurd h' (not_mem_letterEscapes _)
    | unit h' =>
      rw [h] at h'
      have heq := Option.some.inj h'
      exact absurd (by omega) (not_surrogate ch')
    | pair h' hhigh' hsecond' hlow' hch' =>
      rw [h] at h'
      rw [hsecond] at hsecond'
      have hhighs := Option.some.inj h'
      have hlows := Option.some.inj hsecond'
      exact ⟨Char.toNat_inj.mp (by rw [hch, hch', hhighs, hlows]), rfl⟩

/-- A character beyond the code units, by its two surrogates. -/
example : Character "\\uD83d\\ude00 and more".toList '😀' " and more".toList :=
  .pair rfl (by decide) rfl (by decide) rfl

/-- The quote that ends a string is no character of it. -/
theorem Character.not_quote {text rest : List Char} {ch : Char} : ¬ Character ('"' :: text) ch rest
  | .plain _ hquote _ => hquote rfl

/-- The text behind an opening quote has these characters up to the closing quote, and the rest
behind it. -/
inductive Characters : List Char → List Char → List Char → Prop
  | close {rest : List Char} : Characters ('"' :: rest) [] rest
  | cons {text later rest chars : List Char} {ch : Char} (h : Character text ch later)
      (hlater : Characters later chars rest) : Characters text (ch :: chars) rest

/-- **A string is read in one way.** -/
theorem Characters.unique {text rest rest' chars chars' : List Char}
    (h : Characters text chars rest) (h' : Characters text chars' rest') : chars = chars' ∧ rest = rest' := by
  induction h generalizing chars' with
  | close =>
    cases h' with
    | close => exact ⟨rfl, rfl⟩
    | cons hfirst => exact absurd hfirst Character.not_quote
  | cons hfirst hlater ih =>
    cases h' with
    | close => exact absurd hfirst Character.not_quote
    | cons hfirst' hlater' =>
      obtain ⟨rfl, rfl⟩ := hfirst.unique hfirst'
      obtain ⟨rfl, rfl⟩ := ih hlater'
      exact ⟨rfl, rfl⟩

/-! ## 5. Lists in brackets -/

/-- Whether the character is a closing bracket. -/
def closes (c : Char) : Bool :=
  c = ']' || c = '\x7d'

/-- Whether no item starts with this character: white space, or a closing bracket. -/
def endsList (c : Char) : Bool :=
  isSpace c || closes c

/-- Whether the character can stand behind an item: the comma, or a closing bracket. -/
def isMark (c : Char) : Bool :=
  c = ',' || closes c

theorem isMark_of_closes {c : Char} (h : closes c = true) : isMark c = true := by
  simp [isMark, h]

section Lists

variable {α : Type} {item : List Char → α → List Char → Prop} {text rest rest' : List Char}

/-- The text has an item with white space around it, then this mark, and the rest behind it. `item`
says how an item is written. -/
inductive Marked (item : List Char → α → List Char → Prop) : List Char → α → Char → List Char → Prop
  | intro {start behind text rest : List Char} {x : α} {mark : Char} (hbefore : Spaces text start)
      (hitem : item start x behind) (hbehind : Spaces behind (mark :: rest)) :
      Marked item text x mark rest

/-- The text has items up to the closing bracket, at least one, with commas between them. -/
inductive Separated (item : List Char → α → List Char → Prop) (close : Char) :
    List Char → List α → List Char → Prop
  | last {text rest : List Char} {x : α} (h : Marked item text x close rest) :
      Separated item close text [x] rest
  | more {text later rest : List Char} {x : α} {xs : List α} (h : Marked item text x ',' later)
      (hlater : Separated item close later xs rest) : Separated item close text (x :: xs) rest

/-- The text behind an opening bracket has these items, perhaps none, up to the closing bracket, and
the rest behind it. -/
inductive Enclosed (item : List Char → α → List Char → Prop) (close : Char) :
    List Char → List α → List Char → Prop
  | empty {rest text : List Char} (h : Spaces text (close :: rest)) :
      Enclosed item close text [] rest
  | items {rest text : List Char} {xs : List α} (h : Separated item close text xs rest) :
      Enclosed item close text xs rest

/-- Whether this item is read in one way in front of what does not continue a number. -/
def Definite (item : List Char → α → List Char → Prop) (x : α) : Prop :=
  ∀ {text rest rest' : List Char} {x' : α}, item text x rest → item text x' rest' → Stops rest →
    Stops rest' → x = x' ∧ rest = rest'

/-- Whether no item starts where a list could end. -/
def Visible (item : List Char → α → List Char → Prop) : Prop :=
  ∀ {text : List Char} {x : α} {rest : List Char}, item text x rest → Halts endsList text

theorem Visible.halts_isSpace (hvisible : Visible item) {x : α} (h : item text x rest) :
    Halts isSpace text := by
  intro c hc
  have hends := hvisible h c hc
  simp only [endsList, Bool.or_eq_false_iff] at hends
  exact hends.1

/-- A mark is no white space. -/
theorem isSpace_of_isMark {c : Char} (h : isMark c = true) : isSpace c = false := by
  simp only [isMark, closes, Bool.or_eq_true, decide_eq_true_eq] at h
  rcases h with rfl | rfl | rfl <;> rfl

/-- No number goes on with a mark. -/
theorem continuesNumber_of_isMark {c : Char} (h : isMark c = true) : continuesNumber c = false := by
  simp only [isMark, closes, Bool.or_eq_true, decide_eq_true_eq] at h
  rcases h with rfl | rfl | rfl <;> rfl

theorem Spaces.unique_mark {c c' : Char} (h : Spaces text (c :: rest)) (hc : isMark c = true)
    (h' : Spaces text (c' :: rest')) (hc' : isMark c' = true) : c = c' ∧ rest = rest' :=
  List.cons_eq_cons.mp (h.unique h' (Halts.cons (isSpace_of_isMark hc))
    (Halts.cons (isSpace_of_isMark hc')))

/-- An item that is read in one way, with the mark behind it. -/
theorem Marked.unique {x x' : α} {c c' : Char} (hvisible : Visible item) (hx : Definite item x)
    (h : Marked item text x c rest) (hc : isMark c = true) (h' : Marked item text x' c' rest')
    (hc' : isMark c' = true) : x = x' ∧ c = c' ∧ rest = rest' := by
  obtain ⟨hbefore, hitem, hbehind⟩ := h
  obtain ⟨hbefore', hitem', hbehind'⟩ := h'
  obtain rfl := hbefore.unique hbefore' (hvisible.halts_isSpace hitem)
    (hvisible.halts_isSpace hitem')
  have hstops := hbehind.stops (Halts.cons (continuesNumber_of_isMark hc))
  have hstops' := hbehind'.stops (Halts.cons (continuesNumber_of_isMark hc'))
  obtain ⟨rfl, rfl⟩ := hx hitem hitem' hstops hstops'
  exact ⟨rfl, hbehind.unique_mark hc hbehind' hc'⟩

variable {close : Char}

/-- The items of a list are read in one way when each of them is. -/
theorem Separated.unique {xs xs' : List α} (hvisible : Visible item) (hclose : closes close = true)
    (hitems : ∀ x ∈ xs, Definite item x) (h : Separated item close text xs rest)
    (h' : Separated item close text xs' rest') : xs = xs' ∧ rest = rest' := by
  have hmark := isMark_of_closes hclose
  have hcomma : close ≠ ',' := by
    rintro rfl
    cases hclose
  induction h generalizing xs' with
  | last hfirst =>
    rw [List.forall_mem_singleton] at hitems
    cases h' with
    | last hfirst' =>
      obtain ⟨rfl, -, rfl⟩ := hfirst.unique hvisible hitems hmark hfirst' hmark
      exact ⟨rfl, rfl⟩
    | more hfirst' =>
      obtain ⟨-, heq, -⟩ := hfirst.unique hvisible hitems hmark hfirst' rfl
      exact absurd heq hcomma
  | more hfirst _ ih =>
    rw [List.forall_mem_cons] at hitems
    cases h' with
    | last hfirst' =>
      obtain ⟨-, heq, -⟩ := hfirst.unique hvisible hitems.1 rfl hfirst' hmark
      exact absurd heq.symm hcomma
    | more hfirst' hlater' =>
      obtain ⟨rfl, -, rfl⟩ := hfirst.unique hvisible hitems.1 rfl hfirst' rfl
      obtain ⟨rfl, rfl⟩ := ih hitems.2 hlater'
      exact ⟨rfl, rfl⟩

/-- A list with an item in it does not end right behind its opening bracket. -/
theorem Separated.not_spaces {xs : List α} (hvisible : Visible item) (hclose : closes close = true)
    (h : Separated item close text xs rest) : ¬ Spaces text (close :: rest') := by
  intro hspaces
  have hfirst : ∃ x mark later, Marked item text x mark later := by
    cases h with
    | last h => exact ⟨_, _, _, h⟩
    | more h => exact ⟨_, _, _, h⟩
  obtain ⟨x, mark, later, hbefore, hitem, -⟩ := hfirst
  obtain rfl := hspaces.unique hbefore (Halts.cons (isSpace_of_isMark (isMark_of_closes hclose)))
    (hvisible.halts_isSpace hitem)
  have hends := hvisible hitem close rfl
  simp [endsList, hclose] at hends

/-- **A list in brackets is read in one way** when each of its items is. -/
theorem Enclosed.unique {xs xs' : List α} (hvisible : Visible item) (hclose : closes close = true)
    (hitems : ∀ x ∈ xs, Definite item x) (h : Enclosed item close text xs rest)
    (h' : Enclosed item close text xs' rest') : xs = xs' ∧ rest = rest' := by
  have hmark := isMark_of_closes hclose
  cases h with
  | empty h =>
    cases h' with
    | empty h' => exact ⟨rfl, (h.unique_mark hmark h' hmark).2⟩
    | items h' => exact absurd h (h'.not_spaces hvisible hclose)
  | items h =>
    cases h' with
    | empty h' => exact absurd h' (h.not_spaces hvisible hclose)
    | items h' => exact h.unique hvisible hclose hitems h'

end Lists

/-! ## 6. Values and documents -/

/-- The text has a field of an object, and the rest behind it. `value` says how values are written. -/
inductive Field (value : List Char → Value → List Char → Prop) :
    List Char → String × Value → List Char → Prop
  | intro {text behindKey later start rest key : List Char} {v : Value}
      (hkey : Characters text key behindKey) (hcolon : Spaces behindKey (':' :: later))
      (hbefore : Spaces later start) (hvalue : value start v rest) :
      Field value ('"' :: text) (String.ofList key, v) rest

/-- The text has this value, and the rest behind it. -/
inductive Written : List Char → Value → List Char → Prop
  | null {rest : List Char} : Written ('n' :: 'u' :: 'l' :: 'l' :: rest) .null rest
  | boolTrue {rest : List Char} : Written ('t' :: 'r' :: 'u' :: 'e' :: rest) (.bool true) rest
  | boolFalse {rest : List Char} :
      Written ('f' :: 'a' :: 'l' :: 's' :: 'e' :: rest) (.bool false) rest
  | number {text rest : List Char} (n : Numeral) (h : text = n.text ++ rest) :
      Written text (.number n.value) rest
  | string {text chars rest : List Char} (h : Characters text chars rest) :
      Written ('"' :: text) (.string (String.ofList chars)) rest
  | array {text rest : List Char} {items : List Value} (h : Enclosed Written ']' text items rest) :
      Written ('[' :: text) (.array items) rest
  | object {text rest : List Char} {fields : List (String × Value)}
      (h : Enclosed (Field Written) '\x7d' text fields rest) :
      Written ('\x7b' :: text) (.object fields) rest

/-- **A text is a document that holds this value:** it has the value and nothing else but white
space around it. -/
def Document (text : String) (v : Value) : Prop :=
  ∃ start rest, Spaces text.toList start ∧ Written start v rest ∧ Spaces rest []

/-- No number starts with white space or a closing bracket. -/
theorem Numeral.halts_endsList (n : Numeral) (rest : List Char) :
    Halts endsList (n.text ++ rest) := by
  intro c hc
  obtain ⟨others, hothers⟩ := List.head?_eq_some_iff.mp hc
  rw [Bool.eq_false_iff]
  intro hends
  simp only [endsList, isSpace, closes, Bool.or_eq_true, decide_eq_true_eq] at hends
  rcases Numeral.head_text hothers.symm with rfl | hdigit
  · revert hends
    decide
  · rcases hends with (((rfl | rfl) | rfl) | rfl) | rfl | rfl <;> cases hdigit

/-- No value starts with white space or a closing bracket. -/
theorem visible_written : Visible Written := by
  intro text v rest h
  cases h with
  | number n h =>
    rw [h]
    exact n.halts_endsList rest
  | _ => exact Halts.cons rfl

/-- No field does either. -/
theorem visible_field {value : List Char → Value → List Char → Prop} : Visible (Field value) := by
  intro text field rest h
  cases h
  exact Halts.cons rfl

/-- A field is read in one way when its value is. -/
theorem Field.definite {field : String × Value} (hvalue : Definite Written field.2) :
    Definite (Field Written) field := by
  intro text rest rest' field' h h' hrest hrest'
  cases h with
  | intro hkey hcolon hbefore h =>
    cases h' with
    | intro hkey' hcolon' hbefore' h' =>
      obtain ⟨rfl, rfl⟩ := hkey.unique hkey'
      have hmark : ∀ text, Halts isSpace (':' :: text) := fun _ => Halts.cons rfl
      obtain rfl := List.tail_eq_of_cons_eq (hcolon.unique hcolon' (hmark _) (hmark _))
      obtain rfl := hbefore.unique hbefore' (visible_written.halts_isSpace h)
        (visible_written.halts_isSpace h')
      obtain ⟨rfl, rfl⟩ := hvalue h h' hrest hrest'
      exact ⟨rfl, rfl⟩

/-- **A value is read in one way** in front of what does not continue a number. The first character
tells what kind of value it is. -/
theorem Written.definite (v : Value) : Definite Written v := by
  induction v using Value.induction with
  | null =>
    rintro text rest rest' v' ⟨⟩ h' - -
    cases h' with
    | null => exact ⟨rfl, rfl⟩
    | number n h' => exact absurd h' (Numeral.cons_ne_text (by decide) rfl)
  | bool b =>
    intro text rest rest' v' h h' _ _
    cases h with
    | boolTrue =>
      cases h' with
      | boolTrue => exact ⟨rfl, rfl⟩
      | number n h' => exact absurd h' (Numeral.cons_ne_text (by decide) rfl)
    | boolFalse =>
      cases h' with
      | boolFalse => exact ⟨rfl, rfl⟩
      | number n h' => exact absurd h' (Numeral.cons_ne_text (by decide) rfl)
  | number q =>
    intro text rest rest' v' h h' hrest hrest'
    cases h with
    | number n h =>
      cases h' with
      | number n' h' =>
        obtain ⟨hvalue, rfl⟩ := Numeral.unique hrest hrest' (h.symm.trans h')
        exact ⟨by rw [hvalue], rfl⟩
      | _ => exact absurd h (Numeral.cons_ne_text (by decide) rfl)
  | string chars =>
    intro text rest rest' v' h h' _ _
    cases h with
    | string h =>
      cases h' with
      | string h' =>
        obtain ⟨rfl, rfl⟩ := h.unique h'
        exact ⟨rfl, rfl⟩
      | number n h' => exact absurd h' (Numeral.cons_ne_text (by decide) rfl)
  | array items ih =>
    intro text rest rest' v' h h' _ _
    cases h with
    | array h =>
      cases h' with
      | array h' =>
        obtain ⟨rfl, rfl⟩ := h.unique visible_written rfl ih h'
        exact ⟨rfl, rfl⟩
      | number n h' => exact absurd h' (Numeral.cons_ne_text (by decide) rfl)
  | object fields ih =>
    intro text rest rest' v' h h' _ _
    cases h with
    | object h =>
      cases h' with
      | object h' =>
        obtain ⟨rfl, rfl⟩ :=
          h.unique visible_field rfl (fun field hfield => Field.definite (ih field hfield)) h'
        exact ⟨rfl, rfl⟩
      | number n h' => exact absurd h' (Numeral.cons_ne_text (by decide) rfl)

/-- **A document holds one value.** -/
theorem Document.unique {text : String} {v v' : Value} (h : Document text v)
    (h' : Document text v') : v = v' := by
  obtain ⟨start, rest, hbefore, hvalue, hafter⟩ := h
  obtain ⟨start', rest', hbefore', hvalue', hafter'⟩ := h'
  obtain rfl := hbefore.unique hbefore' (visible_written.halts_isSpace hvalue)
    (visible_written.halts_isSpace hvalue')
  exact (Written.definite v hvalue hvalue' (hafter.stops Halts.nil) (hafter'.stops Halts.nil)).1

end LongFunctions.Json
