/-
JSON, as far as a summary needs it, and its pretty form.

A value is a natural number, a string, an array, or an object whose fields stand in an order.

A string is written between quotes. It may not hold a bare quote, a bare backslash or a control
character, so these are written as escapes: seven characters have a letter of their own behind the
backslash, the other characters below U+0020 are written by their four hexadecimal digits, in lower
case. Everything else stands for itself, the slash, U+007F and all of non-ASCII text included.

In the pretty form each item of an array and each field of an object stands on a line of its own,
two spaces further in than the brackets around it. An array or an object without content is just its
two brackets.
-/

set_option autoImplicit false

namespace LongFunctions

/-! ## 1. Values -/

/-- A JSON value. -/
inductive Json where
  | num (n : Nat)
  | str (text : String)
  | arr (items : List Json)
  | obj (fields : List (String × Json))

namespace Json

/-! ## 2. Text between quotes -/

/-- The letter that stands behind the backslash for a character that has one. -/
def escapeLetter? : Char → Option Char
  | '"' => some '"'
  | '\\' => some '\\'
  | '\x08' => some 'b'
  | '\x0c' => some 'f'
  | '\n' => some 'n'
  | '\r' => some 'r'
  | '\t' => some 't'
  | _ => none

/-- A character as it stands inside quotes. -/
def escape (c : Char) : List Char :=
  match escapeLetter? c with
  | some letter => ['\\', letter]
  | none =>
    if c.toNat < 0x20 then
      ['\\', 'u', '0', '0', Nat.digitChar (c.toNat / 16), Nat.digitChar (c.toNat % 16)]
    else [c]

/-- A text in quotes. -/
def quoted (text : String) : String :=
  String.ofList ('"' :: (text.toList.flatMap escape ++ ['"']))

/-! ## 3. The pretty form -/

/-- A line break and the indentation of a line that stands `depth` levels deep. -/
def newline (depth : Nat) : String :=
  "\n" ++ String.ofList (List.replicate (2 * depth) ' ')

/-- Brackets at the given depth around parts that are written out already. -/
def bracketed (opening closing : String) (depth : Nat) (parts : List String) : String :=
  if parts.isEmpty then opening ++ closing
  else
    opening ++ newline (depth + 1) ++ String.intercalate ("," ++ newline (depth + 1)) parts
      ++ newline depth ++ closing

mutual

/-- A value that starts on a line `depth` levels deep. -/
def prettyAt (depth : Nat) : Json → String
  | .num n => n.repr
  | .str text => quoted text
  | .arr items => bracketed "[" "]" depth (prettyItems (depth + 1) items)
  | .obj fields => bracketed "\x7b" "\x7d" depth (prettyFields (depth + 1) fields)

/-- The items of an array, each as it is written `depth` levels deep. -/
def prettyItems (depth : Nat) : List Json → List String
  | [] => []
  | item :: rest => prettyAt depth item :: prettyItems depth rest

/-- The fields of an object, each as it is written `depth` levels deep. -/
def prettyFields (depth : Nat) : List (String × Json) → List String
  | [] => []
  | (key, value) :: rest => (quoted key ++ ": " ++ prettyAt depth value) :: prettyFields depth rest

end

/-- A value in its pretty form. -/
def pretty (value : Json) : String :=
  prettyAt 0 value

end Json

end LongFunctions
