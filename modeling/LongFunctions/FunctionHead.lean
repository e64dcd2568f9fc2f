/-
What the first line of a C function definition looks like.

A function head is a single line of the shape

    [static] TYPE [*]NAME ( ARGUMENTS ) [{]

with nothing after the optional brace. It is found by looking at characters, not by parsing C:
`TYPE` and `NAME` are runs of word characters, there is white space between them, and `ARGUMENTS`
is anything without a closing parenthesis. So a prototype is no function head (it ends in a
semicolon), nor is a definition spread over several lines, while `else if (x)` is one.

Nothing here has to guess. The first `(` of the line is the one before the arguments, for no
earlier part may hold one, and the first `)` after it is the one behind them. What stands before
the `(` is then read from its right end: white space, the name, perhaps a star, white space, the
type. Each of these runs is as long as it can be, because its neighbour consists of other
characters, so there is at most one way to read the line and the name does not depend on a
strategy of search.
-/
import LongFunctions.Text

set_option autoImplicit false

namespace LongFunctions

namespace FunctionHead

/-! ## 1. Behind the opening parenthesis -/

/-- Whether the text is white space and then at most an opening brace. -/
def isBodyStart (text : List Char) : Bool :=
  match text.dropWhile isBlank with
  | [] => true
  | ['{'] => true
  | _ => false

/-- Whether the text, which follows an opening parenthesis, is the arguments, the closing
parenthesis and the start of a body. -/
def closesArguments (text : List Char) : Bool :=
  match text.dropWhile (· ≠ ')') with
  | [] => false
  | _ :: rest => isBodyStart rest

/-! ## 2. Before the opening parenthesis -/

/-- Whether the text is empty or the word `static` with white space behind it: what may stand in
front of the type. -/
def isStorage (text : List Char) : Bool :=
  text.isEmpty ||
    ("static".toList.isPrefixOf text && !(text.drop 6).isEmpty && (text.drop 6).all isBlank)

/-- The text without the star at its head, if there is one there. -/
def dropStar : List Char → List Char
  | '*' :: rest => rest
  | text => text

/-- The name at the end of a text that ends where the arguments begin, or nothing if the text is
not storage, type and name. -/
def nameBefore? (text : List Char) : Option (List Char) :=
  let named := text.reverse.dropWhile isBlank
  let name := named.takeWhile isWord
  let gapped := dropStar (named.dropWhile isWord)
  let gap := gapped.takeWhile isBlank
  let typed := gapped.dropWhile isBlank
  let type := typed.takeWhile isWord
  let storage := typed.dropWhile isWord
  if name ≠ [] ∧ gap ≠ [] ∧ type ≠ [] ∧ isStorage storage.reverse then some name.reverse
  else none

/-! ## 3. The line -/

/-- The name in a function head, as characters. -/
def name? (line : List Char) : Option (List Char) :=
  if "typedef".toList.isPrefixOf line then none
  else
    match line.dropWhile (· ≠ '(') with
    | [] => none
    | _ :: behind =>
      if closesArguments behind then nameBefore? (line.takeWhile (· ≠ '(')) else none

end FunctionHead

/-- The name of the function that the line starts to define, or nothing if the line is not a
function head. A line that starts with `typedef` never is one. -/
def headName? (line : String) : Option String :=
  (FunctionHead.name? line.toList).map String.ofList

end LongFunctions
