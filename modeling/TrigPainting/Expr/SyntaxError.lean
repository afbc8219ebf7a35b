import TrigPainting.Decimal.Natural
import TrigPainting.Expr.Basic

/-!
# Errors in expression text

Reading stops at the first character that no expression text can have in its
place. The error names that place, the character found there and what would
have been accepted.

## Main definitions

- `Word` — the words that are read letter by letter
- `Expected` — what would have been accepted
- `SyntaxError`, `SyntaxError.message` — the error and its wording
-/

namespace TrigPainting

/-- The greatest number of groups that may be open at once. -/
def maxNesting : Nat := 256

/-- A word of more than one letter: the call of a wave, its parenthesis
included, or the constant. -/
inductive Word where
  | call (w : Wave)
  | pi
deriving DecidableEq, Repr

/-- The first letter of a word. -/
def Word.initial : Word → Char
  | call .sine => 's'
  | call .cosine => 'c'
  | pi => 'p'

/-- The second letter of a word. -/
def Word.second : Word → Char
  | call .sine => 'i'
  | call .cosine => 'o'
  | pi => 'i'

/-- The letters of a word from the third on. -/
def Word.ending : Word → List Char
  | call .sine => ['n', '(']
  | call .cosine => ['s', '(']
  | pi => []

/-- The spelling of a word. -/
def Word.letters (word : Word) : List Char :=
  word.initial :: word.second :: word.ending

/-- What would have been accepted where reading stopped. -/
inductive Expected where
  /-- The rest of a word whose first letters were read. -/
  | word (word : Word)
  /-- The parenthesis that closes the innermost group. -/
  | closing
  /-- The start of a factor. -/
  | term
  /-- The end of the text. -/
  | endOfInput
  /-- Anything but a further group. -/
  | shallower
deriving DecidableEq, Repr

namespace Expected

/-- What was expected, in words. -/
def message : Expected → String
  | word w => "'" ++ String.ofList w.letters ++ "'"
  | closing => "')'"
  | term => "a term"
  | endOfInput => "end of input"
  | shallower => "at most " ++ Decimal.naturalText maxNesting ++ " nested groups"

end Expected

/-- The first place where a text fails to be an expression. -/
structure SyntaxError where
  /-- The number of characters before that place, blanks included. -/
  position : Nat
  /-- The character there, if the text does not end. -/
  found : Option Char
  /-- What would have been accepted there. -/
  expected : Expected
deriving DecidableEq, Repr

namespace SyntaxError

/-- The wording of an error: a missing spelling is named, any other misfit is
called unexpected, and too deep nesting is told as such whatever was found. -/
def message (e : SyntaxError) : String :=
  let place := Decimal.naturalText e.position
  match e.expected, e.found with
  | .shallower, _ =>
    "expressions nest deeper than " ++ Decimal.naturalText maxNesting ++ " levels at index " ++ place
  | .word _, some c | .closing, some c =>
    "expected " ++ e.expected.message ++ " at index " ++ place ++ " but found '" ++ c.toString ++ "'"
  | .word _, none | .closing, none =>
    "expected " ++ e.expected.message ++ " at index " ++ place ++ " but found end of input"
  | _, some c => "unexpected character at index " ++ place ++ ": '" ++ c.toString ++ "'"
  | _, none => "unexpected end of input at index " ++ place

/-- The same error in a text that has `offset` more characters in front. -/
def shift (e : SyntaxError) (offset : Nat) : SyntaxError :=
  { e with position := e.position + offset }

end SyntaxError

end TrigPainting
