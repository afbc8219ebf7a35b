import TrigPainting.Regex.Tree
import TrigPainting.Text.Blank

/-!
# Reading with a cursor

The text of an expression is read from left to right. A cursor knows what is left
of it, and whether blanks and comments are skipped.

## Main definitions

- `Cursor`, `Cursor.next`, `Cursor.skip` — the rest of a text
- `Reading` — computations that move a cursor and may fail
- `peek`, `advance`, `advanceSkipping`, `collect` — the steps of readers
-/

namespace TrigPainting.Regex

/-- What is left of a text. -/
structure Cursor where
  rest : List Char
  position : Position := {}
  /-- Blanks and comments are skipped. -/
  verbose : Bool := false
  /-- The names of groups that have been read, and where they stand. -/
  names : List (List Char × Span) := []

namespace Cursor

/-- The cursor behind the next character. -/
def next (cursor : Cursor) : Cursor :=
  match cursor.rest with
  | [] => cursor
  | c :: rest => { cursor with rest, position := cursor.position.after c }

/-- What is left behind blanks and comments. A comment runs from a number sign to
the end of its line. -/
def skipFrom (inComment : Bool) (position : Position) : List Char → Position × List Char
  | [] => (position, [])
  | c :: rest =>
    if inComment then skipFrom (c != '\n') (position.after c) rest
    else if Text.isBlank c then skipFrom false (position.after c) rest
    else if c = '#' then skipFrom true (position.after c) rest
    else (position, c :: rest)

/-- The cursor behind blanks and comments, if they are skipped. -/
def skip (cursor : Cursor) : Cursor :=
  if cursor.verbose then
    let (position, rest) := skipFrom false cursor.position cursor.rest
    { cursor with position, rest }
  else cursor

/-- The character behind the next one and blanks, if they are skipped. Of a
comment the first character is given. -/
def second? (cursor : Cursor) : Option Char :=
  let after := cursor.rest.drop 1
  if cursor.verbose then
    match after.dropWhile Text.isBlank with
    | '#' :: comment => (comment.dropWhile Text.isBlank).head?.or after.head?
    | c :: _ => some c
    | [] => after.head?
  else after.head?

end Cursor

/-- Computations that move a cursor and may fail. -/
abbrev Reading := StateT Cursor (Except Error)

/-- Fails for a cause, at a part of the text. -/
def fail {α : Type} (cause : Cause) (span : Span) : Reading α :=
  throw ⟨cause, span, none⟩

/-- The next character, unless the text ends. -/
def peek : Reading (Option Char) :=
  return (← get).rest.head?

/-- The place that has been reached. -/
def place : Reading Position :=
  return (← get).position

/-- The part from a place to the one that has been reached. -/
def spanFrom (start : Position) : Reading Span :=
  return ⟨start, ← place⟩

/-- The part that the next character takes. -/
def charSpan : Reading Span := do
  let cursor ← get
  return ⟨cursor.position, cursor.next.position⟩

/-- Moves behind the next character. -/
def advance : Reading Unit :=
  modify Cursor.next

/-- Moves behind the next character and what is skipped. -/
def advanceSkipping : Reading Unit :=
  modify fun cursor => cursor.next.skip

/-- Moves behind characters that stand next, or stays. -/
def advanceIf (chars : List Char) : Reading Bool := do
  if chars.isPrefixOf (← get).rest then
    chars.forM fun _ => advance
    return true
  else return false

/-- Reads characters while they fit, at most so many of them. -/
def collectWithin (fits : Char → Bool) : Nat → Reading (List Char)
  | 0 => return []
  | more + 1 => do
    match ← peek with
    | none => return []
    | some c =>
      if fits c then
        advanceSkipping
        return c :: (← collectWithin fits more)
      else return []

/-- Reads characters while they fit. -/
def collect (fits : Char → Bool) : Reading (List Char) := do
  collectWithin fits (← get).rest.length

/-- The value of digits, the most significant first. -/
def numberOf (base : Nat) (digits : List Char) : Nat :=
  digits.foldl (fun n c =>
    let value := if c.isDigit then c.toNat - '0'.toNat else c.toLower.toNat - 'a'.toNat + 10
    base * n + value) 0

/-- Reads a decimal number below `2 ^ 32`, with blanks around it. -/
def readDecimal : Reading (Except Error Nat) := do
  let _ ← collect Text.isBlank
  let start ← place
  let digits ← collect Char.isDigit
  let span ← spanFrom start
  let _ ← collect Text.isBlank
  if digits.isEmpty then return .error ⟨.repetitionCountEmpty, span, none⟩
  else if UInt32.size ≤ numberOf 10 digits then return .error ⟨.decimalInvalid, span, none⟩
  else return .ok (numberOf 10 digits)

end TrigPainting.Regex
