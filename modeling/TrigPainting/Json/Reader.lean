import TrigPainting.Decimal.Numeral
import TrigPainting.Json.Basic

/-!
# Reading JSON documents

## Main definitions

- `Json.parse?` — the document that a text holds

## Design notes

Every call of the mutually recursive readers is given one step less than its
caller, and each reads at least one character before it calls another, so the
length of the text bounds the number of steps.
-/

namespace TrigPainting.Json

/-- The blanks of JSON. -/
def isSpace (c : Char) : Bool :=
  c == ' ' || c == '\t' || c == '\n' || c == '\r'

/-- What follows the blanks at the start of a text. -/
def skipSpace (text : List Char) : List Char :=
  text.dropWhile isSpace

/-- The characters that a number may consist of. -/
def isNumeric (c : Char) : Bool :=
  (Decimal.digit? c).isSome || c == '-' || c == '+' || c == '.' || c == 'e' || c == 'E'

/-- The document of a number's text. A whole number outside the range of words
of 64 bits, with or without sign, is kept as the nearest binary64 number, and so
is negative zero. -/
def numberOf? (text : List Char) : Option Json :=
  let whole := text.all fun c => (Decimal.digit? c).isSome || c == '-'
  match if whole then Decimal.readInteger? text else none with
  | some n =>
    if -0x8000000000000000 ≤ n ∧ n < 0x10000000000000000 ∧ text ≠ ['-', '0'] then some (integer n)
    else number <$> Decimal.readFloat? text
  | none => number <$> Decimal.readFloat? text

mutual

/-- The document at the start of a text, and what follows it. -/
def readValue : Nat → List Char → Option (Json × List Char)
  | 0, _ => none
  | steps + 1, text =>
    match skipSpace text with
    | 'n' :: 'u' :: 'l' :: 'l' :: rest => some (null, rest)
    | 't' :: 'r' :: 'u' :: 'e' :: rest => some (bool true, rest)
    | 'f' :: 'a' :: 'l' :: 's' :: 'e' :: rest => some (bool false, rest)
    | '"' :: rest => (Text.unquote? rest).map fun (s, rest) => (string s, rest)
    | '[' :: rest =>
      match skipSpace rest with
      | ']' :: rest => some (array [], rest)
      | rest => (readItems steps rest).map fun (items, rest) => (array items, rest)
    | '\x7b' :: rest =>
      match skipSpace rest with
      | '\x7d' :: rest => some (object [], rest)
      | rest => (readFields steps rest).map fun (fields, rest) => (object fields, rest)
    | rest =>
      (numberOf? (rest.takeWhile isNumeric)).map fun value => (value, rest.dropWhile isNumeric)

/-- The items up to the closing bracket of an array, and what follows it. -/
def readItems : Nat → List Char → Option (List Json × List Char)
  | 0, _ => none
  | steps + 1, text => do
    let (item, rest) ← readValue steps text
    match skipSpace rest with
    | ',' :: rest =>
      let (items, rest) ← readItems steps rest
      some (item :: items, rest)
    | ']' :: rest => some ([item], rest)
    | _ => none

/-- The fields up to the closing brace of an object, and what follows it. -/
def readFields : Nat → List Char → Option (List (String × Json) × List Char)
  | 0, _ => none
  | steps + 1, text =>
    match skipSpace text with
    | '"' :: rest => do
      let (key, rest) ← Text.unquote? rest
      match skipSpace rest with
      | ':' :: rest =>
        let (value, rest) ← readValue steps rest
        match skipSpace rest with
        | ',' :: rest =>
          let (fields, rest) ← readFields steps rest
          some ((key, value) :: fields, rest)
        | '\x7d' :: rest => some ([(key, value)], rest)
        | _ => none
      | _ => none
    | _ => none

end

/-- The document that a text holds, blanks around it aside. -/
def parse? (text : String) : Option Json :=
  let chars := text.toList
  match readValue (chars.length + 1) chars with
  | some (json, rest) => if (skipSpace rest).isEmpty then some json else none
  | none => none

end TrigPainting.Json
