/-!
# Quoted text

A JSON document holds text between quotation marks. The quotation mark, the
backslash and the control characters are escaped, and nothing else is.

## Main definitions

- `quote` — the quoted form of a text
- `unquote?` — the text of a quoted form, and what follows the closing mark
-/

namespace TrigPainting.Text

/-- A hexadecimal digit, in lower case. -/
def hexDigit (n : Nat) : Char :=
  Nat.digitChar (n % 16)

/-- The quoted form of one character. -/
def escape (c : Char) : List Char :=
  match c with
  | '"' => ['\\', '"']
  | '\\' => ['\\', '\\']
  | '\n' => ['\\', 'n']
  | '\r' => ['\\', 'r']
  | '\t' => ['\\', 't']
  | '\x08' => ['\\', 'b']
  | '\x0C' => ['\\', 'f']
  | c =>
    if c.toNat < 0x20 then
      ['\\', 'u', '0', '0', hexDigit (c.toNat / 16), hexDigit c.toNat]
    else [c]

/-- A text between quotation marks. -/
def quote (s : String) : String :=
  String.ofList ('"' :: (s.toList.flatMap escape ++ ['"']))

/-- The value of a hexadecimal digit of either case. -/
def hexValue? (c : Char) : Option Nat :=
  if '0' ≤ c ∧ c ≤ '9' then some (c.toNat - '0'.toNat)
  else if 'a' ≤ c ∧ c ≤ 'f' then some (c.toNat - 'a'.toNat + 10)
  else if 'A' ≤ c ∧ c ≤ 'F' then some (c.toNat - 'A'.toNat + 10)
  else none

/-- The number that four hexadecimal digits make. -/
def hexUnit? (a b c d : Char) : Option Nat := do
  let a ← hexValue? a
  let b ← hexValue? b
  let c ← hexValue? c
  let d ← hexValue? d
  return ((a * 16 + b) * 16 + c) * 16 + d

/-- The character that one unit of sixteen bits encodes alone. -/
def charOfUnit? (unit : Nat) : Option Char :=
  if 0xD800 ≤ unit ∧ unit < 0xE000 then none else some (Char.ofNat unit)

/-- The character that two units of sixteen bits encode together. -/
def charOfPair? (high low : Nat) : Option Char :=
  if 0xD800 ≤ high ∧ high < 0xDC00 ∧ 0xDC00 ≤ low ∧ low < 0xE000 then
    some (Char.ofNat (0x10000 + (high - 0xD800) * 0x400 + (low - 0xDC00)))
  else none

/-- The character that an escape of one letter stands for. -/
def charOfEscape? : Char → Option Char
  | '"' => some '"'
  | '\\' => some '\\'
  | '/' => some '/'
  | 'n' => some '\n'
  | 'r' => some '\r'
  | 't' => some '\t'
  | 'b' => some '\x08'
  | 'f' => some '\x0C'
  | _ => none

/-- The text up to the closing quotation mark, after the characters `read` in
reverse, and what follows that mark. -/
def unquoteOnto? (read : List Char) : List Char → Option (String × List Char)
  | [] => none
  | '"' :: rest => some (String.ofList read.reverse, rest)
  | '\\' :: 'u' :: a :: b :: c :: d :: '\\' :: 'u' :: e :: f :: g :: h :: rest =>
    match hexUnit? a b c d with
    | none => none
    | some high =>
      match charOfUnit? high with
      | some char => unquoteOnto? (char :: read) ('\\' :: 'u' :: e :: f :: g :: h :: rest)
      | none =>
        match (hexUnit? e f g h).bind (charOfPair? high) with
        | some char => unquoteOnto? (char :: read) rest
        | none => none
  | '\\' :: 'u' :: a :: b :: c :: d :: rest =>
    match (hexUnit? a b c d).bind charOfUnit? with
    | some char => unquoteOnto? (char :: read) rest
    | none => none
  | '\\' :: c :: rest =>
    match charOfEscape? c with
    | some char => unquoteOnto? (char :: read) rest
    | none => none
  | c :: rest => if c.toNat < 0x20 then none else unquoteOnto? (c :: read) rest

/-- The text whose quoted form starts after an opening mark, and what follows. -/
def unquote? (text : List Char) : Option (String × List Char) :=
  unquoteOnto? [] text

end TrigPainting.Text
