import TrigPainting.Regex.Cursor

/-!
# Escapes

A backslash gives the character behind it another meaning: it stands for itself
where it would not, or for a class, a condition, or a character that is named by
its number.

## Main definitions

- `readEscape` — the part of an expression that begins with a backslash
-/

namespace TrigPainting.Regex

/-- Whether a character has a meaning of its own somewhere in an expression. -/
def isMeta (c : Char) : Bool :=
  ['\\', '.', '+', '*', '?', '(', ')', '|', '[', ']', '\x7b', '\x7d', '^', '$', '#', '&', '-',
    '~'].contains c

/-- Whether a character stands for itself behind a backslash: ASCII characters do
that are neither letters nor digits, and no angle brackets. -/
def isEscapable (c : Char) : Bool :=
  isMeta c || (c.toNat < 128 && !c.isAlphanum && c != '<' && c != '>')

/-- Whether a character is a hexadecimal digit. -/
def isHex (c : Char) : Bool :=
  c.isDigit || ('a' ≤ c && c ≤ 'f') || ('A' ≤ c && c ≤ 'F')

/-- The character of a number, if there is one. -/
def charOf? (n : Nat) : Option Char :=
  if n < 0xD800 ∨ (0xE000 ≤ n ∧ n < 0x110000) then some (Char.ofNat n) else none

/-- Reads so many hexadecimal digits. -/
def readHexDigits : Nat → Reading (List Char)
  | 0 => return []
  | more + 1 => do
    match ← peek with
    | none => fail .escapeUnexpectedEnd (.point (← place))
    | some c =>
      if isHex c then
        advanceSkipping
        return c :: (← readHexDigits more)
      else fail .escapeHexInvalidDigit (← charSpan)

/-- Reads a number in braces, from the opening brace on. -/
def readHexBraces (escape : Position) : Reading Literal := do
  let brace ← place
  let start := (← charSpan).stop
  advanceSkipping
  let digits ← collect isHex
  match ← peek with
  | none => fail .escapeUnexpectedEnd (← spanFrom brace)
  | some c =>
    if c != '\x7d' then fail .escapeHexInvalidDigit (← charSpan)
    let stop ← place
    advanceSkipping
    if digits.isEmpty then fail .escapeHexEmpty (← spanFrom brace)
    match charOf? (numberOf 16 digits) with
    | none => fail .escapeHexInvalid ⟨start, stop⟩
    | some char => return { span := ← spanFrom escape, char }

/-- Reads a character that is named by its number, from the letter on. -/
def readHex (escape : Position) (letter : Char) : Reading Literal := do
  advanceSkipping
  match ← peek with
  | none => fail .escapeUnexpectedEnd (.point (← place))
  | some '\x7b' => readHexBraces escape
  | some _ =>
    let start ← place
    let digits ← readHexDigits (if letter = 'x' then 2 else if letter = 'u' then 4 else 8)
    match charOf? (numberOf 16 digits) with
    | none => fail .escapeHexInvalid (← spanFrom start)
    | some char => return { span := ← spanFrom escape, char, isByte := letter = 'x' }

/-- Whether a name asks for the value of a property. -/
def isValued (name : List Char) : Bool :=
  name.contains ':' || name.contains '='

/-- Reads the name of a property, from the letter on. -/
def readProperty (escape : Position) (letter : Char) : Reading Property := do
  let negated := letter == 'P'
  advanceSkipping
  match ← peek with
  | none => fail .escapeUnexpectedEnd (.point (← place))
  | some '\x7b' =>
    advanceSkipping
    let name ← collect (· != '\x7d')
    if (← peek).isNone then fail .escapeUnexpectedEnd (.point (← place))
    advance
    return ⟨← spanFrom escape, if isValued name then none else some name, negated⟩
  | some c =>
    if c = '\\' then fail .unicodeClassInvalid (← charSpan)
    advanceSkipping
    return ⟨← spanFrom escape, some [c], negated⟩

/-- Whether a character may stand in the name of a condition on words. -/
def isAnchorLetter (c : Char) : Bool :=
  c.isAlpha || c == '-'

/-- The condition on words that has a name. -/
def wordAnchor? (name : String) : Option Anchor :=
  match name with
  | "start" => some .wordStart
  | "end" => some .wordEnd
  | "start-half" => some .wordStartHalf
  | "end-half" => some .wordEndHalf
  | _ => none

/-- Reads the name in braces that may follow the condition of a word boundary.
Braces that hold no name are left to be read as a repetition. -/
def readWordAnchor (escape : Position) : Reading Anchor := do
  let before ← get
  advanceSkipping
  let contents ← place
  match ← peek with
  | none => fail .wordBoundaryUnexpectedEnd (← spanFrom escape)
  | some c =>
    if !isAnchorLetter c then
      set before
      return .wordBoundary
    let name ← collect isAnchorLetter
    if (← peek) != some '\x7d' then
      fail .wordBoundaryUnclosed (← spanFrom before.position)
    let stop ← place
    advance
    match wordAnchor? (String.ofList name) with
    | some anchor => return anchor
    | none => fail .wordBoundaryUnrecognized ⟨contents, stop⟩

/-- The control character that a letter stands for. -/
def controlOf? : Char → Option Char
  | 'a' => some '\x07'
  | 'f' => some '\x0C'
  | 't' => some '\t'
  | 'n' => some '\n'
  | 'r' => some '\r'
  | 'v' => some '\x0B'
  | _ => none

/-- The condition that a character stands for. -/
def anchorOf? : Char → Option Anchor
  | 'A' => some .textStart
  | 'z' => some .textEnd
  | 'b' => some .wordBoundary
  | 'B' => some .notWordBoundary
  | '<' => some .wordStart
  | '>' => some .wordEnd
  | _ => none

/-- The class that a letter stands for, and whether it is what a class leaves out. -/
def shorthandOf? : Char → Option (ShorthandKind × Bool)
  | 'd' => some (.digit, false)
  | 's' => some (.space, false)
  | 'w' => some (.word, false)
  | 'D' => some (.digit, true)
  | 'S' => some (.space, true)
  | 'W' => some (.word, true)
  | _ => none

/-- Reads the part of an expression that begins with a backslash. -/
def readEscape : Reading Tree := do
  let start ← place
  advance
  match ← peek with
  | none => fail .escapeUnexpectedEnd (← spanFrom start)
  | some c =>
    if c.isDigit then fail .backreference ⟨start, (← charSpan).stop⟩
    if c = 'x' ∨ c = 'u' ∨ c = 'U' then return .literal (← readHex start c)
    if c = 'p' ∨ c = 'P' then return .property (← readProperty start c)
    advance
    let span ← spanFrom start
    if let some (kind, negated) := shorthandOf? c then return .shorthand ⟨span, kind, negated⟩
    if isEscapable c then return .literal { span, char := c }
    if let some char := controlOf? c then return .literal { span, char }
    match anchorOf? c with
    | none => fail .escapeUnrecognized span
    | some .wordBoundary =>
      if (← peek) = some '\x7b' then
        let anchor ← readWordAnchor start
        return .anchor (← spanFrom start) anchor
      else return .anchor span .wordBoundary
    | some anchor => return .anchor span anchor

end TrigPainting.Regex
