import TrigPainting.Regex.Pattern
import TrigPainting.Regex.Reader

/-!
# The meaning of regular expressions

A tree becomes a pattern by the options that are in force at each of its parts.

## Main definitions

- `Options` — the options in force
- `CharSet.ofItem`, `CharSet.ofSet` — what stands between brackets
- `Tree.pattern` — the pattern of a tree
- `Pattern.ofText` — the pattern of a text, or why there is none

## Design notes

No tables of the Unicode character database are at hand for classes, for words or
for the cases of letters. Expressions that ask for them are refused, unless the
option that turns them to ASCII is set. Expressions for ASCII must not match parts
of the encoding of other characters.
-/

namespace TrigPainting.Regex

/-- The options in force. -/
structure Options where
  caseless : Bool := false
  multiLine : Bool := false
  dotAll : Bool := false
  unicode : Bool := true
  carriageReturn : Bool := false
deriving DecidableEq, Repr

/-- Options, some of which are set anew. -/
def Options.update (o : Options) (items : List SwitchItem) : Options where
  caseless := (stateOf? .caseless true items).getD o.caseless
  multiLine := (stateOf? .multiLine true items).getD o.multiLine
  dotAll := (stateOf? .dotAll true items).getD o.dotAll
  unicode := (stateOf? .unicode true items).getD o.unicode
  carriageReturn := (stateOf? .carriageReturn true items).getD o.carriageReturn

/-- An error without related parts. -/
def refuse {α : Type} (cause : Cause) (span : Span) : Except Error α :=
  .error ⟨cause, span, none⟩

/-- Whether a character belongs to a named class. -/
def AsciiClass.has (name : AsciiClass) (c : Char) : Bool :=
  c.toNat < 128 &&
    match name with
    | alnum => c.isAlphanum
    | alpha => c.isAlpha
    | ascii => true
    | blank => c == ' ' || c == '\t'
    | cntrl => c.toNat < 0x20 || c.toNat == 0x7F
    | digit => c.isDigit
    | graph => 0x20 < c.toNat && c.toNat < 0x7F
    | lower => c.isLower
    | print => 0x20 ≤ c.toNat && c.toNat < 0x7F
    | punct => 0x20 < c.toNat && c.toNat < 0x7F && !c.isAlphanum
    | space => c == ' ' || (0x09 ≤ c.toNat && c.toNat ≤ 0x0D)
    | upper => c.isUpper
    | word => isWordChar c
    | xdigit => isHex c

/-- The named class that a letter stands for. -/
def ShorthandKind.asciiClass : ShorthandKind → AsciiClass
  | digit => .digit
  | space => .space
  | word => .word

namespace CharSet

/-- The set without characters. -/
def none : CharSet := ⟨fun _ => false, true, true⟩

/-- A set of ASCII characters. -/
def ofAscii (has : Char → Bool) : CharSet := ⟨has, true, false⟩

/-- The characters from one to another. -/
def ofRange (first last : Char) : CharSet :=
  ⟨fun c => decide (first ≤ c) && decide (c ≤ last), last.toNat < 128, false⟩

/-- The characters of two sets. -/
def union (s t : CharSet) : CharSet :=
  ⟨fun c => s.has c || t.has c, s.ascii && t.ascii, s.folded && t.folded⟩

/-- The characters that a set leaves out. -/
def complement (s : CharSet) : CharSet :=
  ⟨fun c => !s.has c, false, s.folded⟩

/-- A set with the other case of each ASCII letter. -/
def foldAscii (s : CharSet) : CharSet :=
  ⟨fun c => s.has c || (c.isAlpha && (s.has c.toLower || s.has c.toUpper)), s.ascii, true⟩

/-- Two sets joined by an operation. -/
def operate (op : SetOperation) (s t : CharSet) : CharSet :=
  match op with
  | .intersection => ⟨fun c => s.has c && t.has c, s.ascii || t.ascii, s.folded && t.folded⟩
  | .difference => ⟨fun c => s.has c && !t.has c, s.ascii, s.folded && t.folded⟩
  | .symmetricDifference =>
    ⟨fun c => s.has c != t.has c, s.ascii && t.ascii, s.folded && t.folded⟩

/-- A set with the other cases of its letters, if case does not matter. -/
def fold (o : Options) (span : Span) (s : CharSet) : Except Error CharSet :=
  if !o.caseless then .ok s
  else if !o.unicode then .ok s.foldAscii
  else if s.folded then .ok s
  else refuse .caseFoldingUnavailable span

/-- A set or what it leaves out. -/
def negateIf (o : Options) (span : Span) (negated : Bool) (s : CharSet) : Except Error CharSet :=
  if !negated then .ok s
  else if o.unicode then .ok s.complement
  else refuse .invalidUtf8 span

/-- A character that is an end of a range, or stands alone between brackets. -/
def member (o : Options) (l : Literal) : Except Error Char :=
  if o.unicode ∨ l.char.toNat < 128 then .ok l.char
  else if l.isByte then refuse .invalidUtf8 l.span
  else refuse .unicodeNotAllowed l.span

/-- A class that is named by a letter. -/
def ofShorthand (o : Options) (s : Shorthand) : Except Error CharSet :=
  if o.unicode then refuse .shorthandNotFound s.span
  else negateIf o s.span s.negated (ofAscii s.kind.asciiClass.has)

/-- The name of a property without what does not count in it: blanks, lines,
cases and a leading `is`. -/
def plainName (name : List Char) : List Char :=
  let lower := name.map Char.toLower
  let body := if ['i', 's'].isPrefixOf lower then lower.drop 2 else lower
  let kept := body.filter fun c => c.toNat < 128 && c != ' ' && c != '_' && c != '-'
  if body.length < lower.length ∧ kept = ['c'] then ['i', 's', 'c'] else kept

/-- The characters with a property. There are none at hand, and only for three
names it is the value that is missing, and not the property. -/
def ofProperty (o : Options) (p : Property) : Except Error CharSet :=
  if !o.unicode then refuse .unicodeNotAllowed p.span
  else if [['c', 'f'], ['s', 'c'], ['l', 'c']].contains ((p.name.map plainName).getD []) then
    refuse .propertyValueNotFound p.span
  else refuse .propertyNotFound p.span

mutual

/-- The characters of an item and of the items in front of it. -/
def addItem (o : Options) (before : CharSet) : ClassItem → Except Error CharSet
  | .empty _ => .ok before
  | .literal l => do
    let c ← member o l
    return before.union (ofRange c c)
  | .range _ first last => do
    let first ← member o first
    let last ← member o last
    return before.union (ofRange first last)
  | .named span name negated => do
    let s ← fold o span (ofAscii name.has)
    return before.union (← negateIf o span negated s)
  | .property p => return before.union (← ofProperty o p)
  | .shorthand s => return before.union (← ofShorthand o s)
  | .bracketed span negated set => do
    let s ← fold o span (← addSet o none set)
    return before.union (← negateIf o span negated s)
  | .union _ items => addItems o before items

/-- The characters of items and of those in front of them. -/
def addItems (o : Options) (before : CharSet) : List ClassItem → Except Error CharSet
  | [] => .ok before
  | item :: items => do addItems o (← addItem o before item) items

/-- The characters of a set and of the items in front of it. -/
def addSet (o : Options) (before : CharSet) : ClassSet → Except Error CharSet
  | .item i => addItem o before i
  | .operation _ op left right => do
    let l ← addSet o none left
    let r ← addSet o none right
    let r ← fold o right.span r
    let l ← fold o left.span l
    return before.union (operate op l r)

end

end CharSet

namespace Look

/-- The condition that is meant under the options in force. -/
def ofAnchor (o : Options) : Anchor → Look
  | .lineStart => if o.multiLine then lineStart o.carriageReturn else textStart
  | .lineEnd => if o.multiLine then lineEnd o.carriageReturn else textEnd
  | .textStart => textStart
  | .textEnd => textEnd
  | .wordBoundary => word .boundary o.unicode
  | .notWordBoundary => word .noBoundary o.unicode
  | .wordStart => word .start o.unicode
  | .wordEnd => word .stop o.unicode
  | .wordStartHalf => word .startHalf o.unicode
  | .wordEndHalf => word .stopHalf o.unicode

end Look

/-- The pattern of a character that stands for itself. -/
def Literal.pattern (o : Options) (l : Literal) : Except Error Pattern :=
  if o.unicode then
    if o.caseless then refuse .caseFoldingUnavailable l.span else .ok (.char l.char)
  else if l.isByte ∧ 128 ≤ l.char.toNat then refuse .invalidUtf8 l.span
  else if o.caseless ∧ l.char.isAlpha then
    .ok (.chars (CharSet.ofAscii (· == l.char)).foldAscii)
  else .ok (.char l.char)

/-- The pattern of any character. -/
def anyPattern (o : Options) (span : Span) : Except Error Pattern :=
  if !o.unicode then refuse .invalidUtf8 span
  else
    let stops (c : Char) : Bool := !o.dotAll && (c == '\n' || (o.carriageReturn && c == '\r'))
    .ok (.chars ⟨fun c => !stops c, false, false⟩)

mutual

/-- The pattern of a tree, and the options in force behind it. -/
def Tree.pattern (o : Options) : Tree → Except Error (Pattern × Options)
  | .empty _ => .ok (.empty, o)
  | .switches _ items => .ok (.empty, o.update items)
  | .literal l => return (← l.pattern o, o)
  | .any span => return (← anyPattern o span, o)
  | .anchor _ a => .ok (.look (.ofAnchor o a), o)
  | .property p => return (.chars (← CharSet.ofProperty o p), o)
  | .shorthand s => return (.chars (← CharSet.ofShorthand o s), o)
  | .bracketed span negated set => do
    let s ← CharSet.fold o span (← CharSet.addSet o .none set)
    return (.chars (← CharSet.negateIf o span negated s), o)
  | .repeated _ least most body => do
    let (p, o) ← body.pattern o
    return (.repeated least most p, o)
  | .group _ capturing items body => do
    let (p, _) ← body.pattern (o.update items)
    return (if capturing then .capture p else p, o)
  | .alternatives _ branches => Tree.patternOfAny o branches
  | .sequence _ parts => Tree.patternOfAll o parts

/-- The pattern of a sequence. -/
def Tree.patternOfAll (o : Options) : List Tree → Except Error (Pattern × Options)
  | [] => .ok (.empty, o)
  | [part] => part.pattern o
  | part :: parts => do
    let (p, o) ← part.pattern o
    let (q, o) ← Tree.patternOfAll o parts
    return (.seq p q, o)

/-- The pattern of a choice. -/
def Tree.patternOfAny (o : Options) : List Tree → Except Error (Pattern × Options)
  | [] => .ok (.empty, o)
  | [branch] => branch.pattern o
  | branch :: branches => do
    let (p, o) ← branch.pattern o
    let (q, o) ← Tree.patternOfAny o branches
    return (.alt p q, o)

end

namespace Pattern

/-- The greatest number of bytes of an automaton. -/
def sizeLimit : Nat := 10485760

/-- The report of a pattern that is too large. -/
def tooLarge : String :=
  "Compiled regex exceeds size limit of " ++ Decimal.naturalText sizeLimit ++ " bytes."

/-- The pattern of a text, or the report of why there is none. -/
def ofText (text : List Char) : Except String Pattern :=
  match Tree.ofText text with
  | .error e => .error (e.report text)
  | .ok tree =>
    match tree.pattern {} with
    | .error e => .error (e.report text)
    | .ok (p, _) =>
      if sizeLimit < p.weight false then .error tooLarge
      else if p.needsWords then .error "error building NFA"
      else if sizeLimit < p.weight true then .error tooLarge
      else .ok p

end Pattern

end TrigPainting.Regex
