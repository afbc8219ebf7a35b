import TrigPainting.Regex.Escape

/-!
# Bracketed classes

Between brackets stand characters, ranges, classes and further brackets, and
three operations join what stands on their two sides.

## Main definitions

- `Union`, `Bracket` — what has been read of an open bracket
- `readBracket` — a bracketed class

## Design notes

Operations lean to the left and bind looser than standing side by side, so an
open bracket holds at most one operation that waits for its right side.
-/

namespace TrigPainting.Regex

/-- Items that stand side by side. -/
structure Union where
  span : Span
  /-- The items, the last one first. -/
  items : List ClassItem := []

namespace Union

/-- A union with one more item. -/
def push (u : Union) (item : ClassItem) : Union :=
  let start := if u.items.isEmpty then item.span.start else u.span.start
  ⟨⟨start, item.span.stop⟩, item :: u.items⟩

/-- A union as one item. -/
def toItem (u : Union) : ClassItem :=
  match u.items with
  | [] => .empty u.span
  | [item] => item
  | items => .union u.span items.reverse

end Union

/-- What has been read of an open bracket. -/
structure Bracket where
  /-- The part that opens it. -/
  opening : Span
  negated : Bool
  /-- The operation that waits for its right side, and its left side. -/
  waiting : Option (SetOperation × ClassSet) := none
  union : Union

namespace Bracket

/-- A bracket with one more item. -/
def push (b : Bracket) (item : ClassItem) : Bracket :=
  { b with union := b.union.push item }

/-- What stands in a bracket so far. -/
def set (b : Bracket) : ClassSet :=
  let right := ClassSet.item b.union.toItem
  match b.waiting with
  | none => right
  | some (op, left) => .operation ⟨left.span.start, right.span.stop⟩ op left right

/-- A bracket behind an operation. -/
def operate (b : Bracket) (op : SetOperation) (place : Position) : Bracket :=
  { b with waiting := some (op, b.set), union := ⟨.point place, []⟩ }

end Bracket

/-- The name of a class of ASCII characters at the start of a text, whether it is
negated, and how many characters it takes. -/
def asciiClass? : List Char → Option (AsciiClass × Bool × Nat)
  | '[' :: ':' :: rest =>
    let negated := rest.head? == some '^'
    let body := if negated then rest.drop 1 else rest
    let name := body.takeWhile (· != ':')
    match body.dropWhile (· != ':') with
    | ':' :: ']' :: _ =>
      (AsciiClass.all.lookup (String.ofList name)).map fun kind =>
        (kind, negated, name.length + if negated then 5 else 4)
    | _ => none
  | _ => none

/-- Reads the minus signs at the start of a bracket, at most so many of them. -/
def readMinusSigns (start : Position) (u : Union) : Nat → Reading Union
  | 0 => return u
  | more + 1 => do
    match ← peek with
    | some '-' =>
      let u := u.push (.literal { span := ← charSpan, char := '-' })
      advanceSkipping
      if (← peek).isNone then fail .classUnclosed (.point start)
      readMinusSigns start u more
    | _ => return u

/-- Reads the start of a bracket. Minus signs and a closing bracket that stand
first are characters like others. -/
def openBracket : Reading Bracket := do
  let start ← place
  advanceSkipping
  if (← peek).isNone then fail .classUnclosed (← spanFrom start)
  let negated := (← peek) == some '^'
  if negated then
    advanceSkipping
    if (← peek).isNone then fail .classUnclosed (← spanFrom start)
  let u ← readMinusSigns start ⟨.point (← place), []⟩ (← get).rest.length
  if u.items.isEmpty ∧ (← peek) = some ']' then
    let u := u.push (.literal { span := ← charSpan, char := ']' })
    advanceSkipping
    if (← peek).isNone then fail .classUnclosed (← spanFrom start)
    return { opening := ← spanFrom start, negated, union := u }
  else return { opening := ← spanFrom start, negated, union := u }

/-- A part of an expression as an item between brackets, if it may be one. -/
def toClassItem : Tree → Reading ClassItem
  | .literal l => return .literal l
  | .property p => return .property p
  | .shorthand s => return .shorthand s
  | tree => fail .classEscapeInvalid tree.span

/-- A part of an expression as an end of a range, if it may be one. -/
def toRangeEnd : Tree → Reading Literal
  | .literal l => return l
  | tree => fail .classRangeLiteral tree.span

/-- Reads an item or an end of a range. -/
def readClassAtom : Reading Tree := do
  match ← peek with
  | some '\\' => readEscape
  | some char =>
    let span ← charSpan
    advance
    return .literal { span, char }
  | none => return .empty (.point (← place))

/-- Reads a single item or a range. -/
def readClassRange (b : Bracket) : Reading ClassItem := do
  let first ← readClassAtom
  modify Cursor.skip
  if (← peek).isNone then fail .classUnclosed b.opening
  let second := (← get).second?
  if (← peek) != some '-' ∨ second = some ']' ∨ second = some '-' then toClassItem first
  else
    advanceSkipping
    if (← peek).isNone then fail .classUnclosed b.opening
    let last ← readClassAtom
    let span : Span := ⟨first.span.start, last.span.stop⟩
    let first ← toRangeEnd first
    let last ← toRangeEnd last
    if last.char < first.char then fail .classRangeInvalid span
    return .range span first last

/-- Reads the rest of a bracket inside of others, the innermost first, in at most
so many rounds. -/
def readBracketWithin (outer : List Bracket) (b : Bracket) : Nat → Reading Tree
  | 0 => fail .classUnclosed b.opening
  | more + 1 => do
    modify Cursor.skip
    let second := (← get).rest[1]?
    match ← peek with
    | none => fail .classUnclosed b.opening
    | some '[' =>
      match asciiClass? (← get).rest with
      | some (kind, negated, length) =>
        let start ← place
        modify fun cursor => length.repeat Cursor.next cursor
        readBracketWithin outer (b.push (.named (← spanFrom start) kind negated)) more
      | none => readBracketWithin (b :: outer) (← openBracket) more
    | some ']' =>
      advance
      let span ← spanFrom b.opening.start
      match outer with
      | [] => return .bracketed span b.negated b.set
      | o :: outer => readBracketWithin outer (o.push (.bracketed span b.negated b.set)) more
    | some c =>
      let op? : Option SetOperation :=
        if second != some c then none
        else if c = '&' then some .intersection
        else if c = '-' then some .difference
        else if c = '~' then some .symmetricDifference
        else none
      match op? with
      | some op =>
        advance
        advance
        readBracketWithin outer (b.operate op (← place)) more
      | none => readBracketWithin outer (b.push (← readClassRange b)) more

/-- Reads a bracketed class, from the opening bracket on. Each round reads a
character at least. -/
def readBracket : Reading Tree := do
  let b ← openBracket
  readBracketWithin [] b ((← get).rest.length + 1)

end TrigPainting.Regex
