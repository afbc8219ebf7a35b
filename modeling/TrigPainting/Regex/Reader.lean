import TrigPainting.Regex.Bracket
import TrigPainting.Text.Letter

/-!
# Reading regular expressions

An expression is a choice between sequences of parts. A part is a character, a
class, a condition, a group in parentheses, or a repetition of one of them.

## Main definitions

- `Level`, `OpenGroup` — what has been read of a group and of those around it
- `readSwitches`, `readGroup`, `readRepetition` — the forms that have an inside
- `Tree.ofText` — the tree of an expression

## Design notes

Open groups are kept on a stack, so groups may be nested to any depth while they
are read. The nesting is checked when the tree is complete, and the outermost
part that passes the limit is reported.
-/

namespace TrigPainting.Regex

/-- What has been read of a group. -/
structure Level where
  /-- Where the first branch starts. -/
  start : Position
  /-- The branches that are complete, the last one first. -/
  branches : List Tree := []
  /-- Where the current branch starts. -/
  branchStart : Position
  /-- The parts of the current branch, the last one first. -/
  parts : List Tree := []

namespace Level

/-- Nothing has been read. -/
def fresh (start : Position) : Level := { start, branchStart := start }

/-- A level with one more part. -/
def push (level : Level) (part : Tree) : Level :=
  { level with parts := part :: level.parts }

/-- The current branch, which ends at a place. -/
def branch (level : Level) (stop : Position) : Tree :=
  .ofParts ⟨level.branchStart, stop⟩ level.parts.reverse

/-- A level behind a bar. -/
def choose (level : Level) (stop next : Position) : Level :=
  { level with
    branches := level.branch stop :: level.branches
    branchStart := next
    parts := [] }

/-- What stands on a level that ends at a place. -/
def toTree (level : Level) (stop : Position) : Tree :=
  match level.branches with
  | [] => level.branch stop
  | branches => .alternatives ⟨level.start, stop⟩ (level.branch stop :: branches).reverse

end Level

/-- A group that is open, and what stands in front of it. -/
structure OpenGroup where
  outer : Level
  /-- The part that opens the group. -/
  opening : Span
  capturing : Bool
  switches : List SwitchItem
  /-- Whether blanks and comments are skipped outside. -/
  verbose : Bool

/-! ## Switches -/

/-- The option that a letter stands for. -/
def switchOf? : Char → Option Switch
  | 'i' => some .caseless
  | 'm' => some .multiLine
  | 's' => some .dotAll
  | 'U' => some .swapGreed
  | 'u' => some .unicode
  | 'R' => some .carriageReturn
  | 'x' => some .verbose
  | _ => none

/-- Reads an option or the sign that turns off. -/
def readSwitchItem : Reading SwitchItem := do
  match ← peek with
  | some '-' => return .negation
  | some c =>
    match switchOf? c with
    | some s => return .switch s
    | none => fail .flagUnrecognized (← charSpan)
  | none => fail .flagUnexpectedEnd (.point (← place))

/-- Reads options up to a colon or a closing parenthesis, at most so many of
them, after those that were read `before`, the last one first. -/
def readSwitchesWithin (before : List (SwitchItem × Span)) : Nat → Reading (List SwitchItem)
  | 0 => return []
  | more + 1 => do
    let next ← peek
    if next = some ':' ∨ next = some ')' then
      match before with
      | (.negation, span) :: _ => fail .flagDanglingNegation span
      | _ => return (before.map Prod.fst).reverse
    else
      let item ← readSwitchItem
      let span ← charSpan
      if let some old := before.lookup item then
        throw ⟨if item = .negation then .flagRepeatedNegation else .flagDuplicate, span, some old⟩
      advance
      if (← peek).isNone then fail .flagUnexpectedEnd (.point (← place))
      readSwitchesWithin ((item, span) :: before) more

/-- Reads options. -/
def readSwitches : Reading (List SwitchItem) := do
  readSwitchesWithin [] ((← get).rest.length + 1)

/-! ## Groups -/

/-- Whether a character may stand in the name of a group. -/
def isNameLetter (first : Bool) (c : Char) : Bool :=
  c == '_' || Text.isLetter c ||
    (!first && (c == '.' || c == '[' || c == ']' || Text.isNumeral c))

/-- Reads the letters of a name up to an angle bracket, at most so many. -/
def readNameLetters (first : Bool) : Nat → Reading (List Char)
  | 0 => return []
  | more + 1 => do
    match ← peek with
    | none => return []
    | some '>' => return []
    | some c =>
      if !isNameLetter first c then fail .groupNameInvalid (← charSpan)
      advance
      return c :: (← readNameLetters false more)

/-- Reads the name of a group and the angle bracket behind it. -/
def readName : Reading Unit := do
  let start ← place
  let name ← readNameLetters true (← get).rest.length
  let stop ← place
  if (← peek).isNone then fail .groupNameUnexpectedEnd (.point stop)
  advance
  if name.isEmpty then fail .groupNameEmpty (.point start)
  let span : Span := ⟨start, stop⟩
  if let some old := (← get).names.lookup name then
    throw ⟨.groupNameDuplicate, span, some old⟩
  modify fun cursor => { cursor with names := (name, span) :: cursor.names }

/-- Whether what follows an opening parenthesis looks around. -/
def readLookAround : Reading Bool := do
  if ← advanceIf ['?', '='] then return true
  else if ← advanceIf ['?', '!'] then return true
  else if ← advanceIf ['?', '<', '='] then return true
  else advanceIf ['?', '<', '!']

/-- What an opening parenthesis begins. -/
inductive Opened where
  | switches (span : Span) (items : List SwitchItem)
  | group (opening : Span) (capturing : Bool) (items : List SwitchItem)

/-- Reads what an opening parenthesis begins. -/
def readOpening : Reading Opened := do
  let opening ← charSpan
  advanceSkipping
  if ← readLookAround then fail .lookAround (← spanFrom opening.start)
  let inner ← place
  let named ← do
    if ← advanceIf ['?', 'P', '<'] then pure true else advanceIf ['?', '<']
  if named then
    readName
    return .group opening true []
  else if ← advanceIf ['?'] then
    if (← peek).isNone then fail .groupUnclosed opening
    let items ← readSwitches
    let closed := (← peek) == some ')'
    advance
    if !closed then return .group opening false items
    else if items.isEmpty then fail .repetitionMissing (.point inner)
    else return .switches (← spanFrom opening.start) items
  else return .group opening true []

/-! ## Repetitions -/

/-- Takes the part that a repetition applies to off a level. -/
def takePart (level : Level) : Reading (Tree × Level) := do
  match level.parts with
  | [] => fail .repetitionMissing (.point (← place))
  | .empty _ :: _ => fail .repetitionMissing (.point (← place))
  | .switches .. :: _ => fail .repetitionMissing (.point (← place))
  | part :: parts => return (part, { level with parts })

/-- Reads the question mark that may follow a repetition. It decides which of
several matches is found, and so nothing here. -/
def readReluctance : Reading Unit := do
  if (← peek) = some '?' then advance

/-- Reads a repetition by a single sign. -/
def readSign (level : Level) (least : Nat) (most : Option Nat) : Reading Level := do
  let (part, level) ← takePart level
  advance
  readReluctance
  return level.push (.repeated ⟨part.span.start, ← place⟩ least most part)

/-- Reads the numbers of a repetition in braces. -/
def readCounts (brace : Position) : Reading (Nat × Option Nat) := do
  let least ← readDecimal
  match ← peek with
  | none => fail .repetitionCountUnclosed (← spanFrom brace)
  | some ',' =>
    advanceSkipping
    match ← peek with
    | none => fail .repetitionCountUnclosed (← spanFrom brace)
    | some '\x7d' => return (← least, none)
    | some _ =>
      let least ← least
      let most ← (← readDecimal)
      return (least, some most)
  | some _ =>
    let count ← least
    return (count, some count)

/-- Reads a repetition in braces. -/
def readBraces (level : Level) : Reading Level := do
  let brace ← place
  let (part, level) ← takePart level
  advanceSkipping
  if (← peek).isNone then fail .repetitionCountUnclosed (← spanFrom brace)
  let (least, most) ← readCounts brace
  if (← peek) != some '\x7d' then fail .repetitionCountUnclosed (← spanFrom brace)
  advanceSkipping
  readReluctance
  if most.any (· < least) then fail .repetitionCountInvalid (← spanFrom brace)
  return level.push (.repeated ⟨part.span.start, ← place⟩ least most part)

/-! ## Expressions -/

/-- Reads a part that is no group and no repetition. -/
def readPart : Reading Tree := do
  match ← peek with
  | some '[' => readBracket
  | some '\\' => readEscape
  | some c =>
    let span ← charSpan
    advance
    if c = '.' then return .any span
    else if c = '^' then return .anchor span .lineStart
    else if c = '$' then return .anchor span .lineEnd
    else return .literal { span, char := c }
  | none => return .empty (.point (← place))

/-- Reads the opening of a group, or options that are set. -/
def readOpen (groups : List OpenGroup) (level : Level) : Reading (List OpenGroup × Level) := do
  match ← readOpening with
  | .switches span items =>
    if let some verbose := stateOf? .verbose true items then
      modify fun cursor => { cursor with verbose }
    return (groups, level.push (.switches span items))
  | .group opening capturing switches =>
    let verbose := (← get).verbose
    let inside := (stateOf? .verbose true switches).getD verbose
    modify fun cursor => { cursor with verbose := inside }
    return ({ outer := level, opening, capturing, switches, verbose } :: groups, .fresh (← place))

/-- Reads the end of a group. -/
def readClose (groups : List OpenGroup) (level : Level) : Reading (List OpenGroup × Level) := do
  match groups with
  | [] => fail .groupUnopened (← charSpan)
  | group :: groups =>
    let body := level.toTree (← place)
    modify fun cursor => { cursor with verbose := group.verbose }
    advance
    let span ← spanFrom group.opening.start
    return (groups, group.outer.push (.group span group.capturing group.switches body))

/-- Reads the rest of an expression, in at most so many rounds. -/
def readWithin (groups : List OpenGroup) (level : Level) : Nat → Reading Tree
  | 0 => return level.toTree (← place)
  | more + 1 => do
    modify Cursor.skip
    match ← peek with
    | none =>
      match groups with
      | [] => return level.toTree (← place)
      | group :: _ => fail .groupUnclosed group.opening
    | some '(' =>
      let (groups, level) ← readOpen groups level
      readWithin groups level more
    | some ')' =>
      let (groups, level) ← readClose groups level
      readWithin groups level more
    | some '|' =>
      let stop ← place
      advance
      readWithin groups (level.choose stop (← place)) more
    | some '?' => readWithin groups (← readSign level 0 (some 1)) more
    | some '*' => readWithin groups (← readSign level 0 none) more
    | some '+' => readWithin groups (← readSign level 1 none) more
    | some '\x7b' => readWithin groups (← readBraces level) more
    | some _ => readWithin groups (level.push (← readPart)) more

/-- The tree of an expression. Each round reads a character at least. -/
def Tree.ofText (text : List Char) : Except Error Tree := do
  let read := readWithin [] (.fresh {}) (text.length + 1)
  let tree ← read.run' { rest := text }
  tree.checkNesting 0
  return tree

end TrigPainting.Regex
