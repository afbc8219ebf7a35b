import TrigPainting.Expr.SyntaxError
import TrigPainting.Text.Blank

/-!
# Reading expressions

Expression text is read from left to right, one character at a time, by

    expr := term ('*' term)*
    term := 'sin(' expr ')' | 'cos(' expr ')' | 'x' | 'y' | 'pi' | '(' expr ')'

Products lean to the left, and blanks are skipped wherever they stand, also
inside a word. No more than `maxNesting` groups may be open at once.

## Main definitions

- `Reader.State` — what has been read: the open groups and the stage of the
  innermost one
- `Reader.State.step`, `Reader.State.finish` — the next character, the end
- `Expr.parse` — the expression that a text holds

## Design notes

The state keeps the open groups on a stack of its own, so a text of any length
and depth is read in one pass, and what a state accepts next depends on nothing
but the state. A group counts against the limit from its first letter on, since
no text can turn `s` or `c` into anything but a group.
-/

namespace TrigPainting

/-- What a group turns its contents into. -/
inductive Opening where
  /-- A wave of the contents. -/
  | call (w : Wave)
  /-- The contents themselves. -/
  | bare
deriving DecidableEq, Repr

/-- The value of a group with the given contents. -/
def Opening.enclose : Opening → Expr → Expr
  | call w, e => .wave w e
  | bare, e => e

@[simp]
theorem Opening.enclose_call (w : Wave) (e : Expr) : (call w).enclose e = .wave w e := rfl

@[simp]
theorem Opening.enclose_bare (e : Expr) : bare.enclose e = e := rfl

/-- A product with one more factor on the right, or that factor alone. -/
def Expr.extend : Option Expr → Expr → Expr
  | none, factor => factor
  | some before, factor => .times before factor

@[simp]
theorem Expr.extend_none (factor : Expr) : extend none factor = factor := rfl

@[simp]
theorem Expr.extend_some (before factor : Expr) :
    extend (some before) factor = .times before factor := rfl

namespace Reader

/-- A group that is still open: how it was opened, and the product to its left. -/
structure Group where
  opening : Opening
  before : Option Expr
deriving DecidableEq, Repr

/-- The product that ends with a group, once its contents are known. -/
def Group.close (g : Group) (contents : Expr) : Expr :=
  Expr.extend g.before (g.opening.enclose contents)

/-- How far the innermost open group, or the whole text, has been read. -/
inductive Stage where
  /-- A factor has to start, to the right of `before`. -/
  | factor (before : Option Expr)
  /-- A word has been read in part; `next` and then `later` are missing. -/
  | spelling (word : Word) (next : Char) (later : List Char) (before : Option Expr)
  /-- A product is complete and may be extended. -/
  | product (value : Expr)
deriving DecidableEq, Repr

/-- What has been read of a text. -/
structure State where
  /-- The open groups, innermost first. -/
  groups : List Group
  stage : Stage
deriving DecidableEq, Repr

namespace State

/-- Nothing has been read. -/
def start : State := ⟨[], .factor none⟩

/-- Goes on to `stage` if one more group may be opened. -/
def nest (s : State) (next : State) : Except Expected State :=
  if s.groups.length < maxNesting then .ok next else .error .shallower

/-- The state after the first letter of a word. -/
def begin (s : State) (word : Word) (before : Option Expr) : State :=
  ⟨s.groups, .spelling word word.second word.ending before⟩

/-- The state after the last letter of a word. -/
def complete (s : State) (word : Word) (before : Option Expr) : State :=
  match word with
  | .call w => ⟨⟨.call w, before⟩ :: s.groups, .factor none⟩
  | .pi => ⟨s.groups, .product (Expr.extend before .pi)⟩

/-- The first character of a factor. -/
def stepFactor (s : State) (before : Option Expr) (c : Char) : Except Expected State :=
  if c = 'x' then .ok ⟨s.groups, .product (Expr.extend before (.coord .x))⟩
  else if c = 'y' then .ok ⟨s.groups, .product (Expr.extend before (.coord .y))⟩
  else if c = 'p' then .ok (s.begin .pi before)
  else if c = 's' then s.nest (s.begin (.call .sine) before)
  else if c = 'c' then s.nest (s.begin (.call .cosine) before)
  else if c = '(' then s.nest ⟨⟨.bare, before⟩ :: s.groups, .factor none⟩
  else .error .term

/-- A further letter of a word. -/
def stepSpelling (s : State) (word : Word) (next : Char) (later : List Char)
    (before : Option Expr) (c : Char) : Except Expected State :=
  if c = next then
    match later with
    | [] => .ok (s.complete word before)
    | next :: later => .ok ⟨s.groups, .spelling word next later before⟩
  else .error (.word word)

/-- The character after a complete product. -/
def stepProduct (s : State) (value : Expr) (c : Char) : Except Expected State :=
  if c = '*' then .ok ⟨s.groups, .factor (some value)⟩
  else
    match s.groups with
    | [] => .error .endOfInput
    | g :: groups =>
      if c = ')' then .ok ⟨groups, .product (g.close value)⟩ else .error .closing

/-- The state after one more visible character. -/
def step (s : State) (c : Char) : Except Expected State :=
  match s.stage with
  | .factor before => s.stepFactor before c
  | .spelling word next later before => s.stepSpelling word next later before c
  | .product value => s.stepProduct value c

/-- The expression that has been read, if the text may end here. -/
def finish (s : State) : Except Expected Expr :=
  match s.stage with
  | .factor _ => .error .term
  | .spelling word _ _ _ => .error (.word word)
  | .product value =>
    match s.groups with
    | [] => .ok value
    | _ :: _ => .error .closing

/-- Reads the rest of a text, of which `position` characters have been read. -/
def read (s : State) (position : Nat) : List Char → Except SyntaxError Expr
  | [] =>
    match s.finish with
    | .ok e => .ok e
    | .error expected => .error ⟨position, none, expected⟩
  | c :: rest =>
    if Text.isBlank c then s.read (position + 1) rest
    else
      match s.step c with
      | .ok s => s.read (position + 1) rest
      | .error expected => .error ⟨position, some c, expected⟩

end State

end Reader

namespace Expr

/-- The expression whose text is `text`, or the first place where the text
fails to be one. -/
def parseChars (text : List Char) : Except SyntaxError Expr :=
  Reader.State.start.read 0 text

/-- The expression that a text holds. -/
def parse (text : String) : Except SyntaxError Expr :=
  parseChars text.toList

end Expr

end TrigPainting
