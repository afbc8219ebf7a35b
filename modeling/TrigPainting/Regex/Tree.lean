import TrigPainting.Regex.Error

/-!
# Syntax trees of regular expressions

A tree holds what the text of an expression says, and where. What it matches
depends on the options that are in force at each place.

## Main definitions

- `Switch`, `SwitchItem` — the options that a text may set
- `Literal`, `Shorthand`, `Property`, `AsciiClass` — the smallest parts
- `ClassItem`, `ClassSet` — what stands between brackets
- `Tree` — an expression
-/

namespace TrigPainting.Regex

/-- An option of a regular expression. -/
inductive Switch where
  | caseless
  | multiLine
  | dotAll
  | swapGreed
  | unicode
  | carriageReturn
  /-- Blanks and comments are skipped. -/
  | verbose
deriving DecidableEq, Repr

/-- A part of a list of options: an option, or the sign that those after it are
turned off. -/
inductive SwitchItem where
  | negation
  | switch (s : Switch)
deriving DecidableEq, Repr

/-- What a list says about an option, if it says anything. -/
def stateOf? (s : Switch) (on : Bool) : List SwitchItem → Option Bool
  | [] => none
  | .negation :: rest => stateOf? s false rest
  | .switch t :: rest => if t = s then some on else stateOf? s on rest

/-- A character that stands for itself. -/
structure Literal where
  span : Span
  char : Char
  /-- It is written as a byte, with two hexadecimal digits. -/
  isByte : Bool := false
deriving DecidableEq, Repr

/-- A class that is named by a letter. -/
inductive ShorthandKind where
  | digit
  | space
  | word
deriving DecidableEq, Repr

/-- A class that is named by a letter, or what it leaves out. -/
structure Shorthand where
  span : Span
  kind : ShorthandKind
  negated : Bool
deriving DecidableEq, Repr

/-- The characters with a property of the Unicode character database. -/
structure Property where
  span : Span
  /-- The name of the property, unless a value is asked for. -/
  name : Option (List Char)
  negated : Bool
deriving DecidableEq, Repr

/-- A class of ASCII characters that has a name. -/
inductive AsciiClass where
  | alnum
  | alpha
  | ascii
  | blank
  | cntrl
  | digit
  | graph
  | lower
  | print
  | punct
  | space
  | upper
  | word
  | xdigit
deriving DecidableEq, Repr

/-- The named classes. -/
def AsciiClass.all : List (String × AsciiClass) :=
  [("alnum", alnum), ("alpha", alpha), ("ascii", ascii), ("blank", blank), ("cntrl", cntrl),
    ("digit", digit), ("graph", graph), ("lower", lower), ("print", print), ("punct", punct),
    ("space", space), ("upper", upper), ("word", word), ("xdigit", xdigit)]

/-- How two sets between brackets are joined. -/
inductive SetOperation where
  | intersection
  | difference
  | symmetricDifference
deriving DecidableEq, Repr

mutual

/-- A part of what stands between brackets. -/
inductive ClassItem where
  | empty (span : Span)
  | literal (l : Literal)
  | range (span : Span) (first last : Literal)
  | named (span : Span) (name : AsciiClass) (negated : Bool)
  | property (p : Property)
  | shorthand (s : Shorthand)
  | bracketed (span : Span) (negated : Bool) (set : ClassSet)
  | union (span : Span) (items : List ClassItem)

/-- What stands between brackets. -/
inductive ClassSet where
  | item (i : ClassItem)
  | operation (span : Span) (op : SetOperation) (left right : ClassSet)

end

/-- The part of the text that an item takes. -/
def ClassItem.span : ClassItem → Span
  | empty span => span
  | literal l => l.span
  | range span .. => span
  | named span .. => span
  | property p => p.span
  | shorthand s => s.span
  | bracketed span .. => span
  | union span _ => span

/-- The part of the text that a set takes. -/
def ClassSet.span : ClassSet → Span
  | item i => i.span
  | operation span .. => span

/-- A condition on the characters around a place. -/
inductive Anchor where
  | lineStart
  | lineEnd
  | textStart
  | textEnd
  | wordBoundary
  | notWordBoundary
  | wordStart
  | wordEnd
  | wordStartHalf
  | wordEndHalf
deriving DecidableEq, Repr

/-- A regular expression. -/
inductive Tree where
  | empty (span : Span)
  | switches (span : Span) (items : List SwitchItem)
  | literal (l : Literal)
  | any (span : Span)
  | anchor (span : Span) (a : Anchor)
  | property (p : Property)
  | shorthand (s : Shorthand)
  | bracketed (span : Span) (negated : Bool) (set : ClassSet)
  | repeated (span : Span) (least : Nat) (most : Option Nat) (body : Tree)
  | group (span : Span) (capturing : Bool) (items : List SwitchItem) (body : Tree)
  | alternatives (span : Span) (branches : List Tree)
  | sequence (span : Span) (parts : List Tree)

/-- The part of the text that an expression takes. -/
def Tree.span : Tree → Span
  | empty span => span
  | switches span _ => span
  | literal l => l.span
  | any span => span
  | anchor span _ => span
  | property p => p.span
  | shorthand s => s.span
  | bracketed span .. => span
  | repeated span .. => span
  | group span .. => span
  | alternatives span _ => span
  | sequence span _ => span

/-- A sequence of parts; one part stands alone. -/
def Tree.ofParts (span : Span) : List Tree → Tree
  | [] => empty span
  | [part] => part
  | parts => sequence span parts

/-! ## Nesting -/

/-- The greatest number of nested parts. -/
def nestLimit : Nat := 250

/-- One level deeper, unless the limit is passed by the part that begins. -/
def deeper (level : Nat) (span : Span) : Except Error Nat :=
  if level < nestLimit then .ok (level + 1) else .error ⟨.nestLimitExceeded nestLimit, span, none⟩

mutual

/-- Checks the nesting of an item at a level. -/
def ClassItem.checkNesting (level : Nat) : ClassItem → Except Error Unit
  | .bracketed span _ set => do set.checkNesting (← deeper level span)
  | .union span items => do ClassItem.checkNestingAll (← deeper level span) items
  | _ => .ok ()

/-- Checks the nesting of items at a level. -/
def ClassItem.checkNestingAll (level : Nat) : List ClassItem → Except Error Unit
  | [] => .ok ()
  | item :: items => do
    item.checkNesting level
    ClassItem.checkNestingAll level items

/-- Checks the nesting of a set at a level. -/
def ClassSet.checkNesting (level : Nat) : ClassSet → Except Error Unit
  | .item i => i.checkNesting level
  | .operation span _ left right => do
    let level ← deeper level span
    left.checkNesting level
    right.checkNesting level

end

mutual

/-- Checks the nesting of an expression at a level. -/
def Tree.checkNesting (level : Nat) : Tree → Except Error Unit
  | .bracketed span _ set => do set.checkNesting (← deeper level span)
  | .repeated span _ _ body => do body.checkNesting (← deeper level span)
  | .group span _ _ body => do body.checkNesting (← deeper level span)
  | .alternatives span branches => do Tree.checkNestingAll (← deeper level span) branches
  | .sequence span parts => do Tree.checkNestingAll (← deeper level span) parts
  | _ => .ok ()

/-- Checks the nesting of expressions at a level. -/
def Tree.checkNestingAll (level : Nat) : List Tree → Except Error Unit
  | [] => .ok ()
  | tree :: trees => do
    tree.checkNesting level
    Tree.checkNestingAll level trees

end

end TrigPainting.Regex
