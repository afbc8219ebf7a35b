/-!
# Patterns

A pattern is the meaning of a regular expression: the texts it matches, among
what surrounds them. Here it is only asked whether a pattern occurs in a text.

## Main definitions

- `CharSet`, `Look`, `Pattern` — patterns
- `Pattern.reach` — the places where matches end that start at given places
- `Pattern.occursIn` — whether a pattern occurs in a text
- `Pattern.weight` — the size of an automaton for a pattern

## Design notes

A text of `n` characters has `n + 1` places, and a set of places is a number whose
bits tell its members. All matches are followed at once, so the time that a search
takes depends on the lengths of the text and of the pattern only.
-/

namespace TrigPainting.Regex

/-- A set of characters. -/
structure CharSet where
  has : Char → Bool
  /-- It holds ASCII characters only. -/
  ascii : Bool
  /-- It holds with each letter the other cases of it. -/
  folded : Bool

/-- A condition on the characters around a place. -/
inductive WordLook where
  | boundary
  | noBoundary
  | start
  | stop
  | startHalf
  | stopHalf
deriving DecidableEq, Repr

/-- A condition on the characters around a place. -/
inductive Look where
  | textStart
  | textEnd
  /-- Whether lines may end with carriage returns, too. -/
  | lineStart (carriageReturn : Bool)
  | lineEnd (carriageReturn : Bool)
  /-- Whether words are made of more than ASCII characters. -/
  | word (look : WordLook) (unicode : Bool)
deriving DecidableEq, Repr

/-- Whether a character belongs to an ASCII word. -/
def isWordChar (c : Char) : Bool :=
  c.isAlphanum || c == '_'

/-- Whether a condition holds between two characters, or ends of the text. -/
def Look.holds (look : Look) (before after : Option Char) : Bool :=
  let wordBefore := before.any isWordChar
  let wordAfter := after.any isWordChar
  match look with
  | textStart => before.isNone
  | textEnd => after.isNone
  | lineStart false => before.isNone || before == some '\n'
  | lineStart true =>
    before.isNone || before == some '\n' || (before == some '\r' && after != some '\n')
  | lineEnd false => after.isNone || after == some '\n'
  | lineEnd true =>
    after.isNone || after == some '\r' || (after == some '\n' && before != some '\r')
  | word .boundary _ => wordBefore != wordAfter
  | word .noBoundary _ => wordBefore == wordAfter
  | word .start _ => !wordBefore && wordAfter
  | word .stop _ => wordBefore && !wordAfter
  | word .startHalf _ => !wordBefore
  | word .stopHalf _ => !wordAfter

/-- A pattern of texts. -/
inductive Pattern where
  | empty
  | char (c : Char)
  | chars (set : CharSet)
  | look (l : Look)
  | seq (first second : Pattern)
  | alt (left right : Pattern)
  | repeated (least : Nat) (most : Option Nat) (body : Pattern)
  /-- A group whose match is remembered. -/
  | capture (body : Pattern)

namespace Pattern

/-! ## Searching -/

/-- The places in front of the characters of a set. -/
def placesBefore (has : Char → Bool) : List Char → Nat
  | [] => 0
  | c :: rest => 2 * placesBefore has rest + if has c then 1 else 0

/-- The places where a condition holds, in a text with a character before it. -/
def placesOf (l : Look) (before : Option Char) : List Char → Nat
  | [] => if l.holds before none then 1 else 0
  | c :: rest => 2 * placesOf l (some c) rest + if l.holds before (some c) then 1 else 0

/-- Applies a function so many times, or until nothing changes. -/
def iterate (f : Nat → Nat) : Nat → Nat → Nat
  | 0, s => s
  | more + 1, s =>
    let t := f s
    if t = s then s else iterate f more t

/-- Adds what a function gives, so many times, or until nothing changes. -/
def gather (f : Nat → Nat) (more : Nat) (s : Nat) : Nat :=
  iterate (fun t => t ||| f t) more s

/-- The places where matches end that start at given places. -/
def reach (text : List Char) : Pattern → Nat → Nat
  | empty, s => s
  | char c, s => (s &&& placesBefore (· == c) text) <<< 1
  | chars set, s => (s &&& placesBefore set.has text) <<< 1
  | look l, s => s &&& placesOf l none text
  | seq first second, s => second.reach text (first.reach text s)
  | alt left right, s => left.reach text s ||| right.reach text s
  | capture body, s => body.reach text s
  | repeated least most body, s =>
    let t := iterate (body.reach text) least s
    gather (body.reach text) ((most.map (· - least)).getD (text.length + 1)) t

/-- Whether a pattern occurs in a text. -/
def occursIn (p : Pattern) (text : List Char) : Bool :=
  p.reach text ((1 <<< (text.length + 1)) - 1) != 0

example : (seq (char 'a') (char 'b')).occursIn "cab".toList = true := by decide +kernel
example : (seq (look .textStart) (char 'b')).occursIn "cab".toList = false := by decide +kernel
example : (repeated 2 none (char 'b')).occursIn "abab".toList = false := by decide +kernel

/-! ## Size -/

/-- Whether a pattern matches nothing but the empty text. -/
def isZeroWidth : Pattern → Bool
  | empty => true
  | look _ => true
  | seq first second => first.isZeroWidth && second.isZeroWidth
  | alt left right => left.isZeroWidth && right.isZeroWidth
  | capture body => body.isZeroWidth
  | repeated _ most body => most == some 0 || body.isZeroWidth
  | _ => false

/-- Whether a pattern matches the empty text. -/
def isNullable : Pattern → Bool
  | empty => true
  | look _ => true
  | seq first second => first.isNullable && second.isNullable
  | alt left right => left.isNullable || right.isNullable
  | capture body => body.isNullable
  | repeated least _ body => least == 0 || body.isNullable
  | _ => false

/-- The number of bytes of a state of an automaton. -/
def stateSize : Nat := 32

/-- The number of bytes of an automaton that reads a text forwards or backwards,
not counting what every automaton has. Repetitions are written out. -/
def weight (backwards : Bool) : Pattern → Nat
  | empty => stateSize
  | char c => c.utf8Size * stateSize
  | chars set => if set.ascii then 80 else if backwards then 1000 else 368
  | look _ => stateSize
  | seq first second => first.weight backwards + second.weight backwards
  | alt left right => left.weight backwards + right.weight backwards + 2 * stateSize + 8
  | capture body => body.weight backwards + if backwards then 0 else 2 * stateSize
  | repeated least most body =>
    let once := body.weight backwards
    let times (n : Nat) : Nat := if body.isZeroWidth then min n 1 else n
    match most with
    | some most =>
      if most ≤ least then max (times least * once) stateSize
      else times least * once + times (most - least) * (once + stateSize + 8) + stateSize
    | none => max (times least) 1 * once + if body.isNullable then 3 * stateSize else stateSize

/-- Whether a pattern needs to know the words of more than ASCII characters. What
is repeated no times is not needed. -/
def needsWords : Pattern → Bool
  | look (.word _ unicode) => unicode
  | seq first second => first.needsWords || second.needsWords
  | alt left right => left.needsWords || right.needsWords
  | capture body => body.needsWords
  | repeated _ most body => most != some 0 && body.needsWords
  | _ => false

end Pattern

end TrigPainting.Regex
