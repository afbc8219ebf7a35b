import TrigPainting.Expr.Basic

/-!
# The canonical text of an expression

Every expression has one text: `x`, `y`, `pi`, `sin(…)`, `cos(…)` and factors
joined by `*`. Products are written flat, whichever way they nest, and a wave of
pi times an argument is written with the factor `pi*` in front of the argument.
So trees that differ only in the grouping of products, or in how a factor pi
under a wave is held, share one text.

## Main definitions

- `Expr.write` — the text of a tree in front of given characters
- `Expr.chars`, `Expr.text` — the text alone

## Design notes

Writing in front of a continuation costs one step per character, also for the
long products that lean to one side; `write_eq_append` is the plain reading.
-/

namespace TrigPainting

/-- The letter of a coordinate. -/
def Axis.letter : Axis → Char
  | x => 'x'
  | y => 'y'

/-- The name of a wave. -/
def Wave.letters : Wave → List Char
  | sine => ['s', 'i', 'n']
  | cosine => ['c', 'o', 's']

namespace Expr

/-- The text of an expression, followed by `rest`. -/
def write : Expr → List Char → List Char
  | coord a, rest => a.letter :: rest
  | pi, rest => 'p' :: 'i' :: rest
  | wave w arg, rest => w.letters ++ '(' :: arg.write (')' :: rest)
  | piWave w arg, rest => w.letters ++ '(' :: 'p' :: 'i' :: '*' :: arg.write (')' :: rest)
  | times lhs rhs, rest => lhs.write ('*' :: rhs.write rest)

/-- The characters of the canonical text. -/
def chars (e : Expr) : List Char :=
  e.write []

/-- The canonical text. -/
def text (e : Expr) : String :=
  String.ofList e.chars

theorem write_eq_append (e : Expr) (rest : List Char) : e.write rest = e.chars ++ rest := by
  unfold chars
  induction e generalizing rest with
  | coord _ => rfl
  | pi => rfl
  | wave w arg ih => simp [write, ih (')' :: rest), ih [')']]
  | piWave w arg ih => simp [write, ih (')' :: rest), ih [')']]
  | times lhs rhs ihl ihr =>
    rw [write, write, ihl, ihr rest, ihl ('*' :: rhs.write [])]
    simp

@[simp]
theorem chars_coord (a : Axis) : (coord a).chars = [a.letter] := rfl

@[simp]
theorem chars_pi : pi.chars = ['p', 'i'] := rfl

theorem chars_wave (w : Wave) (arg : Expr) :
    (wave w arg).chars = w.letters ++ '(' :: arg.chars ++ [')'] := by
  simp [chars, write, write_eq_append arg [')']]

theorem chars_piWave (w : Wave) (arg : Expr) :
    (piWave w arg).chars = w.letters ++ '(' :: 'p' :: 'i' :: '*' :: arg.chars ++ [')'] := by
  simp [chars, write, write_eq_append arg [')']]

theorem chars_times (lhs rhs : Expr) :
    (times lhs rhs).chars = lhs.chars ++ '*' :: rhs.chars := by
  simp [chars, write, write_eq_append lhs ('*' :: rhs.write [])]

end Expr

end TrigPainting
