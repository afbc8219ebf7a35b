import TrigPainting.Expr.Basic

/-!
# Evaluating expressions

An expression is evaluated in any system of numbers that has a constant pi, two
functions for the waves and a multiplication. Pictures are computed in binary64.

## Main definitions

- `Arithmetic` — such a system of numbers
- `Expr.eval` — the value of an expression at a point
- `Arithmetic.binary64` — machine numbers

## Design notes

Machine multiplication is not associative, so products are multiplied exactly as
the tree groups them, and the constant stands on the left of the argument of a
wave of pi times an argument.
-/

namespace TrigPainting

/-- A system of numbers in which expressions have values. -/
structure Arithmetic (α : Type) where
  pi : α
  sin : α → α
  cos : α → α
  mul : α → α → α

namespace Arithmetic

/-- The function that a wave stands for. -/
def wave {α : Type} (arith : Arithmetic α) : Wave → α → α
  | .sine => arith.sin
  | .cosine => arith.cos

/-- The binary64 number nearest to pi. -/
def nearestPi : Float := Float.ofBits 0x400921FB54442D18

/-- Machine numbers. -/
def binary64 : Arithmetic Float where
  pi := nearestPi
  sin := Float.sin
  cos := Float.cos
  mul a b := a * b

end Arithmetic

namespace Expr

/-- The value of an expression at a point. -/
def eval {α : Type} (arith : Arithmetic α) (x y : α) : Expr → α
  | coord .x => x
  | coord .y => y
  | pi => arith.pi
  | wave w arg => arith.wave w (arg.eval arith x y)
  | piWave w arg => arith.wave w (arith.mul arith.pi (arg.eval arith x y))
  | times lhs rhs => arith.mul (lhs.eval arith x y) (rhs.eval arith x y)

/-- The value of an expression at a point in machine numbers. -/
def value (e : Expr) (x y : Float) : Float :=
  e.eval .binary64 x y

end Expr

end TrigPainting
