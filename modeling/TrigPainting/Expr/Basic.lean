/-!
# Expressions in the plane

An expression is a scalar function of two coordinates, built from the
coordinates themselves, the constant pi, sine, cosine and products. Each
channel of a picture is one expression.

## Main definitions

- `Expr` — expression trees
- `Expr.size`, `Expr.depth` — number of nodes, length of the longest branch
- `Expr.isLeaf` — whether a tree is a single node

## Design notes

Sine and cosine behave alike in every recursion on trees, so they are the two
values of `Wave`, and a tree has one constructor for a wave and one for a wave
of pi times its argument. The second is a shape of its own: its argument is
multiplied by pi when the wave is evaluated, and it is counted as one node.
-/

namespace TrigPainting

/-- A coordinate of the plane. -/
inductive Axis where
  | x
  | y
deriving DecidableEq, Repr

/-- A periodic function of one argument. -/
inductive Wave where
  | sine
  | cosine
deriving DecidableEq, Repr

/-- A scalar function of the two coordinates. -/
inductive Expr where
  /-- The value of a coordinate. -/
  | coord (axis : Axis)
  /-- The constant pi. -/
  | pi
  /-- A wave of `arg`. -/
  | wave (w : Wave) (arg : Expr)
  /-- A wave of pi times `arg`. -/
  | piWave (w : Wave) (arg : Expr)
  /-- The product of `lhs` and `rhs`, in this order. -/
  | times (lhs rhs : Expr)
deriving DecidableEq, Repr

namespace Expr

/-- The number of nodes. -/
def size : Expr → Nat
  | coord _ => 1
  | pi => 1
  | wave _ arg => 1 + arg.size
  | piWave _ arg => 1 + arg.size
  | times lhs rhs => 1 + lhs.size + rhs.size

/-- The number of nodes on the longest path from the root to a leaf; a leaf has
depth 1. -/
def depth : Expr → Nat
  | coord _ => 1
  | pi => 1
  | wave _ arg => 1 + arg.depth
  | piWave _ arg => 1 + arg.depth
  | times lhs rhs => 1 + max lhs.depth rhs.depth

/-- Whether the tree is a coordinate or the constant. -/
def isLeaf : Expr → Bool
  | coord _ => true
  | pi => true
  | _ => false

theorem depth_pos (e : Expr) : 0 < e.depth := by
  cases e <;> simp only [depth] <;> omega

end Expr

end TrigPainting
