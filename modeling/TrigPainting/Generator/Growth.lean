import TrigPainting.Expr.Basic
import TrigPainting.Generator.Settings
import TrigPainting.Generator.Source

/-!
# Growing random expressions

Every node draws whether it has children. If it has, the shape is drawn from
eight and the children grow with the square of the probability; if not, the leaf
is drawn from five. The squares fall quickly, so trees stay small.

## Main definitions

- `Generator.Shape`, `Generator.shape`, `Generator.leaf` — what is drawn
- `Generator.grow` — a tree of limited depth
- `Generator.expression` — a tree by given settings

## Design notes

A node makes two draws in every case: its chance is drawn also where the depth
leaves no choice. So the draws of a tree follow its nodes in pairs, parents
before children and left before right.
-/

namespace TrigPainting.Generator

/-- The shape of a node that has children. -/
inductive Shape where
  | wave (w : Wave)
  | piWave (w : Wave)
  | times
deriving DecidableEq, Repr

/-- The eight shapes that are drawn: products and the two waves of pi times an
argument come up twice as often as a plain wave. -/
def shape : Fin 8 → Shape
  | 0 => .piWave .sine
  | 1 => .piWave .cosine
  | 2 => .piWave .sine
  | 3 => .piWave .cosine
  | 4 => .times
  | 5 => .wave .cosine
  | 6 => .wave .sine
  | 7 => .times

/-- The five leaves that are drawn: each coordinate comes up twice as often as
the constant. -/
def leaf : Fin 5 → Expr
  | 0 => .coord .x
  | 1 => .coord .y
  | 2 => .pi
  | 3 => .coord .x
  | 4 => .coord .y

variable {α σ : Type}

/-- A tree that may reach `below` levels under its root, grown from the
probability `p`. -/
def grow (odds : Odds α) (source : Source α σ) : Nat → α → σ → Expr × σ
  | 0, _, s =>
    let (_, s) := source.chance s
    let (i, s) := source.pick 5 (by decide) s
    (leaf i, s)
  | below + 1, p, s =>
    let (u, s) := source.chance s
    if odds.lt u p then
      let (i, s) := source.pick 8 (by decide) s
      let p := odds.mul p p
      match shape i with
      | .wave w =>
        let (arg, s) := grow odds source below p s
        (.wave w arg, s)
      | .piWave w =>
        let (arg, s) := grow odds source below p s
        (.piWave w arg, s)
      | .times =>
        let (lhs, s) := grow odds source below p s
        let (rhs, s) := grow odds source below p s
        (.times lhs rhs, s)
    else
      let (i, s) := source.pick 5 (by decide) s
      (leaf i, s)

/-- A tree of the usual greatest depth, from any probability. -/
def unchecked (odds : Odds α) (source : Source α σ) (p : α) (s : σ) : Expr × σ :=
  grow odds source (usualDepth - 1) p s

/-- A tree by settings that are taken to be valid. -/
def draw (odds : Odds α) (source : Source α σ) (settings : Settings α) (s : σ) : Expr × σ :=
  grow odds source (settings.cutoff - 1) settings.probability s

/-- A tree by given settings. A probability that is not valid is given back, and
then nothing has been drawn. -/
def expression (odds : Odds α) (source : Source α σ) (settings : Settings α) (s : σ) :
    Except α Expr × σ :=
  if settings.valid odds then
    let (e, s) := draw odds source settings s
    (.ok e, s)
  else (.error settings.probability, s)

end TrigPainting.Generator
