import TrigPainting.Expr.Json

/-!
# Palettes

A picture is described by one expression for each color channel.

## Main definitions

- `Channel`, `Channel.all` — the three channels in their fixed order
- `Palette`, `Palette.get` — the expressions of a picture
-/

namespace TrigPainting

/-- A color channel. -/
inductive Channel where
  | red
  | green
  | blue
deriving DecidableEq, Repr

namespace Channel

/-- The channels in their fixed order. -/
def all : List Channel := [red, green, blue]

/-- The name of a channel. -/
def name : Channel → String
  | red => "red"
  | green => "green"
  | blue => "blue"

theorem mem_all (c : Channel) : c ∈ all := by
  cases c <;> decide

end Channel

/-- The expressions of the three channels. -/
structure Palette where
  red : Expr
  green : Expr
  blue : Expr
deriving DecidableEq, Repr

namespace Palette

/-- The expression of a channel. -/
def get (p : Palette) : Channel → Expr
  | .red => p.red
  | .green => p.green
  | .blue => p.blue

/-- Palettes agree if they agree on every channel. -/
theorem ext_get {p q : Palette} (h : ∀ c, p.get c = q.get c) : p = q := by
  cases p; cases q
  exact congr (congr (congrArg _ (h .red)) (h .green)) (h .blue)

/-- A palette as a document: the texts of its channels. -/
def toJson (p : Palette) : Json :=
  .object (Channel.all.map fun c => (c.name, (p.get c).toJson))

end Palette

end TrigPainting
