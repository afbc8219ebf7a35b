import TrigPainting.Decimal.Layout
import TrigPainting.Json.Basic

/-!
# Settings of the generator

Random expressions grow from a starting probability, and no branch grows beyond
a greatest depth.

## Main definitions

- `Odds` — the numbers that probabilities are taken from
- `Generator.Settings` — starting probability and greatest depth
- `Generator.Settings.valid` — whether the probability lies in `[0, 1)`
-/

namespace TrigPainting

/-- A system of numbers for probabilities. -/
structure Odds (α : Type) where
  zero : α
  one : α
  le : α → α → Bool
  lt : α → α → Bool
  mul : α → α → α

/-- Machine numbers as probabilities. -/
def Odds.binary64 : Odds Float where
  zero := 0
  one := 1
  le a b := decide (a ≤ b)
  lt a b := decide (a < b)
  mul a b := a * b

namespace Generator

/-- The settings of a generator. -/
structure Settings (α : Type) where
  /-- The probability that the root has children. -/
  probability : α
  /-- The greatest depth of a tree; without one, no tree is cut off. -/
  maxDepth : Option Nat
deriving DecidableEq, Repr

/-- The usual starting probability. -/
def usualProbability : Float := Float.ofBits 0x3FEFAE147AE147AE

/-- The usual greatest depth. -/
def usualDepth : Nat := 64

namespace Settings

/-- The usual settings. -/
def usual : Settings Float := ⟨usualProbability, some usualDepth⟩

/-- Whether the starting probability lies in `[0, 1)`. At 1 the squares of the
probability never fall, and below 0 there is none. -/
def valid {α : Type} (odds : Odds α) (s : Settings α) : Bool :=
  odds.le odds.zero s.probability && odds.lt s.probability odds.one

/-- The depth at which every node is a leaf. Without a greatest depth it is the
largest number of a machine word, which no tree reaches. -/
def cutoff {α : Type} (s : Settings α) : Nat :=
  s.maxDepth.getD (UInt64.size - 1)

/-- Settings as a document. -/
def toJson (s : Settings Float) : Json :=
  .object [("probability", .number s.probability),
    ("max_depth", (s.maxDepth.map Json.nat).getD .null)]

end Settings

end Generator

end TrigPainting
