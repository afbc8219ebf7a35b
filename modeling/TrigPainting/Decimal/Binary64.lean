/-!
# Binary64 values as exact numbers

A finite binary64 number is an integer times a power of two. This file reads
the two off the bits of a number, and rounds an exact quotient back to the
nearest number.

## Main definitions

- `Magnitude`, `Magnitude.ofBits` — the size of a finite number
- `Class`, `classify` — sign and size, with the values that have none
- `nearest` — the number nearest to a quotient of naturals
-/

namespace TrigPainting.Decimal

/-- The size of a finite binary64 number, `significand * 2 ^ exponent`. -/
structure Magnitude where
  significand : Nat
  exponent : Int
  /-- The gap to the number below is half the gap to the number above. -/
  narrowBelow : Bool
deriving DecidableEq, Repr

/-- The size that the lower 63 bits encode, if they encode a finite number. -/
def Magnitude.ofBits (bits : UInt64) : Magnitude :=
  let field : Nat := (bits.toNat / Nat.pow 2 52) % Nat.pow 2 11
  let fraction : Nat := bits.toNat % Nat.pow 2 52
  if field = 0 then ⟨fraction, -1074, false⟩
  else ⟨Nat.pow 2 52 + fraction, (field : Int) - 1075, fraction == 0 && decide (1 < field)⟩

/-- A binary64 value by kind. -/
inductive Class where
  | nan
  | infinite (negative : Bool)
  | finite (negative : Bool) (size : Magnitude)
deriving DecidableEq, Repr

/-- The kind of the value with the given bits. -/
def classify (bits : UInt64) : Class :=
  let negative := decide (Nat.pow 2 63 ≤ bits.toNat)
  if (bits.toNat / Nat.pow 2 52) % Nat.pow 2 11 = 2047 then
    if bits.toNat % Nat.pow 2 52 = 0 then .infinite negative else .nan
  else .finite negative (.ofBits bits)

/-- The bits of positive infinity. -/
def infinityBits : Nat := 0x7FF0000000000000

/-- The binary logarithm of a positive quotient, rounded down. -/
def floorLog2 (num den : Nat) : Int :=
  -- The quotient lies between the powers of two next to this one.
  let guess := (Nat.log2 num : Int) - Nat.log2 den
  if num * Nat.pow 2 (-guess).toNat < den * Nat.pow 2 guess.toNat then guess - 1 else guess

/-- The quotient rounded to an integer, a half to the even neighbour. -/
def roundHalfEven (num den : Nat) : Nat :=
  let floor := num / den
  let twice := 2 * (num % den)
  if den < twice ∨ (twice = den ∧ floor % 2 = 1) then floor + 1 else floor

/-- The bits of the non-negative binary64 number nearest to `num / den`, for
positive `den`; a quotient in the middle goes to the even neighbour.

The rounded significand is added to the exponent, so a significand that reaches
the next power of two carries over into it. -/
def nearest (num den : Nat) : UInt64 :=
  if num = 0 then 0
  else
    let exponent := max (floorLog2 num den - 52) (-1074)
    let significand :=
      roundHalfEven (num * Nat.pow 2 (-exponent).toNat) (den * Nat.pow 2 exponent.toNat)
    let bits := (exponent + 1074).toNat * Nat.pow 2 52 + significand
    (min bits infinityBits).toUInt64

example : nearest 1 10 = 0x3FB999999999999A := by decide +kernel
example : nearest (2 ^ 53 + 1) (2 ^ 53) = 0x3FF0000000000000 := by decide +kernel
example : nearest (2 ^ 53 + 3) (2 ^ 53) = 0x3FF0000000000002 := by decide +kernel
example : nearest 1 (2 ^ 1075) = 0 ∧ nearest 3 (2 ^ 1076) = 1 := by decide +kernel
example : nearest (2 ^ 1024 - 2 ^ 970) 1 = 0x7FF0000000000000 := by decide +kernel

end TrigPainting.Decimal
