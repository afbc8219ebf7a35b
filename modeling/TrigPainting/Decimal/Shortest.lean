import TrigPainting.Decimal.Binary64

/-!
# The shortest decimal of a binary64 number

Among the decimals that read back as a given number, this file selects one with
the fewest digits, and of several such the nearest to the number.

## Main definitions

- `Magnitude.readsBack` — whether a decimal rounds to a number
- `shortest` — the selected decimal

## Design notes

All tests are comparisons of naturals. For 1, 2, … digits the two neighbours of
the number on the decimal grid of that many digits are tried: if a grid has a
point that reads back, one of these two does. Seventeen digits always suffice.
-/

namespace TrigPainting.Decimal

/-- A decimal, `digits * 10 ^ exponent`. -/
structure Numeral where
  digits : Nat
  exponent : Int
deriving DecidableEq, Repr

/-- Which of two equally near decimals of the same length is taken. -/
inductive Tie where
  | upper
  | even
deriving DecidableEq, Repr

/-- Compares `a * 10 ^ i` with `b * 2 ^ j`. -/
def compareScaled (a : Nat) (i : Int) (b : Nat) (j : Int) : Ordering :=
  compare (a * Nat.pow 10 i.toNat * Nat.pow 2 (-j).toNat)
    (b * Nat.pow 2 j.toNat * Nat.pow 10 (-i).toNat)

/-- Whether `d` lies among the reals that round to the number: those between
the middles of the gaps on its two sides, the middles included if the
significand is even. -/
def Magnitude.readsBack (x : Magnitude) (d : Numeral) : Bool :=
  let low := 4 * x.significand - (if x.narrowBelow then 1 else 2)
  let high := 4 * x.significand + 2
  let closed := x.significand % 2 == 0
  let atLow := compareScaled d.digits d.exponent low (x.exponent - 2)
  let atHigh := compareScaled d.digits d.exponent high (x.exponent - 2)
  (atLow == .gt || (closed && atLow == .eq)) && (atHigh == .lt || (closed && atHigh == .eq))

/-- The number of decimal places before the point of `num / den`: the least `k`
with `num / den < 10 ^ k`. -/
def decimalScale (num den : Nat) : Int :=
  -- 0.30103 is the decimal logarithm of 2, so the guess is too low by three at most.
  let guess := ((Nat.log2 num : Int) - Nat.log2 den) * 30103 / 100000 - 1
  let below (k : Int) : Bool := num * Nat.pow 10 (-k).toNat < den * Nat.pow 10 k.toNat
  if below guess then guess
  else if below (guess + 1) then guess + 1
  else if below (guess + 2) then guess + 2
  else guess + 3

/-- The decimal of the grid `10 ^ e` that reads back and is nearest to the
number, if the grid has one. -/
def Magnitude.onGrid (tie : Tie) (x : Magnitude) (e : Int) : Option Numeral :=
  let num := x.significand * Nat.pow 2 x.exponent.toNat * Nat.pow 10 (-e).toNat
  let den := Nat.pow 2 (-x.exponent).toNat * Nat.pow 10 e.toNat
  let lower : Numeral := ⟨num / den, e⟩
  let upper : Numeral := ⟨num / den + 1, e⟩
  match x.readsBack lower, x.readsBack upper with
  | false, false => none
  | true, false => some lower
  | false, true => some upper
  | true, true =>
    match compare (2 * (num % den)) den, tie with
    | .lt, _ => some lower
    | .gt, _ => some upper
    | .eq, .upper => some upper
    | .eq, .even => some (if lower.digits % 2 = 0 then lower else upper)

/-- The shortest decimal that reads back as a positive number, and of several
of that length the nearest. -/
def shortest (tie : Tie) (x : Magnitude) : Numeral :=
  let num := x.significand * Nat.pow 2 x.exponent.toNat
  let den := Nat.pow 2 (-x.exponent).toNat
  let scale := decimalScale num den
  let found := (List.range 17).findSome? fun (n : Nat) => x.onGrid tie (scale - (n + 1 : Nat))
  found.getD ⟨num * Nat.pow 5 (-x.exponent).toNat, min x.exponent 0⟩

example : shortest .even (.ofBits 0x3FB999999999999A) = ⟨1, -1⟩ := by decide +kernel
example : shortest .even (.ofBits 0x3FD3333333333334) = ⟨30000000000000004, -17⟩ := by
  decide +kernel
example : shortest .even (.ofBits 1) = ⟨5, -324⟩ := by decide +kernel
example : shortest .even (.ofBits 0x3E60000000000000) = ⟨29802322387695312, -24⟩ := by
  decide +kernel
example : shortest .upper (.ofBits 0x3E60000000000000) = ⟨29802322387695313, -24⟩ := by
  decide +kernel

end TrigPainting.Decimal
