import TrigPainting.Decimal.Binary64

/-!
# Reading numbers

The texts of whole numbers and of binary64 numbers that a reader may write.

## Main definitions

- `readNatural?` — digits, after an optional plus sign
- `readInteger?` — digits, after an optional sign
- `readFloat?` — a decimal, infinity or the number that is none
-/

namespace TrigPainting.Decimal

/-- The value of an ASCII digit. -/
def digit? (c : Char) : Option Nat :=
  if '0' ≤ c ∧ c ≤ '9' then some (c.toNat - '0'.toNat) else none

/-- The digits at the start of a text, as a number in front of which `value`
stands, how many they are, and what follows them. -/
def readDigits (value count : Nat) : List Char → Nat × Nat × List Char
  | [] => (value, count, [])
  | c :: rest =>
    match digit? c with
    | some d => readDigits (10 * value + d) (count + 1) rest
    | none => (value, count, c :: rest)

/-- A text of one digit or more. -/
def readUnsigned? (text : List Char) : Option Nat :=
  match readDigits 0 0 text with
  | (value, _ + 1, []) => some value
  | _ => none

/-- Digits after an optional plus sign. -/
def readNatural? : List Char → Option Nat
  | '+' :: rest => readUnsigned? rest
  | text => readUnsigned? text

/-- Digits after an optional sign. -/
def readInteger? : List Char → Option Int
  | '-' :: rest => (readUnsigned? rest).map fun n => -(n : Int)
  | text => (readNatural? text).map fun n => (n : Int)

/-- The bits of the number nearest to `digits * 10 ^ exponent`. Beyond the
exponents of the format no power of ten is formed. -/
def nearestDecimal (digits : Nat) (exponent : Int) : UInt64 :=
  let leading := (Nat.toDigits 10 digits).length + exponent
  if digits = 0 ∨ leading < -330 then 0
  else if 330 < leading then infinityBits.toUInt64
  else nearest (digits * Nat.pow 10 exponent.toNat) (Nat.pow 10 (-exponent).toNat)

/-- The exponent after an `e`, if the text has one and ends after it. -/
def readExponent? : List Char → Option Int
  | [] => some 0
  | c :: rest => if c = 'e' ∨ c = 'E' then readInteger? rest else none

/-- A decimal without sign: digits, with a point anywhere among or beside them,
and an optional exponent. -/
def readDecimal? (text : List Char) : Option UInt64 :=
  let (whole, wholeCount, rest) := readDigits 0 0 text
  let (digits, count, rest) :=
    match rest with
    | '.' :: rest => readDigits whole 0 rest
    | rest => (whole, 0, rest)
  if wholeCount + count = 0 then none
  else (readExponent? rest).map fun exponent => nearestDecimal digits (exponent - count)

/-- A number without sign: a decimal, or one of the names of the values that
have no decimal, in letters of either case. -/
def readUnsignedFloat? (text : List Char) : Option UInt64 :=
  match readDecimal? text with
  | some bits => some bits
  | none =>
    let name := String.ofList (text.map Char.toLower)
    if name = "inf" ∨ name = "infinity" then some infinityBits.toUInt64
    else if name = "nan" then some 0x7FF8000000000000
    else none

/-- The bits of a number with the sign bit set. -/
def negate (bits : UInt64) : UInt64 :=
  bits ||| 0x8000000000000000

/-- A number after an optional sign. -/
def readFloat? (text : List Char) : Option Float :=
  Float.ofBits <$>
    match text with
    | '-' :: rest => negate <$> readUnsignedFloat? rest
    | '+' :: rest => readUnsignedFloat? rest
    | rest => readUnsignedFloat? rest

end TrigPainting.Decimal
