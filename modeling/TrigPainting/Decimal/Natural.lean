/-!
# Numerals of natural numbers

## Main definitions

- `digitChars`, `naturalText` — the decimal numeral, without leading zeros
-/

namespace TrigPainting.Decimal

/-- The decimal digits of a natural number, most significant first. -/
def digitChars (n : Nat) : List Char :=
  Nat.toDigits 10 n

/-- The decimal numeral of a natural number. -/
def naturalText (n : Nat) : String :=
  String.ofList (digitChars n)

end TrigPainting.Decimal
