import TrigPainting.Decimal.Natural
import TrigPainting.Decimal.Shortest

/-!
# Writing numbers

A number is written with its shortest digits. What else its text looks like is
decided by a `Layout`.

## Main definitions

- `Layout` — the decisions
- `Layout.write` — the text of a number
- `plain` — the layout of messages: positional, whatever the size
- `pointed` — the layout of descriptions: positional and with a point
- `json` — the layout of JSON documents
-/

namespace TrigPainting.Decimal

/-- How the text of a number is laid out around its shortest digits. -/
structure Layout where
  /-- Whether a number is written without an exponent, by the decimal exponent
  of its leading digit. -/
  positional : Int → Bool
  /-- What follows a whole number that is written without an exponent. -/
  afterWhole : String
  tie : Tie
  nan : String
  infinity : String
  negativeInfinity : String

/-- Messages show numbers positionally, a whole number without a point. -/
def plain : Layout where
  positional _ := true
  afterWhole := ""
  tie := .upper
  nan := "NaN"
  infinity := "inf"
  negativeInfinity := "-inf"

/-- JSON documents show numbers from `1e-5` up to, but not including, `1e+16`
positionally; a whole number keeps a point, and what is not a number is null. -/
def json : Layout where
  positional e := decide (-5 ≤ e ∧ e < 16)
  afterWhole := ".0"
  tie := .even
  nan := "null"
  infinity := "null"
  negativeInfinity := "null"

/-- Descriptions of a number show it positionally and always with a point. -/
def pointed : Layout where
  positional _ := true
  afterWhole := ".0"
  tie := .upper
  nan := "NaN"
  infinity := "inf"
  negativeInfinity := "-inf"

private def zeros (n : Nat) : List Char :=
  List.replicate n '0'

/-- Digits with the point set `places` before their end, positionally. -/
def Layout.writePositional (layout : Layout) (digits : List Char) (exponent : Int) : List Char :=
  if 0 ≤ exponent then digits ++ zeros exponent.toNat ++ layout.afterWhole.toList
  else
    let fraction := (-exponent).toNat
    if fraction < digits.length then
      digits.take (digits.length - fraction) ++ '.' :: digits.drop (digits.length - fraction)
    else '0' :: '.' :: (zeros (fraction - digits.length) ++ digits)

/-- Digits with the point after the first, times the power `leading` of ten. -/
def writeScientific (digits : List Char) (leading : Int) : List Char :=
  let sign := if leading < 0 then '-' else '+'
  let mantissa :=
    match digits with
    | first :: second :: rest => first :: '.' :: second :: rest
    | short => short
  mantissa ++ 'e' :: sign :: digitChars leading.natAbs

/-- A decimal with its trailing zeros moved into the exponent. -/
def Numeral.strip (d : Numeral) : List Char × Int :=
  let digits := digitChars d.digits
  let kept := (digits.reverse.dropWhile (· == '0')).reverse
  (kept, d.exponent + (digits.length - kept.length : Nat))

/-- The text of a finite number without its sign. -/
def Layout.writeSize (layout : Layout) (x : Magnitude) : List Char :=
  if x.significand = 0 then layout.writePositional ['0'] 0
  else
    let (digits, exponent) := (shortest layout.tie x).strip
    let leading := exponent + digits.length - 1
    if layout.positional leading then layout.writePositional digits exponent
    else writeScientific digits leading

/-- The text of a number. -/
def Layout.write (layout : Layout) (x : Float) : String :=
  match classify x.toBits with
  | .nan => layout.nan
  | .infinite false => layout.infinity
  | .infinite true => layout.negativeInfinity
  | .finite false size => String.ofList (layout.writeSize size)
  | .finite true size => String.ofList ('-' :: layout.writeSize size)

end TrigPainting.Decimal
