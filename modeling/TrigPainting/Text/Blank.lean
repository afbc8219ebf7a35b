/-!
# Blank characters

The characters that separate and pad text: those with the property White_Space
of the Unicode character database, twenty-five in all. The list has not changed
since version 6.3 of the database.

## Main definitions

- `isBlank` — membership in the property
- `visible` — a text without its blanks
- `trim` — a text without the blanks at its two ends
-/

namespace TrigPainting.Text

/-- The ranges of code points of the property White_Space, ends included. -/
def blankRanges : List (Nat × Nat) :=
  [(0x09, 0x0D), (0x20, 0x20), (0x85, 0x85), (0xA0, 0xA0), (0x1680, 0x1680),
   (0x2000, 0x200A), (0x2028, 0x2029), (0x202F, 0x202F), (0x205F, 0x205F),
   (0x3000, 0x3000)]

/-- Whether a character is blank. -/
def isBlank (c : Char) : Bool :=
  blankRanges.any fun range => range.1 ≤ c.toNat && c.toNat ≤ range.2

/-- The characters of a text that are not blank, in order. -/
def visible (text : List Char) : List Char :=
  text.filter fun c => !isBlank c

/-- A text without the blanks at its start. -/
def trimLeft (text : List Char) : List Char :=
  text.dropWhile isBlank

/-- A text without the blanks at its two ends. -/
def trim (text : List Char) : List Char :=
  (trimLeft (trimLeft text).reverse).reverse

example : (blankRanges.map fun range => range.2 + 1 - range.1).sum = 25 := by decide

theorem visible_cons_of_isBlank {c : Char} (h : isBlank c = true) (text : List Char) :
    visible (c :: text) = visible text := by
  simp [visible, h]

theorem visible_cons_of_not_isBlank {c : Char} (h : isBlank c = false) (text : List Char) :
    visible (c :: text) = c :: visible text := by
  simp [visible, h]

theorem visible_eq_self_iff {text : List Char} :
    visible text = text ↔ ∀ c ∈ text, isBlank c = false := by
  simp [visible]

theorem visible_append (a b : List Char) : visible (a ++ b) = visible a ++ visible b :=
  List.filter_append ..

end TrigPainting.Text
