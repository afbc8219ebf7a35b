/-!
# Parts of a text

## Main definitions

- `splitAt` — the parts of a text between the places of a character
-/

namespace TrigPainting.Text

/-- The parts of a text between the places of a character; there is one more of
them than of those places. -/
def splitAt (separator : Char) : List Char → List (List Char)
  | [] => [[]]
  | c :: rest =>
    if c = separator then [] :: splitAt separator rest
    else
      match splitAt separator rest with
      | [] => [[c]]
      | part :: parts => (c :: part) :: parts

theorem splitAt_eq_splitOn (separator : Char) (text : List Char) :
    splitAt separator text = text.splitOn separator := by
  induction text with
  | nil => rfl
  | cons c rest ih =>
    have hne := List.splitOn_ne_nil separator rest
    rw [splitAt, ih, List.splitOn_cons_eq_if_modifyHead]
    cases hparts : rest.splitOn separator with
    | nil => exact absurd hparts hne
    | cons part parts => simp

theorem splitAt_append (separator : Char) (a b : List Char) :
    splitAt separator (a ++ separator :: b) =
      splitAt separator a ++ splitAt separator b := by
  simp only [splitAt_eq_splitOn, List.splitOn_append_cons_self]

theorem splitAt_eq_singleton {separator : Char} {text : List Char} (h : separator ∉ text) :
    splitAt separator text = [text] := by
  rw [splitAt_eq_splitOn, List.splitOn_eq_singleton h]

/-- Parts without the separator are the parts of what they are joined to. -/
theorem splitAt_intercalate {separator : Char} {parts : List (List Char)} (hne : parts ≠ [])
    (h : ∀ part ∈ parts, separator ∉ part) :
    splitAt separator ([separator].intercalate parts) = parts := by
  rw [splitAt_eq_splitOn, List.splitOn_intercalate separator h hne]

end TrigPainting.Text
