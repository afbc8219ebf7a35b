/-!
# Lines of text

A line ends at a line feed, and a carriage return right before the line feed
belongs to the ending. What follows the last line feed is a line if it is not
empty.

## Main definitions

- `lines` — the lines of a text, without their endings
-/

namespace TrigPainting.Text

/-- The lines of a text, without their endings. -/
def lines : List Char → List (List Char)
  | [] => []
  | '\n' :: rest => [] :: lines rest
  | '\r' :: '\n' :: rest => [] :: lines rest
  | c :: rest =>
    match lines rest with
    | [] => [[c]]
    | line :: others => (c :: line) :: others

end TrigPainting.Text
