import TrigPainting.Decimal.Natural
import TrigPainting.Text.Line

/-!
# Errors in regular expressions

A regular expression that cannot be used is reported with its text, and with
marks under the part that is at fault.

## Main definitions

- `Position`, `Span` — places in the text of an expression, and parts of it
- `Cause`, `Cause.message` — what is wrong
- `Error`, `Error.report` — a cause with its place, and the report

## Design notes

A text of one line is shown indented. The lines of a longer one are numbered and
stand between two rulers, and parts that span lines are told in words.
-/

namespace TrigPainting.Regex

/-- A place in a text, between two characters. -/
structure Position where
  /-- The number of the line, from 1. -/
  line : Nat := 1
  /-- The number of the next character in its line, from 1. -/
  column : Nat := 1
deriving DecidableEq, Repr

/-- The place after a character. -/
def Position.after (p : Position) (c : Char) : Position :=
  if c = '\n' then ⟨p.line + 1, 1⟩ else ⟨p.line, p.column + 1⟩

/-- Whether a place comes before another or is the same. -/
def Position.le (p q : Position) : Bool :=
  p.line < q.line || (p.line == q.line && p.column ≤ q.column)

/-- A part of a text. -/
structure Span where
  start : Position
  stop : Position
deriving DecidableEq, Repr

/-- The empty part at a place. -/
def Span.point (p : Position) : Span := ⟨p, p⟩

/-- What is wrong with an expression. -/
inductive Cause where
  | classEscapeInvalid
  | classRangeInvalid
  | classRangeLiteral
  | classUnclosed
  | decimalInvalid
  | escapeHexEmpty
  | escapeHexInvalid
  | escapeHexInvalidDigit
  | escapeUnexpectedEnd
  | escapeUnrecognized
  | flagDanglingNegation
  | flagDuplicate
  | flagRepeatedNegation
  | flagUnexpectedEnd
  | flagUnrecognized
  | groupNameDuplicate
  | groupNameEmpty
  | groupNameInvalid
  | groupNameUnexpectedEnd
  | groupUnclosed
  | groupUnopened
  | nestLimitExceeded (limit : Nat)
  | repetitionCountInvalid
  | repetitionCountEmpty
  | repetitionCountUnclosed
  | repetitionMissing
  | wordBoundaryUnclosed
  | wordBoundaryUnrecognized
  | wordBoundaryUnexpectedEnd
  | unicodeClassInvalid
  | backreference
  | lookAround
  | unicodeNotAllowed
  | invalidUtf8
  | propertyNotFound
  | propertyValueNotFound
  | shorthandNotFound
  | caseFoldingUnavailable
deriving DecidableEq, Repr

/-- The wording of a cause. -/
def Cause.message : Cause → String
  | classEscapeInvalid => "invalid escape sequence found in character class"
  | classRangeInvalid => "invalid character class range, the start must be <= the end"
  | classRangeLiteral => "invalid range boundary, must be a literal"
  | classUnclosed => "unclosed character class"
  | decimalInvalid => "decimal literal invalid"
  | escapeHexEmpty => "hexadecimal literal empty"
  | escapeHexInvalid => "hexadecimal literal is not a Unicode scalar value"
  | escapeHexInvalidDigit => "invalid hexadecimal digit"
  | escapeUnexpectedEnd => "incomplete escape sequence, reached end of pattern prematurely"
  | escapeUnrecognized => "unrecognized escape sequence"
  | flagDanglingNegation => "dangling flag negation operator"
  | flagDuplicate => "duplicate flag"
  | flagRepeatedNegation => "flag negation operator repeated"
  | flagUnexpectedEnd => "expected flag but got end of regex"
  | flagUnrecognized => "unrecognized flag"
  | groupNameDuplicate => "duplicate capture group name"
  | groupNameEmpty => "empty capture group name"
  | groupNameInvalid => "invalid capture group character"
  | groupNameUnexpectedEnd => "unclosed capture group name"
  | groupUnclosed => "unclosed group"
  | groupUnopened => "unopened group"
  | nestLimitExceeded limit =>
    "exceed the maximum number of nested parentheses/brackets (" ++ Decimal.naturalText limit ++ ")"
  | repetitionCountInvalid =>
    "invalid repetition count range, the start must be <= the end"
  | repetitionCountEmpty => "repetition quantifier expects a valid decimal"
  | repetitionCountUnclosed => "unclosed counted repetition"
  | repetitionMissing => "repetition operator missing expression"
  | wordBoundaryUnclosed =>
    "special word boundary assertion is either unclosed or contains an invalid character"
  | wordBoundaryUnrecognized =>
    "unrecognized special word boundary assertion, valid choices are: " ++
      "start, end, start-half or end-half"
  | wordBoundaryUnexpectedEnd =>
    "found either the beginning of a special word boundary or a bounded repetition on a \\b " ++
      "with an opening brace, but no closing brace"
  | unicodeClassInvalid => "invalid Unicode character class"
  | backreference => "backreferences are not supported"
  | lookAround => "look-around, including look-ahead and look-behind, is not supported"
  | unicodeNotAllowed => "Unicode not allowed here"
  | invalidUtf8 => "pattern can match invalid UTF-8"
  | propertyNotFound => "Unicode property not found"
  | propertyValueNotFound => "Unicode property value not found"
  | shorthandNotFound =>
    "Unicode-aware Perl class not found (make sure the unicode-perl feature is enabled)"
  | caseFoldingUnavailable =>
    "Unicode-aware case insensitivity matching is not available " ++
      "(make sure the unicode-case feature is enabled)"

/-- What is wrong with an expression, and where. -/
structure Error where
  cause : Cause
  span : Span
  /-- Another part of the text that the cause has to do with. -/
  related : Option Span := none
deriving DecidableEq, Repr

namespace Error

/-- The parts of the text that an error points at, in their order. -/
def spans (e : Error) : List Span :=
  match e.related with
  | none => [e.span]
  | some other => if other.start.le e.span.start then [other, e.span] else [e.span, other]

/-- Marks under parts of a line, of whose columns `column` have been passed. -/
def marks (column : Nat) : List Span → List Char
  | [] => []
  | span :: others =>
    let blanks := span.start.column - 1 - column
    let length := max 1 (span.stop.column - span.start.column)
    List.replicate blanks ' ' ++ List.replicate length '^' ++
      marks (column + blanks + length) others

/-- The number of lines of a text. A line feed at its end begins another. -/
def countLines (text : List Char) : Nat :=
  (Text.lines text).length + if text.getLast? = some '\n' then 1 else 0

/-- What stands in front of a line: its number, or an indentation. -/
def margin (width number : Nat) : List Char :=
  if width = 0 then [' ', ' ', ' ', ' ']
  else
    let digits := Decimal.digitChars number
    List.replicate (width - digits.length) ' ' ++ digits ++ [':', ' ']

/-- A line, and a line of marks if there is anything to be marked. -/
def annotateLine (spans : List Span) (width number : Nat) (line : List Char) : List Char :=
  let margin := margin width number
  let marked := spans.filter fun span => span.start.line == number
  margin ++ line ++ ['\n'] ++
    if marked.isEmpty then []
    else List.replicate margin.length ' ' ++ marks 0 marked ++ ['\n']

/-- The lines of a text, with marks under parts of them. -/
def annotate (spans : List Span) (text : List Char) : List Char :=
  let count := countLines text
  let width := if count ≤ 1 then 0 else (Decimal.digitChars count).length
  let inLine := spans.filter fun span => span.start.line == span.stop.line
  (Text.lines text).zipIdx.flatMap fun (line, index) => annotateLine inLine width (index + 1) line

/-- The words for a part that spans lines. -/
def acrossLines (span : Span) : String :=
  "on line " ++ Decimal.naturalText span.start.line ++
    " (column " ++ Decimal.naturalText span.start.column ++ ") through line " ++
    Decimal.naturalText span.stop.line ++
    " (column " ++ Decimal.naturalText (span.stop.column - 1) ++ ")\n"

/-- The report of an error in a text. -/
def report (e : Error) (text : List Char) : String :=
  let annotated := String.ofList (annotate e.spans text)
  let wording := "error: " ++ e.cause.message
  if text.contains '\n' then
    let ruler := String.ofList (List.replicate 79 '~') ++ "\n"
    let across := e.spans.filter fun span => span.start.line != span.stop.line
    "regex parse error:\n" ++ ruler ++ annotated ++ ruler ++
      String.join (across.map acrossLines) ++ wording
  else "regex parse error:\n" ++ annotated ++ wording

end Error

end TrigPainting.Regex
