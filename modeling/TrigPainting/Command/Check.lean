import TrigPainting.Command.Outcome
import TrigPainting.Expr.Reader

/-!
# Checking expressions

Expressions are checked one after the other, up to the first that cannot be
read.

## Main definitions

- `accepted`, `rejected` — what is shown of an expression
- `check` — the command
-/

namespace TrigPainting.Command

/-- The line of a check and its result. -/
def checkLine (name : String) (passed : Bool) : String :=
  if passed then "  ✓ " ++ name ++ ": OK\n" else "  ✗ " ++ name ++ ": FAILED\n"

/-- The line that names the text to be checked. -/
def headLine (text : String) : String :=
  "Validating: " ++ text ++ "\n"

/-- What is shown of a text that holds an expression. -/
def accepted (text : String) (e : Expr) : String :=
  headLine text ++ checkLine "Parses" true ++
    checkLine "Already canonical" (e.text == text) ++
    "  Canonical: " ++ e.text ++ "\n" ++
    "  Nodes:     " ++ Decimal.naturalText e.size ++ "\n" ++
    "  Depth:     " ++ Decimal.naturalText e.depth ++ "\n\n"

/-- The line with a mark under a character of a text, for texts in which every
character is ASCII and so one column wide. -/
def caret? (text : String) (position : Nat) : Option String :=
  if text.toList.all fun c => c.toNat < 128 then
    some (String.ofList (List.replicate position ' ' ++ ['^']))
  else none

/-- What is shown of a text that holds no expression. -/
def rejected (text : String) (cause : SyntaxError) : String :=
  headLine text ++ checkLine "Parses" false ++
    match caret? text cause.position with
    | some caret => "  " ++ text ++ "\n  " ++ caret ++ "\n"
    | none => ""

/-- The message about a text that holds no expression. -/
def rejection (cause : SyntaxError) : String :=
  "Invalid expression: " ++ cause.message

/-- What is shown of texts, and the first error among them. -/
def checkAll : List String → String × Option SyntaxError
  | [] => ("Validation successful!\n", none)
  | text :: others =>
    match Expr.parse text with
    | .ok e =>
      let (shown, cause) := checkAll others
      (accepted text e ++ shown, cause)
    | .error cause => (rejected text cause, some cause)

/-- Checks texts up to the first that holds no expression. -/
def check (texts : List String) (disk : Storage.Disk) : Outcome :=
  match checkAll texts with
  | (shown, none) => .success (fun _ => shown) [] disk
  | (shown, some cause) => .failed (rejection cause) (fun _ => shown) [] disk

end TrigPainting.Command
