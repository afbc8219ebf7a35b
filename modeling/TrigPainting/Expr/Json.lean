import TrigPainting.Expr.Reader
import TrigPainting.Expr.Text
import TrigPainting.Json.Basic

/-!
# Expressions in JSON documents

In a document an expression is the string of its text.

## Main definitions

- `Expr.toJson`, `Expr.ofJson` — writing and reading
- `Expr.DocumentError` — why a document is no expression
-/

namespace TrigPainting.Expr

/-- An expression as a document: its canonical text. -/
def toJson (e : Expr) : Json :=
  .string e.text

/-- Why a document is not an expression. -/
inductive DocumentError where
  /-- It is not a string. -/
  | notString (document : Json)
  /-- Its text is not that of an expression. -/
  | malformed (cause : SyntaxError)

/-- The wording of an error. -/
def DocumentError.message : DocumentError → String
  | notString document => "invalid type: " ++ document.kind ++ ", expected a string"
  | malformed cause => cause.message

/-- The expression that a document holds. -/
def ofJson : Json → Except DocumentError Expr
  | .string text =>
    match parse text with
    | .ok e => .ok e
    | .error cause => .error (.malformed cause)
  | document => .error (.notString document)

end TrigPainting.Expr
