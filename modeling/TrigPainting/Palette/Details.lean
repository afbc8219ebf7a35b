import TrigPainting.Palette.Basic
import TrigPainting.Storage.Failure
import TrigPainting.Text.Line

/-!
# Details text

A palette is kept as text with one line for each channel, the key of the
channel, a colon and its expression:

    r_exp: sin(pi*x)*y
    g_exp: cos(x*y)
    b_exp: pi

A reader is more lenient. Lines come in any order and with blanks around them,
a line without a key says nothing, and of several lines for one channel the last
one counts.

## Main definitions

- `Palette.details` — the text of a palette
- `Palette.ofDetails` — the palette that a text describes
- `PaletteError`, `PaletteError.message` — why there is none

## Design notes

Every line that has a key is read, in the order of the text, before anything is
said about missing channels. So a line that cannot be read is an error even if a
later line would replace it, and it wins over a missing channel.
-/

namespace TrigPainting

/-- The key of a channel. -/
def Channel.key : Channel → List Char
  | red => ['r', '_', 'e', 'x', 'p']
  | green => ['g', '_', 'e', 'x', 'p']
  | blue => ['b', '_', 'e', 'x', 'p']

/-- Why there is no palette. -/
inductive PaletteError where
  /-- No line has the key of this channel. -/
  | missing (channel : Channel)
  /-- The expression of a line cannot be read. -/
  | malformed (channel : Channel) (cause : SyntaxError)
  /-- The file that holds the text cannot be read or written. -/
  | file (cause : Storage.Failure)
deriving DecidableEq, Repr

/-- The wording of an error. -/
def PaletteError.message : PaletteError → String
  | missing channel => "details file has no " ++ channel.name ++ " expression"
  | malformed channel cause => channel.name ++ " expression: " ++ cause.message
  | file cause => "details file I/O: " ++ cause.message

/-- The messages of the errors behind an error, the nearest first. -/
def PaletteError.causes : PaletteError → List String
  | missing _ => []
  | malformed _ cause => [cause.message]
  | file cause => [cause.message]

namespace Palette

/-- The line of a channel. -/
def detailsLine (c : Channel) (e : Expr) : List Char :=
  c.key ++ ':' :: ' ' :: e.write ['\n']

/-- The details text of a palette, as characters. -/
def detailsChars (p : Palette) : List Char :=
  Channel.all.flatMap fun c => detailsLine c (p.get c)

/-- The details text of a palette. -/
def details (p : Palette) : String :=
  String.ofList p.detailsChars

/-- The channel whose key starts a line that has been trimmed, and the text of
its expression. -/
def keyed? (line : List Char) : Option (Channel × List Char) :=
  Channel.all.findSome? fun c => ((c.key ++ [':']).isPrefixOf? line).map fun rest => (c, rest)

/-- The channels that have been read. -/
abbrev Draft := Channel → Option Expr

/-- Nothing has been read. -/
def Draft.empty : Draft := fun _ => none

/-- A draft with the expression of one channel replaced. -/
def Draft.set (draft : Draft) (c : Channel) (e : Expr) : Draft :=
  fun d => if d = c then some e else draft d

/-- The draft after one more line. The position of an error counts from the
start of the trimmed line. -/
def Draft.readLine (draft : Draft) (line : List Char) : Except PaletteError Draft :=
  match keyed? (Text.trim line) with
  | none => .ok draft
  | some (c, rest) =>
    match Expr.parseChars rest with
    | .ok e => .ok (draft.set c e)
    | .error cause => .error (.malformed c (cause.shift (c.key.length + 1)))

/-- The draft after the lines of a text, or the first error among them. -/
def Draft.readLines (draft : Draft) : List (List Char) → Except PaletteError Draft
  | [] => .ok draft
  | line :: others =>
    match draft.readLine line with
    | .ok draft => draft.readLines others
    | .error e => .error e

/-- The expression of a channel, or an error if there is none. -/
def Draft.require (draft : Draft) (c : Channel) : Except PaletteError Expr :=
  match draft c with
  | some e => .ok e
  | none => .error (.missing c)

/-- The palette of a draft that has every channel. -/
def Draft.finish (draft : Draft) : Except PaletteError Palette := do
  let red ← draft.require .red
  let green ← draft.require .green
  let blue ← draft.require .blue
  return ⟨red, green, blue⟩

/-- The palette that a details text describes, as characters. -/
def ofDetailsChars (text : List Char) : Except PaletteError Palette :=
  match Draft.empty.readLines (Text.lines text) with
  | .ok draft => draft.finish
  | .error e => .error e

/-- The palette that a details text describes. -/
def ofDetails (text : String) : Except PaletteError Palette :=
  ofDetailsChars text.toList

end Palette

end TrigPainting
