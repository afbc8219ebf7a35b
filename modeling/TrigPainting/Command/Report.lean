import TrigPainting.Command.Options
import TrigPainting.Storage.Save

/-!
# Reports

A picture that was saved is reported by its paths and its expressions.

## Main definitions

- `Report` — a picture, its paths and its palette
- `Report.text` — the report in words
- `Report.toJson`, `seriesJson` — the reports of one picture and of a series as
  documents

## Design notes

The report in words holds the lines of the details file, so it can be read as
one.
-/

namespace TrigPainting.Command

/-- A picture that was saved. -/
structure Report where
  index : Nat
  saved : Storage.SavedImage
  palette : Palette

namespace Report

/-- The lines of a palette's details, indented. -/
def detailsLines (p : Palette) : String :=
  String.join ((Text.lines p.detailsChars).map fun line => "  " ++ String.ofList line ++ "\n")

/-- The report in words. -/
def text (r : Report) : String :=
  "Image " ++ Decimal.naturalText r.index ++ ": " ++ r.saved.image.text ++ "\n" ++
    "  Details: " ++ r.saved.details.text ++ "\n" ++ detailsLines r.palette

theorem text_eq (r : Report) : r.text =
    "Image " ++ Decimal.naturalText r.index ++ ": " ++ r.saved.image.text ++ "\n" ++
      "  Details: " ++ r.saved.details.text ++ "\n" ++ detailsLines r.palette :=
  rfl

/-- The report as a document. -/
def toJson (r : Report) : Json :=
  .object [("index", .nat r.index), ("image", .string r.saved.image.text),
    ("details", .string r.saved.details.text), ("palette", r.palette.toJson),
    ("nodes", .array (Channel.all.map fun c => .nat (r.palette.get c).size))]

end Report

/-- The reports of a series, with its seed and settings, as a document. -/
def seriesJson (seed : UInt64) (options : Series) (reports : List Report) : Json :=
  .object [("seed", .nat seed.toNat), ("generator", options.settings.toJson),
    ("render", options.canvas.toJson), ("images", .array (reports.map Report.toJson))]

end TrigPainting.Command
