import TrigPainting.Main
import TrigPainting.Json.Reader
import TrigPainting.Proofs.Expr.Grammar
import TrigPainting.Proofs.Expr.NormalForm
import TrigPainting.Proofs.Expr.Balance
import TrigPainting.Proofs.Expr.Canonical
import TrigPainting.Proofs.Expr.RoundTrip
import TrigPainting.Proofs.Expr.Violation
import TrigPainting.Proofs.Expr.Evaluation
import TrigPainting.Proofs.Expr.Expectation
import TrigPainting.Proofs.Expr.Spacing
import TrigPainting.Proofs.Expr.Depth
import TrigPainting.Proofs.Expr.Levels
import TrigPainting.Proofs.Expr.Grouping
import TrigPainting.Proofs.Expr.Place
import TrigPainting.Proofs.Expr.Size
import TrigPainting.Proofs.Expr.Recursion
import TrigPainting.Proofs.Decimal.Product
import TrigPainting.Proofs.Generator.Growth
import TrigPainting.Proofs.Generator.Cutoff
import TrigPainting.Proofs.Generator.Draws
import TrigPainting.Proofs.Generator.Reach
import TrigPainting.Proofs.Occurrence
import TrigPainting.Proofs.Palette.Reading
import TrigPainting.Proofs.Palette.Independence
import TrigPainting.Proofs.Palette.RoundTrip
import TrigPainting.Proofs.Palette.Place
import TrigPainting.Proofs.Palette.TagText
import TrigPainting.Proofs.Picture.Raster
import TrigPainting.Proofs.Picture.Border
import TrigPainting.Proofs.Storage.Directory
import TrigPainting.Proofs.Storage.Disk
import TrigPainting.Proofs.Storage.Path
import TrigPainting.Proofs.Storage.Save
import TrigPainting.Proofs.Storage.Footprint
import TrigPainting.Proofs.Storage.Clearance
import TrigPainting.Proofs.Storage.Effect
import TrigPainting.Proofs.Storage.Fingerprint
import TrigPainting.Proofs.Command.Refusal
import TrigPainting.Proofs.Command.Repaint
import TrigPainting.Proofs.Command.Series
import TrigPainting.Proofs.Command.Progress
import TrigPainting.Proofs.Command.Check
import TrigPainting.Proofs.Command.Caret
import TrigPainting.Proofs.Command.Report
import TrigPainting.Proofs.Command.NodeCounts
