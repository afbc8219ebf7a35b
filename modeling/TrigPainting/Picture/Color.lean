import TrigPainting.Expr.Arithmetic
import TrigPainting.Palette.Basic
import TrigPainting.Picture.Canvas

/-!
# Colors

The value of a channel at a point becomes one of 256 intensities: -1 is dark, 1
is bright, and what lies beyond is cut off.

## Main definitions

- `intensity` — the intensity of a value
- `Color` — the intensities of the three channels
- `Palette.shade` — the color at a distance from the centre
- `Palette.colorAt` — the color of a pixel of a canvas
-/

namespace TrigPainting

/-- The intensity of a value: `127.5` times the value, plus `127.5`, rounded to
the nearest whole number, a half away from zero, and cut off at 0 and 255. What
is not a number is dark. -/
def intensity (z : Float) : UInt8 :=
  let level := (z * 127.5 + 127.5).round
  (if level < 0 then 0 else if 255 < level then 255 else level).toUInt8

/-- The intensities of the three channels. -/
structure Color where
  red : UInt8
  green : UInt8
  blue : UInt8
deriving DecidableEq, Repr, Inhabited

namespace Palette

/-- The color at a point. -/
def color (p : Palette) (x y : Float) : Color where
  red := intensity (p.red.value x y)
  green := intensity (p.green.value x y)
  blue := intensity (p.blue.value x y)

/-- The color at a number of halves of a pixel to the right of the centre and
below it. -/
def shade (p : Palette) (pixelsPerUnit : UInt32) (right down : Int) : Color :=
  p.color (Canvas.coord pixelsPerUnit right) (Canvas.coord pixelsPerUnit down)

/-- The color of a pixel of a canvas. -/
def colorAt (p : Palette) (c : Canvas) (column row : UInt32) : Color :=
  p.shade c.pixelsPerUnit (Canvas.halvesFromCentre c.width column)
    (Canvas.halvesFromCentre c.height row)

end Palette

end TrigPainting
