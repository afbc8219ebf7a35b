import TrigPainting.Json.Basic

/-!
# Canvases

A canvas is a rectangle of pixels laid over the plane, its centre on the origin.

## Main definitions

- `Canvas` — width, height and the number of pixels per unit of the plane
- `Canvas.check` — whether a picture can be painted on it
- `Canvas.coords` — the point of a pixel
- `ConfigError`, `ConfigError.message` — settings that cannot be used

## Design notes

The distance of a pixel from the centre is a multiple of half a pixel. It is
taken as a whole number of halves, which is exact for canvases of every size;
rounding starts with the division by the scale.
-/

namespace TrigPainting

/-- Settings that cannot be used. -/
inductive ConfigError where
  /-- The starting probability of a generator lies outside `[0, 1)`. -/
  | probability (p : Float)
  /-- A canvas has no pixels. -/
  | emptyCanvas (width height : UInt32)
  /-- A canvas has no pixels to a unit. -/
  | zeroScale

/-- A size in pixels, as it is shown. -/
def sizeText (width height : UInt32) : String :=
  Decimal.naturalText width.toNat ++ "x" ++ Decimal.naturalText height.toNat

/-- The wording of an error. -/
def ConfigError.message : ConfigError → String
  | probability p => "probability must be within [0, 1), got " ++ Decimal.plain.write p
  | emptyCanvas width height =>
    "canvas must be at least 1x1 pixels, got " ++ sizeText width height
  | zeroScale => "pixels per unit must be positive"

/-- A rectangle of pixels over the plane. -/
structure Canvas where
  width : UInt32
  height : UInt32
  pixelsPerUnit : UInt32
deriving DecidableEq, Repr

namespace Canvas

/-- The usual canvas. -/
def usual : Canvas := ⟨2048, 2048, 256⟩

/-- A canvas as wide as high. -/
def square (size pixelsPerUnit : UInt32) : Canvas := ⟨size, size, pixelsPerUnit⟩

/-- The first reason why nothing can be painted on a canvas, if there is one. -/
def check (c : Canvas) : Except ConfigError Unit :=
  if c.width = 0 ∨ c.height = 0 then .error (.emptyCanvas c.width c.height)
  else if c.pixelsPerUnit = 0 then .error .zeroScale
  else .ok ()

theorem check_eq_ok_iff (c : Canvas) :
    c.check = .ok () ↔ c.width ≠ 0 ∧ c.height ≠ 0 ∧ c.pixelsPerUnit ≠ 0 := by
  rw [check]
  by_cases hsides : c.width = 0 ∨ c.height = 0
  · rw [if_pos hsides]
    refine iff_of_false (by simp) fun h => ?_
    exact hsides.elim h.1 h.2.1
  · rw [if_neg hsides]
    rw [not_or] at hsides
    by_cases hscale : c.pixelsPerUnit = 0
    · rw [if_pos hscale]
      exact iff_of_false (by simp) fun h => h.2.2 hscale
    · rw [if_neg hscale]
      exact iff_of_true rfl ⟨hsides.1, hsides.2, hscale⟩

/-- The distance of a pixel from the centre of a side of `size` pixels, in
halves of a pixel. -/
def halvesFromCentre (size pixel : UInt32) : Int :=
  2 * (pixel.toNat : Int) - size.toNat

/-- The coordinate at a number of halves of a pixel from the centre. -/
def coord (pixelsPerUnit : UInt32) (halves : Int) : Float :=
  Float.ofInt halves / 2 / pixelsPerUnit.toFloat

/-- The point of a pixel, counted from the upper left corner. -/
def coords (c : Canvas) (column row : UInt32) : Float × Float :=
  (coord c.pixelsPerUnit (halvesFromCentre c.width column),
    coord c.pixelsPerUnit (halvesFromCentre c.height row))

/-- A canvas as a document. -/
def toJson (c : Canvas) : Json :=
  .object [("width", .nat c.width.toNat), ("height", .nat c.height.toNat),
    ("pixels_per_unit", .nat c.pixelsPerUnit.toNat)]

section Border

variable {size pixel border : UInt32}

theorem toNat_side_bordered (h : size.toNat + 2 * border.toNat < UInt32.size) :
    (size + 2 * border).toNat = size.toNat + 2 * border.toNat := by
  rw [UInt32.size] at h
  rw [UInt32.toNat_add, UInt32.toNat_mul]
  simp only [UInt32.reduceToNat]
  omega

theorem toNat_pixel_bordered (h : size.toNat + 2 * border.toNat < UInt32.size)
    (hpixel : pixel < size) : (pixel + border).toNat = pixel.toNat + border.toNat := by
  rw [UInt32.size] at h
  have hlt : pixel.toNat < size.toNat := UInt32.lt_iff_toNat_lt.mp hpixel
  rw [UInt32.toNat_add]
  omega

/-- A side that grows by `border` pixels at both ends keeps the distance of its
pixels from the centre. -/
theorem halvesFromCentre_border (hsize : size.toNat + 2 * border.toNat < UInt32.size)
    (hpixel : pixel < size) :
    halvesFromCentre (size + 2 * border) (pixel + border) = halvesFromCentre size pixel := by
  rw [halvesFromCentre, halvesFromCentre, toNat_side_bordered hsize,
    toNat_pixel_bordered hsize hpixel]
  omega

end Border

end Canvas

end TrigPainting
