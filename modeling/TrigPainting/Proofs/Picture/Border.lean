import TrigPainting.Proofs.Picture.Raster

/-!
# Borders of pictures

The origin is in the centre of a canvas. A canvas that grows by as many pixels to the left as
to the right, and by as many at the top as at the bottom, keeps the distance of its pixels from
the centre in whole halves of a pixel. A color depends on that distance and on the scale alone,
whatever is computed from them. So the picture on the larger canvas is the smaller picture with
a border around it.

## Main definitions

- `Canvas.bordered` — a canvas with a border
- `Image.crop` — a part of a picture

## Main statements

- `Palette.colorAt_bordered` — the color of a pixel behind a border
- `Palette.IsPicture.crop_bordered` — the part of a picture inside its border
- `Palette.paint_bordered` — what is painted on a canvas with a border
-/

namespace TrigPainting

/-- A canvas with `columns` more pixels on either side and `rows` more at the top and at the
bottom. -/
def Canvas.bordered (c : Canvas) (columns rows : UInt32) : Canvas :=
  ⟨c.width + 2 * columns, c.height + 2 * rows, c.pixelsPerUnit⟩

/-- The part of a picture with the given size, `left` pixels from the left and `top` pixels from
the top. -/
def Image.crop (image : Image) (left top : Nat) (width height : UInt32) : Image where
  width := width
  height := height
  bytes := Array.ofFn fun i : Fin (3 * (width.toNat * height.toNat)) =>
    let column := left + i / 3 % width.toNat
    let row := top + i / 3 / width.toNat
    image.bytes.getD (3 * (row * image.width.toNat + column) + i % 3) 0
  size_bytes := Array.size_ofFn

-- ════════════════════════════════════════════════════════════════════════
-- Pixels behind a border
-- ════════════════════════════════════════════════════════════════════════

namespace Canvas

variable {size pixel border : UInt32}

theorem pixel_lt_bordered (h : size.toNat + 2 * border.toNat < UInt32.size)
    (hpixel : pixel < size) : pixel + border < size + 2 * border := by
  rw [UInt32.lt_iff_toNat_lt, toNat_side_bordered h, toNat_pixel_bordered h hpixel]
  have hlt : pixel.toNat < size.toNat := UInt32.lt_iff_toNat_lt.mp hpixel
  omega

theorem side_bordered_ne_zero (h : size.toNat + 2 * border.toNat < UInt32.size)
    (hsize : size ≠ 0) : size + 2 * border ≠ 0 := by
  have hpos : 0 < size.toNat := UInt32.pos_iff_ne_zero.mpr hsize
  intro hzero
  have hnat := toNat_side_bordered h
  rw [hzero, UInt32.toNat_zero] at hnat
  omega

/-- A canvas that can be used can be used with a border. -/
theorem check_bordered {c : Canvas} {columns rows : UInt32} (h : c.check = .ok ())
    (hwidth : c.width.toNat + 2 * columns.toNat < UInt32.size)
    (hheight : c.height.toNat + 2 * rows.toNat < UInt32.size) :
    (c.bordered columns rows).check = .ok () := by
  rw [check_eq_ok_iff] at h ⊢
  obtain ⟨hw, hh, hscale⟩ := h
  exact ⟨side_bordered_ne_zero hwidth hw, side_bordered_ne_zero hheight hh, hscale⟩

end Canvas

namespace Palette

variable {p : Palette} {c : Canvas} {columns rows : UInt32} {image larger : Image}

/-- A pixel behind a border has the color that it has without. -/
theorem colorAt_bordered (p : Palette) {column row : UInt32}
    (hwidth : c.width.toNat + 2 * columns.toNat < UInt32.size)
    (hheight : c.height.toNat + 2 * rows.toNat < UInt32.size)
    (hcolumn : column < c.width) (hrow : row < c.height) :
    p.colorAt (c.bordered columns rows) (column + columns) (row + rows) =
      p.colorAt c column row := by
  show p.shade c.pixelsPerUnit (Canvas.halvesFromCentre (c.width + 2 * columns) (column + columns))
    (Canvas.halvesFromCentre (c.height + 2 * rows) (row + rows)) = _
  rw [Canvas.halvesFromCentre_border hwidth hcolumn, Canvas.halvesFromCentre_border hheight hrow]
  rfl

-- ════════════════════════════════════════════════════════════════════════
-- Pictures behind a border
-- ════════════════════════════════════════════════════════════════════════

/-- **One pixel**: behind the border, the larger picture has the bytes of the smaller one. -/
theorem IsPicture.getElem?_bordered (h : p.IsPicture c image)
    (hlarger : p.IsPicture (c.bordered columns rows) larger)
    (hwidth : c.width.toNat + 2 * columns.toNat < UInt32.size)
    (hheight : c.height.toNat + 2 * rows.toNat < UInt32.size)
    {column row : UInt32} (hcolumn : column < c.width) (hrow : row < c.height) {k : Nat}
    (hk : k < 3) :
    larger.bytes[3 * ((row.toNat + rows.toNat) * larger.width.toNat +
        (column.toNat + columns.toNat)) + k]? =
      image.bytes[3 * (row.toNat * image.width.toNat + column.toNat) + k]? := by
  have hcolor := hlarger.color (column + columns) (row + rows)
    (Canvas.pixel_lt_bordered hwidth hcolumn) (Canvas.pixel_lt_bordered hheight hrow) k hk
  rw [Canvas.toNat_pixel_bordered hwidth hcolumn, Canvas.toNat_pixel_bordered hheight hrow,
    colorAt_bordered p hwidth hheight hcolumn hrow] at hcolor
  rw [hlarger.width, hcolor, h.width, h.color column row hcolumn hrow k hk]

/-- The byte with a number belongs to a pixel. -/
theorem IsPicture.exists_pixel (h : p.IsPicture c image) {i : Nat} (hi : i < image.bytes.size) :
    ∃ column row : UInt32, column < c.width ∧ row < c.height ∧
      column.toNat = i / 3 % c.width.toNat ∧ row.toNat = i / 3 / c.width.toNat := by
  rw [h.size] at hi
  have hpixel : i / 3 < c.width.toNat * c.height.toNat := by omega
  have hpos : 0 < c.width.toNat := by
    by_contra hzero
    obtain hzero : c.width.toNat = 0 := by omega
    simp [hzero] at hpixel
  have hcolumn : i / 3 % c.width.toNat < c.width.toNat := Nat.mod_lt _ hpos
  have hrow : i / 3 / c.width.toNat < c.height.toNat := Nat.div_lt_of_lt_mul hpixel
  refine ⟨(i / 3 % c.width.toNat).toUInt32, (i / 3 / c.width.toNat).toUInt32, ?_, ?_,
    Canvas.toNat_toUInt32_of_lt hcolumn, Canvas.toNat_toUInt32_of_lt hrow⟩
  · rwa [UInt32.lt_iff_toNat_lt, Canvas.toNat_toUInt32_of_lt hcolumn]
  · rwa [UInt32.lt_iff_toNat_lt, Canvas.toNat_toUInt32_of_lt hrow]

/-- **All pixels**: what is inside the border is the smaller picture. -/
theorem IsPicture.crop_bordered (h : p.IsPicture c image)
    (hlarger : p.IsPicture (c.bordered columns rows) larger)
    (hwidth : c.width.toNat + 2 * columns.toNat < UInt32.size)
    (hheight : c.height.toNat + 2 * rows.toNat < UInt32.size) :
    larger.crop columns.toNat rows.toNat image.width image.height = image := by
  have hbytes : (larger.crop columns.toNat rows.toNat image.width image.height).bytes =
      image.bytes := by
    apply Array.ext
    · rw [image.size_bytes, Image.size_bytes]
      rfl
    · intro i hi hi'
      obtain ⟨column, row, hcolumn, hrow, hcolumnOf, hrowOf⟩ := h.exists_pixel hi'
      have hk : i % 3 < 3 := Nat.mod_lt i (by decide)
      have hpixel := h.getElem?_bordered hlarger hwidth hheight hcolumn hrow hk
      have hindex : 3 * (row.toNat * image.width.toNat + column.toNat) + i % 3 = i := by
        rw [h.width, hcolumnOf, hrowOf, Nat.mul_comm (i / 3 / _), Nat.div_add_mod]
        omega
      rw [hindex, Array.getElem?_eq_getElem hi'] at hpixel
      have hplace : 3 * ((rows.toNat + i / 3 / image.width.toNat) * larger.width.toNat +
          (columns.toNat + i / 3 % image.width.toNat)) + i % 3 =
          3 * ((row.toNat + rows.toNat) * larger.width.toNat +
            (column.toNat + columns.toNat)) + i % 3 := by
        rw [h.width, hcolumnOf, hrowOf, Nat.add_comm rows.toNat, Nat.add_comm columns.toNat]
      simp only [Image.crop, Array.getElem_ofFn, hplace, Array.getD_eq_getD_getElem?, hpixel,
        Option.getD_some]
  exact Image.ext rfl rfl hbytes

theorem paintWithProgress_of_check {σ : Type} (p : Palette) (hcheck : c.check = .ok ())
    {order : List Nat} (horder : order.Perm (List.range c.height.toNat)) (onRow : σ → σ)
    (progress : σ) : (p.paintWithProgress c onRow order progress).1 = .ok (p.picture c) := by
  have hwidth : c.width ≠ 0 := Canvas.width_ne_zero_of_check hcheck
  rw [paintWithProgress, hcheck]
  simp only [paintRows_eq hwidth horder]
  rfl

/-- **A larger canvas adds a border**: if a canvas that can be used grows by as many pixels on
opposite sides, its pixels keep their distances from the centre, and their colors. Whatever the
order of the rows, both canvases are painted, and the smaller picture is the part of the larger
one inside the border. -/
theorem paint_bordered {σ : Type} (p : Palette) (c : Canvas) (columns rows : UInt32)
    (hcheck : c.check = .ok ())
    (hwidth : c.width.toNat + 2 * columns.toNat < UInt32.size)
    (hheight : c.height.toNat + 2 * rows.toNat < UInt32.size)
    (onRow : σ → σ) (progress : σ) {order order' : List Nat}
    (horder : order.Perm (List.range c.height.toNat))
    (horder' : order'.Perm (List.range (c.bordered columns rows).height.toNat)) :
    (∀ column row : UInt32, column < c.width → row < c.height →
      Canvas.halvesFromCentre (c.bordered columns rows).width (column + columns) =
          Canvas.halvesFromCentre c.width column ∧
        Canvas.halvesFromCentre (c.bordered columns rows).height (row + rows) =
          Canvas.halvesFromCentre c.height row) ∧
    ∃ image larger : Image,
      (p.paintWithProgress c onRow order progress).1 = .ok image ∧
      (p.paintWithProgress (c.bordered columns rows) onRow order' progress).1 = .ok larger ∧
      image.width = c.width ∧ image.height = c.height ∧
      larger.width.toNat = c.width.toNat + 2 * columns.toNat ∧
      larger.height.toNat = c.height.toNat + 2 * rows.toNat ∧
      (∀ column row : UInt32, column < c.width → row < c.height → ∀ k < 3,
        ∃ byte, image.bytes[3 * (row.toNat * image.width.toNat + column.toNat) + k]? = some byte ∧
          larger.bytes[3 * ((row.toNat + rows.toNat) * larger.width.toNat +
            (column.toNat + columns.toNat)) + k]? = some byte) ∧
      larger.crop columns.toNat rows.toNat image.width image.height = image := by
  have hcheck' := Canvas.check_bordered hcheck hwidth hheight
  have himage := p.isPicture_picture (Canvas.width_ne_zero_of_check hcheck)
  have hlarger := p.isPicture_picture (Canvas.width_ne_zero_of_check hcheck')
  constructor
  · intro column row hcolumn hrow
    exact ⟨Canvas.halvesFromCentre_border hwidth hcolumn,
      Canvas.halvesFromCentre_border hheight hrow⟩
  refine ⟨p.picture c, p.picture (c.bordered columns rows),
    p.paintWithProgress_of_check hcheck horder onRow progress,
    p.paintWithProgress_of_check hcheck' horder' onRow progress, rfl, rfl,
    Canvas.toNat_side_bordered hwidth, Canvas.toNat_side_bordered hheight, ?_,
    himage.crop_bordered hlarger hwidth hheight⟩
  intro column row hcolumn hrow k hk
  have hlt : 3 * (row.toNat * (p.picture c).width.toNat + column.toNat) + k <
      (p.picture c).bytes.size := by
    rw [himage.size]
    exact pixel_lt_bufferLength hcolumn hrow hk
  refine ⟨_, Array.getElem?_eq_getElem hlt, ?_⟩
  rw [himage.getElem?_bordered hlarger hwidth hheight hcolumn hrow hk]
  exact Array.getElem?_eq_getElem hlt

/-- A canvas of odd width and even height, with a border that is wider than it. -/
theorem paint_bordered_of_odd_width :
    let p : Palette := ⟨.piWave .sine (.coord .x), .times (.coord .x) (.coord .y), .pi⟩
    let c : Canvas := ⟨3, 2, 5⟩
    c.check = .ok () ∧ 3 + 2 * 4 < UInt32.size ∧ 2 + 2 * 1 < UInt32.size ∧
      [1, 0].Perm (List.range 2) ∧ [3, 1, 0, 2].Perm (List.range 4) ∧
      ∃ image larger : Image,
        (p.paintWithProgress c (· + 1) [1, 0] 0).1 = .ok image ∧
        (p.paintWithProgress ⟨11, 4, 5⟩ (· + 1) [3, 1, 0, 2] 0).1 = .ok larger ∧
        larger.crop 4 1 image.width image.height = image := by
  intro p c
  have hcheck : c.check = .ok () := rfl
  have hwidth : 3 + 2 * 4 < UInt32.size := by decide
  have hheight : 2 + 2 * 1 < UInt32.size := by decide
  have horder : [1, 0].Perm (List.range 2) := by decide
  have horder' : [3, 1, 0, 2].Perm (List.range 4) := by decide
  refine ⟨hcheck, hwidth, hheight, horder, horder', ?_⟩
  obtain ⟨-, image, larger, himage, hlarger, -, -, -, -, -, hcrop⟩ :=
    paint_bordered p c 4 1 hcheck hwidth hheight (· + 1) 0 horder horder'
  exact ⟨image, larger, himage, hlarger, hcrop⟩

end Palette

end TrigPainting
