import TrigPainting.Picture.Color
import TrigPainting.Storage.Failure

/-!
# Painting pictures

A picture is a buffer of bytes, three for each pixel, row after row from the
top. The buffer is cut into one part for each row. Each row is a job of its own
that cuts its part into pixels and writes them, and the jobs may be done in any
order.

## Main definitions

- `Image`, `Image.HasPixels` — a picture, and whether there is anything to see
- `Part.chunks`, `Part.exactChunks` — a part of a buffer cut into parts
- `Canvas.rowJobs`, `Canvas.pixels` — the jobs of a canvas, and the pixels of a job
- `Palette.paintRow`, `Palette.paintRows` — one job, and jobs in a given order
- `Palette.paintWithProgress`, `Palette.paint` — the picture of a palette
- `RasterError`, `RasterError.message` — why there is no picture
-/

namespace TrigPainting

/-- A picture: three bytes for each pixel, row after row from the top. A side may be
zero. -/
@[ext]
structure Image where
  width : UInt32
  height : UInt32
  bytes : Array UInt8
  size_bytes : bytes.size = 3 * (width.toNat * height.toNat)
deriving DecidableEq, Repr

/-- Why there is no picture. -/
inductive RasterError where
  /-- The canvas cannot be used. -/
  | config (cause : ConfigError)
  /-- The picture cannot be written. -/
  | output (cause : Storage.Failure)

/-- The wording of an error. -/
def RasterError.message : RasterError → String
  | config cause => cause.message
  | output cause => "image output: " ++ cause.message

/-- The messages of the errors behind an error, the nearest first. An error of
the canvas stands for itself and has none behind it. -/
def RasterError.causes : RasterError → List String
  | config _ => []
  | output cause => [cause.message]

namespace Image

/-- A picture has pixels: no side of it is zero. -/
def HasPixels (image : Image) : Prop :=
  image.width ≠ 0 ∧ image.height ≠ 0

instance (image : Image) : Decidable image.HasPixels :=
  inferInstanceAs (Decidable (_ ∧ _))

/-- The bytes of a row, from the left. -/
def row (image : Image) (row : Nat) : List UInt8 :=
  let length := 3 * image.width.toNat
  (image.bytes.extract (row * length) ((row + 1) * length)).toList

/-- The rows of a picture, from the top. -/
def rows (image : Image) : List (List UInt8) :=
  (List.range image.height.toNat).map image.row

end Image

/-- Bytes with the three from index `start` on replaced by those of a color. -/
def Color.writeTo (color : Color) (start : Nat) (bytes : Array UInt8) : Array UInt8 :=
  ((bytes.setIfInBounds start color.red).setIfInBounds (start + 1) color.green).setIfInBounds
    (start + 2) color.blue

@[simp]
theorem Color.size_writeTo (color : Color) (start : Nat) (bytes : Array UInt8) :
    (color.writeTo start bytes).size = bytes.size := by
  simp [writeTo]

/-- A part of a buffer. -/
structure Part where
  start : Nat
  length : Nat
deriving DecidableEq, Repr

namespace Part

/-- A part cut from its start into parts of the given size, which is not zero. The
last of them is shorter if there is no more. -/
def chunks (size : Nat) (part : Part) : List Part :=
  if 0 < size ∧ 0 < part.length then
    let front := min size part.length
    ⟨part.start, front⟩ :: chunks size ⟨part.start + front, part.length - front⟩
  else []
termination_by part.length
decreasing_by
  show part.length - min size part.length < part.length
  omega

/-- A part cut into parts of exactly the given size. What remains at its end belongs
to none of them. -/
def exactChunks (size : Nat) (part : Part) : List Part :=
  chunks size ⟨part.start, part.length - part.length % size⟩

end Part

/-- The job of a row: its number and its part of the buffer. -/
structure RowJob where
  part : Part
  row : UInt32
deriving DecidableEq, Repr

/-- How far painting has come: the buffer, and what the calls behind finished rows have
come to. -/
structure Painting (σ : Type) where
  bytes : Array UInt8
  progress : σ

namespace Canvas

/-- The pixels of a side, counted from zero. -/
def side (size : UInt32) : List UInt32 :=
  (List.range size.toNat).map Nat.toUInt32

/-- How many bytes the pixels of a canvas take. -/
def bufferLength (c : Canvas) : Nat := 3 * (c.width.toNat * c.height.toNat)

/-- The jobs of a canvas: the buffer cut into parts, each with the number of a row. -/
def rowJobs (c : Canvas) : List RowJob :=
  List.zipWith RowJob.mk (Part.chunks (c.width.toNat * 3) ⟨0, c.bufferLength⟩) (side c.height)

/-- The jobs with the given numbers. -/
def jobsInOrder (c : Canvas) (order : List Nat) : List RowJob :=
  let jobs := c.rowJobs.toArray
  order.filterMap fun number => jobs[number]?

/-- The pixels of a row: its part of the buffer cut into parts of three bytes, each with
the number of a column. -/
def pixels (c : Canvas) (job : RowJob) : List (Part × UInt32) :=
  (job.part.exactChunks 3).zip (side c.width)

end Canvas

namespace Palette

/-- Paints a row into its part of the buffer. -/
def paintRow (p : Palette) (c : Canvas) (job : RowJob) (bytes : Array UInt8) : Array UInt8 :=
  (c.pixels job).foldl
    (fun bytes pixel => (p.colorAt c pixel.2 job.row).writeTo pixel.1.start bytes) bytes

@[simp]
theorem size_paintRow (p : Palette) (c : Canvas) (job : RowJob) (bytes : Array UInt8) :
    (p.paintRow c job bytes).size = bytes.size := by
  rw [paintRow]
  generalize c.pixels job = pixels
  induction pixels generalizing bytes with
  | nil => rfl
  | cons pixel rest ih => rw [List.foldl_cons, ih, Color.size_writeTo]

/-- Paints a row and calls `onRow`. -/
def finishRow {σ : Type} (p : Palette) (c : Canvas) (onRow : σ → σ) (painting : Painting σ)
    (job : RowJob) : Painting σ where
  bytes := p.paintRow c job painting.bytes
  progress := onRow painting.progress

theorem size_foldl_finishRow {σ : Type} (p : Palette) (c : Canvas) (onRow : σ → σ)
    (jobs : List RowJob) (painting : Painting σ) :
    (jobs.foldl (p.finishRow c onRow) painting).bytes.size = painting.bytes.size := by
  induction jobs generalizing painting with
  | nil => rfl
  | cons job jobs ih => rw [List.foldl_cons, ih, finishRow, size_paintRow]

/-- Paints the rows with the given numbers, one after the other, and calls `onRow` behind
each of them. -/
def paintRows {σ : Type} (p : Palette) (c : Canvas) (onRow : σ → σ) (order : List Nat)
    (progress : σ) : Painting σ :=
  (c.jobsInOrder order).foldl (p.finishRow c onRow) ⟨Array.replicate c.bufferLength 0, progress⟩

/-- Painting keeps the size of the buffer. -/
theorem size_paintRows {σ : Type} (p : Palette) (c : Canvas) (onRow : σ → σ) (order : List Nat)
    (progress : σ) : (p.paintRows c onRow order progress).bytes.size = c.bufferLength := by
  rw [paintRows, size_foldl_finishRow, Array.size_replicate]

/-- The picture of a palette on a canvas that can be used, painted from the top. -/
def picture (p : Palette) (c : Canvas) : Image where
  width := c.width
  height := c.height
  bytes := (p.paintRows c id (List.range c.height.toNat) ()).bytes
  size_bytes := p.size_paintRows c id _ ()

theorem bytes_picture (p : Palette) (c : Canvas) :
    (p.picture c).bytes = (p.paintRows c id (List.range c.height.toNat) ()).bytes := rfl

theorem hasPixels_picture (p : Palette) {c : Canvas} (h : c.check = .ok ()) :
    (p.picture c).HasPixels := by
  obtain ⟨hwidth, hheight, -⟩ := (c.check_eq_ok_iff).mp h
  exact ⟨hwidth, hheight⟩

/-- The picture of a palette with its rows painted in the given order, if the canvas can
be used, and what the calls of `onRow` behind its rows have made of `progress`. -/
def paintWithProgress {σ : Type} (p : Palette) (c : Canvas) (onRow : σ → σ) (order : List Nat)
    (progress : σ) : Except RasterError Image × σ :=
  match c.check with
  | .error cause => (.error (.config cause), progress)
  | .ok () =>
    let painting := p.paintRows c onRow order progress
    (.ok ⟨c.width, c.height, painting.bytes, p.size_paintRows c onRow order progress⟩,
      painting.progress)

/-- The picture of a palette with its rows painted in the given order, and the
number of rows painted, if the canvas can be used. -/
def paintInOrder (p : Palette) (c : Canvas) (order : List Nat) :
    Except RasterError (Image × Nat) :=
  let (result, finished) := p.paintWithProgress c (· + 1) order 0
  result.map fun image => (image, finished)

/-- The picture of a palette, if the canvas can be used. -/
def paint (p : Palette) (c : Canvas) : Except RasterError Image :=
  (p.paintWithProgress c id (List.range c.height.toNat) ()).1

end Palette

end TrigPainting
