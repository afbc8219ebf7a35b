import TrigPainting.Generator.Settings
import TrigPainting.Picture.Canvas
import TrigPainting.Storage.Path

/-!
# Commands and their options

## Main definitions

- `Task` — what a command asks for: a series of random pictures, one picture from
  a details file, a check of expressions
- `Series`, `Repaint` — the options of the first two
- `Request` — a command and how much is told while it works
-/

namespace TrigPainting.Command

/-- How the pictures of a series are reported. -/
inductive Format where
  | text
  | json
deriving DecidableEq, Repr

/-- The options of a series of random pictures. -/
structure Series where
  /-- Width and height in pixels. -/
  size : UInt32 := Canvas.usual.width
  pixelsPerUnit : UInt32 := Canvas.usual.pixelsPerUnit
  /-- The number of pictures. -/
  count : Nat := 3
  /-- The seed; without one the clock gives it. -/
  seed : Option UInt64 := none
  probability : Float := Generator.usualProbability
  output : Storage.Path := ⟨"."⟩
  /-- How many rows may be painted at a time, which no picture shows. -/
  threads : Option Nat := none
  format : Format := .text
  /-- Whether a progress bar takes the place of the report of each picture. -/
  progress : Bool := false

/-- The canvas of the pictures of a series. -/
def Series.canvas (options : Series) : Canvas :=
  .square options.size options.pixelsPerUnit

/-- The settings that the expressions of a series are grown by. -/
def Series.settings (options : Series) : Generator.Settings Float :=
  { Generator.Settings.usual with probability := options.probability }

/-- The options of a picture from a details file. -/
structure Repaint where
  details : Storage.Path
  /-- Width and height in pixels. -/
  size : UInt32 := Canvas.usual.width
  pixelsPerUnit : UInt32 := Canvas.usual.pixelsPerUnit
  output : Storage.Path := ⟨"."⟩
  index : Nat := 0
  /-- How many rows may be painted at a time, which no picture shows. -/
  threads : Option Nat := none
  /-- Whether a progress bar is shown while the picture is painted. -/
  progress : Bool := false

/-- The canvas of the picture. -/
def Repaint.canvas (options : Repaint) : Canvas :=
  .square options.size options.pixelsPerUnit

/-- What is to be done. -/
inductive Task where
  | series (options : Series)
  | repaint (options : Repaint)
  | check (texts : List String)

/-- A task, and how often more telling was asked for. -/
structure Request where
  task : Task
  verbosity : Nat

end TrigPainting.Command
