import TrigPainting.Decimal.Layout
import TrigPainting.Expr.Basic
import TrigPainting.Picture.Canvas
import TrigPainting.Storage.Path
import TrigPainting.Text.Plain

/-!
# Events

What commands report while they work, for those who ask for it.

## Main definitions

- `Level` — how much an event matters
- `Event` — what happened
- `Event.level`, `Event.target`, `Event.message` — its weight, place and wording
- `Event.line` — the line that tells of it
-/

namespace TrigPainting.Log

/-- How much an event matters, from errors down to traces. -/
inductive Level where
  | error
  | warn
  | info
  | debug
  | trace
deriving DecidableEq, Repr

namespace Level

/-- The levels, from errors down. -/
def all : List Level := [error, warn, info, debug, trace]

/-- The place of a level among all, from 1 for errors; 0 is for silence. -/
def rank : Level → Nat
  | error => 1
  | warn => 2
  | info => 3
  | debug => 4
  | trace => 5

/-- The name of a level. -/
def name : Level → String
  | error => "ERROR"
  | warn => "WARN"
  | info => "INFO"
  | debug => "DEBUG"
  | trace => "TRACE"

/-- The name of a level, filled up to the longest. -/
def column (level : Level) : String :=
  level.name ++ String.ofList (List.replicate (5 - level.name.length) ' ')

end Level

/-- What happened while a command worked. -/
inductive Event where
  /-- An expression was grown from a probability. -/
  | grown (probability : Float) (depth size : Nat)
  /-- A picture was painted. -/
  | painted (width height : UInt32)
  /-- A picture was written. -/
  | wrotePicture (path : Storage.Path)
  /-- A details file was written. -/
  | wroteDetails (path : Storage.Path)

namespace Event

/-- An expression was grown by given settings. -/
def ofExpr (probability : Float) (e : Expr) : Event :=
  grown probability e.depth e.size

/-- How much an event matters. -/
def level : Event → Level
  | grown .. => .debug
  | _ => .info

/-- The part of the program that an event comes from. -/
def target : Event → String
  | grown .. => "trigart::expr::generate"
  | painted .. => "trigart::raster"
  | wrotePicture .. => "trigart::raster"
  | wroteDetails .. => "trigart::output"

/-- The wording of an event; `seconds` is how long the work took. -/
def message (seconds : String) : Event → String
  | grown probability depth size =>
    "generated expression at p=" ++ Decimal.plain.write probability ++ ": depth " ++
      Decimal.naturalText depth ++ ", " ++ Decimal.naturalText size ++ " nodes"
  | painted width height =>
    "rendered " ++ sizeText width height ++ " image in " ++ seconds ++ "s"
  | wrotePicture path => "wrote " ++ path.text
  | wroteDetails path => "wrote " ++ path.text

/-- The line that tells of an event. A message of several lines goes on
indented, and control sequences are left out. -/
def line (seconds : String) (event : Event) : String :=
  let message := (event.message seconds).toList.flatMap fun c =>
    if c = '\n' then ['\n', ' ', ' ', ' ', ' '] else [c]
  let head := "[" ++ event.level.column ++ " " ++ event.target ++ "] "
  String.ofList (Text.plain (head.toList ++ message ++ ['\n']))

end Event

end TrigPainting.Log
