import TrigPainting.Log.Filter
import TrigPainting.Storage.Save

/-!
# What comes of a command

## Main definitions

- `Surroundings` — what a command finds when it starts
- `Outcome` — what it leaves behind

## Design notes

How long the work took is known only when it is done, so the texts of an outcome
are functions of the seconds that are shown in them.
-/

namespace TrigPainting.Command

/-- What a command finds when it starts. -/
structure Surroundings where
  disk : Storage.Disk
  /-- Which events are told, if the user chose. -/
  chosenFilter : Option String
  /-- The seed that the clock gives. -/
  clockSeed : UInt64

/-- What a command leaves behind. -/
structure Outcome where
  exitCode : Nat
  /-- What is shown, given the seconds that the work took. -/
  shown : String → String
  events : List Log.Event
  /-- Why the command failed, if it did. -/
  failure : Option String
  disk : Storage.Disk

namespace Outcome

/-- A command that did its work. -/
def success (shown : String → String) (events : List Log.Event) (disk : Storage.Disk) : Outcome :=
  ⟨0, shown, events, none, disk⟩

/-- A command that failed. -/
def failed (message : String) (shown : String → String) (events : List Log.Event) (disk : Storage.Disk) :
    Outcome :=
  ⟨1, shown, events, some message, disk⟩

/-- A command that failed before it did anything. -/
def refused (message : String) (disk : Storage.Disk) : Outcome :=
  failed message (fun _ => "") [] disk

/-- The line of a failure. -/
def failureLine (message : String) : String :=
  "Error: " ++ message ++ "\n"

/-- What is told beside what is shown: warnings about the choice of events, the
events that the choice admits, and the failure. -/
def told (outcome : Outcome) (choice : String) (seconds : String) : String :=
  let (filter, warnings) := Log.Filter.parse choice
  let events := outcome.events.filter (filter.admits seconds)
  warnings ++ String.join (events.map (Log.Event.line seconds)) ++
    (outcome.failure.map failureLine).getD ""

end Outcome

/-- A time in seconds, with two decimals. -/
def secondsText (milliseconds : Nat) : String :=
  let hundredths := (milliseconds + 5) / 10
  Decimal.naturalText (hundredths / 100) ++ "." ++
    Decimal.naturalText (hundredths / 10 % 10) ++ Decimal.naturalText (hundredths % 10)

/-- The choice of events that a verbosity stands for. -/
def usualChoice : Nat → String
  | 0 => "warn"
  | 1 => "info"
  | _ => "debug"

end TrigPainting.Command
