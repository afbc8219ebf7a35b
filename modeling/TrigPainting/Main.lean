import TrigPainting.Command.Execution
import TrigPainting.Picture.Png

/-!
# The program

What lies at the paths that a task has to do with is read from the machine, the
task is carried out on it, and what has changed is written back.
-/

namespace TrigPainting.Program

/-- What lies at a path of the machine. -/
def probe (path : Storage.Path) : IO (Option Storage.Entry) := do
  try
    return some (.bytes (← IO.FS.readBinFile path.text))
  catch
    | .inappropriateType _ 21 _ => return some .directory
    | _ => return none

/-- A place for the working directory, below directories that are not known. -/
def here : Storage.Location := List.replicate 256 "unknown"

/-- A disk that knows only the working directory and those above it. -/
def unknownDisk : Storage.Disk :=
  ⟨(List.range 256).foldl (fun tree n => tree.put (here.drop n) .directory) .empty, here⟩

/-- Adds what lies at a path of the machine to a disk. -/
def survey (disk : Storage.Disk) (path : Storage.Path) : IO Storage.Disk := do
  match disk.find path, ← probe path with
  | .ok (place, none), some entry => return { disk with tree := disk.tree.put place entry }
  | _, _ => return disk

/-- The disk with what lies at and on the way to the paths of a task. -/
def surveyTask (task : Command.Task) (surroundings : Command.Surroundings) :
    IO Command.Surroundings := do
  let paths := (task.paths surroundings).flatMap Storage.Path.waypoints
  return { surroundings with disk := ← paths.foldlM survey surroundings.disk }

/-- The bytes of a file. -/
def contents : Storage.Entry → ByteArray
  | .directory => .empty
  | .text content => content.toUTF8
  | .picture content => content.png
  | .bytes content => content

/-- Writes back what lies at a path, if a task put it there. -/
def settle (before after : Storage.Disk) (path : Storage.Path) : IO Unit := do
  match before.find path, after.find path with
  | .ok (_, some .directory), _ => pure ()
  | _, .ok (_, some .directory) => IO.FS.createDirAll path.text
  | _, .ok (_, some (.bytes _)) => pure ()
  | _, .ok (_, some file) => IO.FS.writeBinFile path.text (contents file)
  | _, _ => pure ()

/-- Carries out a request on the machine. -/
def perform (request : Command.Request) : IO UInt32 := do
  let start ← IO.monoMsNow
  let chosen ← IO.getEnv "RUST_LOG"
  let seed := (← IO.monoNanosNow).toUInt64
  let surroundings ← surveyTask request.task ⟨unknownDisk, chosen, seed⟩
  -- A details file that has been found shows where its picture goes.
  let surroundings ← surveyTask request.task surroundings
  let outcome := request.run surroundings
  for path in request.task.paths surroundings do
    settle surroundings.disk outcome.disk path
  let seconds := Command.secondsText ((← IO.monoMsNow) - start)
  IO.eprint (request.told surroundings outcome seconds)
  IO.print (outcome.shown seconds)
  return outcome.exitCode.toUInt32

end TrigPainting.Program

/-- Carries out the request that the arguments make. -/
def main (arguments : List String) : IO UInt32 :=
  match TrigPainting.Command.Request.ofArguments arguments with
  | .ok request => TrigPainting.Program.perform request
  | .error e => do
    if e.isQuestion then IO.println e.message else IO.eprintln e.message
    return e.exitCode.toUInt32
