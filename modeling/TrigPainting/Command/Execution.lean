import TrigPainting.Command.Arguments
import TrigPainting.Command.Check
import TrigPainting.Command.Painting

/-!
# Carrying out requests

## Main definitions

- `Task.paths` — the files and directories that a task has to do with
- `Task.run`, `Request.run` — what comes of a task and of a request
- `Request.told` — what is told of an outcome beside what is shown
-/

namespace TrigPainting.Command

/-- The paths that a task reads and writes. What a task reads may show that it
writes more. -/
def Task.paths (surroundings : Surroundings) : Task → List Storage.Path
  | series options => options.paths surroundings.clockSeed
  | repaint options => options.paths surroundings.disk
  | check _ => []

/-- Carries out a task. -/
def Task.run (surroundings : Surroundings) : Task → Outcome
  | series options => Command.series options surroundings
  | repaint options => Command.repaint options surroundings.disk
  | check texts => Command.check texts surroundings.disk

/-- Carries out a request. -/
def Request.run (request : Request) (surroundings : Surroundings) : Outcome :=
  request.task.run surroundings

/-- What is told of an outcome: what the user chose, or else what the verbosity
asks for. -/
def Request.told (request : Request) (surroundings : Surroundings) (outcome : Outcome)
    (seconds : String) : String :=
  outcome.told (surroundings.chosenFilter.getD (usualChoice request.verbosity)) seconds

end TrigPainting.Command
