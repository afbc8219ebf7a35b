import TrigPainting.Text.Split

/-!
# Paths

A path is a text of names between slashes. Paths are extended by names and
otherwise kept as they were given, since their texts are shown to the user.

## Main definitions

- `Path.join` — a path extended by a name
- `Step`, `Path.steps` — the way that a path describes
- `Path.waypoints` — a path and the directories on its way
- `Path.endsInDirectory` — whether a path can only name a directory

## Design notes

Empty names and names of a single point lead nowhere, so they are no steps.

Paths are Unicode texts. Names of files that are no text are not described: such a
path would be shown with replacement characters.
-/

namespace TrigPainting.Storage

/-- A step on the way that a path describes. -/
inductive Step where
  /-- To the directory that holds the current one. -/
  | up
  /-- To an entry of the current directory. -/
  | down (name : String)
deriving DecidableEq, Repr

/-- The step to a name, if it leads anywhere. -/
def Step.ofName? (name : List Char) : Option Step :=
  match name with
  | [] => none
  | ['.'] => none
  | ['.', '.'] => some .up
  | name => some (.down (String.ofList name))

/-- A text of names between slashes. -/
structure Path where
  text : String
deriving DecidableEq, Repr

namespace Path

/-- A path extended by a name: a slash stands between them, unless the path is
empty or ends with one. -/
def join (path : Path) (name : String) : Path :=
  match path.text.toList.getLast? with
  | none => ⟨name⟩
  | some c => if c = '/' then ⟨path.text ++ name⟩ else ⟨path.text ++ "/" ++ name⟩

/-- The steps of a path, from its start. -/
def steps (path : Path) : List Step :=
  (Text.splitAt '/' path.text.toList).filterMap Step.ofName?

/-- The ways that a text leads through: the parts of it that end before a slash,
shortest first, and the text itself. -/
def prefixesFrom (before : List Char) : List Char → List (List Char)
  | [] => [before]
  | c :: rest =>
    let others := prefixesFrom (before ++ [c]) rest
    if c = '/' ∧ before ≠ [] then before :: others else others

/-- The paths of the directories on the way of a path, outermost first, and the
path itself. -/
def waypoints (path : Path) : List Path :=
  (prefixesFrom [] path.text.toList).map fun chars => ⟨String.ofList chars⟩

/-- Whether a path starts at the root. -/
def isAbsolute (path : Path) : Bool :=
  path.text.toList.head? == some '/'

/-- Whether a path can only name a directory: its text ends with a slash, or
with a point after a slash. -/
def endsInDirectory (path : Path) : Bool :=
  match (Text.splitAt '/' path.text.toList).reverse with
  | [] :: _ :: _ => true
  | ['.'] :: _ => true
  | _ => false

end Path

end TrigPainting.Storage
