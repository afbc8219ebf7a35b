import TrigPainting.Log.Event
import TrigPainting.Regex.Meaning
import TrigPainting.Text.Split

/-!
# Choosing events

Which events are told is chosen by a list of directives, separated by commas. A
directive is a level, a part of the program, or both with an equals sign between
them; a part without a level is told of in full. Behind a slash may stand a
regular expression that has to occur in messages.

## Main definitions

- `Directive`, `Filter` — one choice, and all of them
- `Filter.parse` — the filter that a text describes, and what it makes no sense of
- `Filter.admits` — whether an event is told

## Design notes

The directive for the longest name decides. Without any directive only errors
are told. What makes no sense is left out, and the rest is kept.
-/

namespace TrigPainting.Log

/-- A choice for a part of the program, or for all of it: the rank of the least
level that is told. -/
structure Directive where
  name : Option String
  rank : Nat
deriving DecidableEq, Repr

/-- Which events are told. -/
structure Filter where
  directives : List Directive := []
  /-- What has to occur in messages. -/
  pattern : Option Regex.Pattern := none

/-- The rank that a word asks for, in letters of either case. -/
def rankOf? (word : String) : Option Nat :=
  let word := word.toUpper
  if word = "OFF" then some 0
  else (Level.all.find? fun level => level.name = word).map Level.rank

/-- The rank that tells everything. -/
def everything : Nat := Level.trace.rank

/-- The directive that a text describes, or the part of it that makes no sense. -/
def Directive.parse (text : List Char) : Except String Directive :=
  match Text.splitAt '=' text with
  | [single] =>
    let word := String.ofList single
    match rankOf? word with
    | some rank => .ok ⟨none, rank⟩
    | none => .ok ⟨some word, everything⟩
  | [name, level] =>
    let name := String.ofList name
    let level := String.ofList (Text.trim level)
    if level = "" then .ok ⟨some name, everything⟩
    else
      match rankOf? level with
      | some rank => .ok ⟨some name, rank⟩
      | none => .error level
  | _ => .error (String.ofList text)

namespace Filter

/-- A filter with one more directive, in place of an older one of that name. -/
def add (filter : Filter) (directive : Directive) : Filter :=
  if filter.directives.any fun old => old.name = directive.name then
    { filter with
      directives := filter.directives.map fun old =>
        if old.name = directive.name then directive else old }
  else { filter with directives := filter.directives ++ [directive] }

/-- The warning about a part of a choice that makes no sense. -/
def warning (details : String) : String :=
  "warning: " ++ details ++ ", ignoring it\n"

/-- What is said of a directive that makes no sense. -/
def invalid (text : String) : String :=
  "invalid logging spec '" ++ text ++ "'"

/-- Adds the directives that texts describe, and warns of those that make no
sense. -/
def addAll (filter : Filter) : List (List Char) → Filter × String
  | [] => (filter, "")
  | text :: others =>
    let text := Text.trim text
    if text.isEmpty then filter.addAll others
    else
      match Directive.parse text with
      | .ok directive => (filter.add directive).addAll others
      | .error details =>
        let (filter, warnings) := filter.addAll others
        (filter, warning (invalid details) ++ warnings)

/-- A filter for messages in which a regular expression occurs, or a warning. -/
def restrict (filter : Filter) (text : List Char) : Filter × String :=
  match Regex.Pattern.ofText text with
  | .ok pattern => ({ filter with pattern := some pattern }, "")
  | .error report => (filter, warning ("invalid regex filter - " ++ report))

/-- The filter that a text describes, and warnings of what makes no sense. -/
def parse (text : String) : Filter × String :=
  let nothing : Filter := {}
  match Text.splitAt '/' text.toList with
  | [] => (nothing, "")
  | [names] => nothing.addAll (Text.splitAt ',' names)
  | [names, pattern] =>
    let (filter, warnings) := nothing.addAll (Text.splitAt ',' names)
    let (filter, more) := filter.restrict pattern
    (filter, warnings ++ more)
  | _ => (nothing, warning (invalid text ++ " (too many '/'s)"))

/-- The directive that decides for a part of the program: the last of those with
the longest name that the part's name starts with. -/
def decisive? (filter : Filter) (target : String) : Option Directive :=
  let length (d : Directive) : Nat := (d.name.map String.utf8ByteSize).getD 0
  let fitting := filter.directives.filter fun d =>
    (d.name.map fun name => name.toList.isPrefixOf target.toList).getD true
  fitting.foldl (fun best d =>
    match best with
    | none => some d
    | some b => if length b ≤ length d then some d else some b) none

/-- Whether an event is told. -/
def admits (filter : Filter) (seconds : String) (event : Event) : Bool :=
  let rank :=
    if filter.directives.isEmpty then Level.error.rank
    else ((filter.decisive? event.target).map Directive.rank).getD 0
  decide (event.level.rank ≤ rank) &&
    match filter.pattern with
    | none => true
    | some pattern => pattern.occursIn (event.message seconds).toList

end Filter

end TrigPainting.Log
