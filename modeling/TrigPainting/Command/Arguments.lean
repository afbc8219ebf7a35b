import TrigPainting.Command.Options
import TrigPainting.Decimal.Numeral

/-!
# Reading arguments

Arguments name a command, its options and its operands. An option has a long
name after two dashes, and most have a letter after one. Its value is the next
argument, or follows the name after an equals sign, or the letter directly.
Letters may share a dash. After two dashes alone everything is an operand.

## Main definitions

- `Flag`, `Form` — the options of a command, and what may stand beside them
- `Given` — what was given on the command line
- `Request.ofArguments` — the request that arguments make
- `UsageError`, `UsageError.message` — why they make none

## Design notes

An argument that starts with a dash is never the value of an option in front of
it, unless it is the dash alone. Asking for more telling is allowed in front of
the command and after it; what is asked after it counts.

Arguments are judged from left to right. So help is given only to those who ask
for it before they make a mistake, and a value is refused where it stands.
-/

namespace TrigPainting.Command

/-- Why arguments make no request. -/
inductive UsageError where
  /-- Help was asked for. -/
  | help
  /-- The version was asked for. -/
  | version
  /-- No command was named. -/
  | noCommand
  | unknownCommand (name : String)
  | unknownOption (name : String)
  | repeatedOption (name : String)
  | missingValue (name : String)
  | unneededValue (name : String)
  | invalidValue (name value : String)
  | missingOperand
  | unexpectedOperand (operand : String)
deriving DecidableEq, Repr

/-- The wording of an error. -/
def UsageError.message : UsageError → String
  | help => "commands: generate, render DETAILS, validate EXPRS..."
  | version => "trigart 0.1.0"
  | noCommand => "error: a command is required"
  | unknownCommand name => "error: unrecognized command '" ++ name ++ "'"
  | unknownOption name => "error: unexpected argument '" ++ name ++ "'"
  | repeatedOption name => "error: the option '--" ++ name ++ "' cannot be used multiple times"
  | missingValue name => "error: a value is required for '--" ++ name ++ "'"
  | unneededValue name => "error: no value is allowed for '--" ++ name ++ "'"
  | invalidValue name value => "error: invalid value '" ++ value ++ "' for '" ++ name ++ "'"
  | missingOperand => "error: an argument is missing"
  | unexpectedOperand operand => "error: unexpected argument '" ++ operand ++ "'"

/-- Whether the arguments asked for a text instead of a command. -/
def UsageError.isQuestion : UsageError → Bool
  | help => true
  | version => true
  | _ => false

/-- The exit code of a program that was given such arguments. -/
def UsageError.exitCode (e : UsageError) : Nat :=
  if e.isQuestion then 0 else 2

/-- The names of an option, and the values that it may have, if it has one. -/
structure Flag where
  name : String
  letter : Option Char := none
  accepts : Option (List Char → Bool) := none

namespace Flag

/-- An option with a value that a reader makes sense of. -/
def ofReader {α : Type} (name : String) (letter : Option Char) (read? : List Char → Option α) :
    Flag :=
  ⟨name, letter, some fun text => (read? text).isSome⟩

end Flag

/-- What may stand behind a command. -/
structure Form where
  flags : List Flag
  /-- How many operands there may be, if their number is limited. -/
  most : Option Nat
  /-- The name of the operands. -/
  operand : String
  accepts : List Char → Bool

/-- What was given on the command line: options with values and without, and
operands. -/
structure Given where
  values : List (String × List Char) := []
  flags : List String := []
  verbosity : Nat := 0
  operands : List String := []

namespace Given

/-- Adds an option with its value, which may be given once. -/
def addValue (given : Given) (flag : Flag) (value : List Char) : Except UsageError Given :=
  if (given.values.lookup flag.name).isSome then .error (.repeatedOption flag.name)
  else if flag.accepts.any (· value) then
    .ok { given with values := (flag.name, value) :: given.values }
  else .error (.invalidValue flag.name (String.ofList value))

/-- Adds an operand, if there may be one more. -/
def addOperand (given : Given) (form : Form) (operand : String) : Except UsageError Given :=
  if form.most.any (· ≤ given.operands.length) then .error (.unexpectedOperand operand)
  else if form.accepts operand.toList then
    .ok { given with operands := given.operands ++ [operand] }
  else .error (.invalidValue form.operand operand)

/-- Adds an option without value. Only verbosity may be given more than once. -/
def addFlag (given : Given) (flag : Flag) : Except UsageError Given :=
  if flag.name = "verbose" then .ok { given with verbosity := given.verbosity + 1 }
  else if flag.name = "help" then .error .help
  else if flag.name = "version" then .error .version
  else if given.flags.contains flag.name then .error (.repeatedOption flag.name)
  else .ok { given with flags := flag.name :: given.flags }

/-- Reads the letters after a dash. The result names the option that still waits
for its value, if there is one. -/
def addLetters (given : Given) (flags : List Flag) :
    List Char → Except UsageError (Given × Option Flag)
  | [] => .ok (given, none)
  | c :: rest =>
    match flags.find? fun flag => flag.letter = some c with
    | none => .error (.unknownOption (String.ofList ['-', c]))
    | some flag =>
      if flag.accepts.isSome then
        match rest with
        | [] => .ok (given, some flag)
        | '=' :: value => (given.addValue flag value).map fun g => (g, none)
        | value => (given.addValue flag value).map fun g => (g, none)
      else
        match given.addFlag flag with
        | .ok given => given.addLetters flags rest
        | .error e => .error e

/-- Reads what stands after two dashes. The result names the option that still
waits for its value, if there is one. -/
def addLong (given : Given) (flags : List Flag) (text : List Char) :
    Except UsageError (Given × Option Flag) :=
  let name := String.ofList (text.takeWhile (· != '='))
  match flags.find? fun flag => flag.name = name, text.dropWhile (· != '=') with
  | none, _ => .error (.unknownOption ("--" ++ name))
  | some flag, [] =>
    if flag.accepts.isSome then .ok (given, some flag)
    else (given.addFlag flag).map fun g => (g, none)
  | some flag, _ :: value =>
    if flag.accepts.isSome then (given.addValue flag value).map fun g => (g, none)
    else .error (.unneededValue flag.name)

/-- Whether an argument is the name of an option and not a value. -/
def isOption (argument : String) : Bool :=
  match argument.toList with
  | '-' :: _ :: _ => true
  | _ => false

/-- Reads the arguments of a command. -/
def read (form : Form) (given : Given) (pending : Option Flag) :
    List String → Except UsageError Given
  | [] =>
    match pending with
    | none => .ok given
    | some flag => .error (.missingValue flag.name)
  | argument :: rest =>
    match pending with
    | some flag =>
      if isOption argument then .error (.missingValue flag.name)
      else
        match given.addValue flag argument.toList with
        | .ok given => read form given none rest
        | .error e => .error e
    | none =>
      let added :=
        match argument.toList with
        | '-' :: '-' :: name => given.addLong form.flags name
        | '-' :: letters => given.addLetters form.flags letters
        | _ => .ok (given, none)
      -- After two dashes alone everything is an operand.
      if argument = "--" then rest.foldlM (fun given => given.addOperand form) given
      else if isOption argument then
        match added with
        | .ok (given, pending) => read form given pending rest
        | .error e => .error e
      else
        match given.addOperand form argument with
        | .ok given => read form given none rest
        | .error e => .error e

/-- The value of an option by its reader, or the usual value. -/
def value {α : Type} (given : Given) (name : String) (usual : α) (read? : List Char → Option α) :
    α :=
  ((given.values.lookup name).bind read?).getD usual

end Given

/-- A word of 32 bits: a whole number with or without sign, in its range. -/
def readWord32? (text : List Char) : Option UInt32 :=
  match Decimal.readInteger? text with
  | some n => if 0 ≤ n ∧ n < 0x100000000 then some n.toNat.toUInt32 else none
  | none => none

/-- A word of 64 bits: a whole number without minus sign, in its range. -/
def readWord64? (text : List Char) : Option Nat :=
  match Decimal.readNatural? text with
  | some n => if n < UInt64.size then some n else none
  | none => none

/-- A path, which has a character at least. -/
def readPath? (text : List Char) : Option Storage.Path :=
  if text.isEmpty then none else some ⟨String.ofList text⟩

/-- The name of a format. -/
def readFormat? (text : List Char) : Option Format :=
  if text = "text".toList then some .text
  else if text = "json".toList then some .json
  else none

/-- The options that every command has. -/
def sharedFlags : List Flag :=
  [⟨"verbose", some 'v', none⟩, ⟨"help", some 'h', none⟩]

/-- The options that may stand in front of a command. -/
def leadingFlags : List Flag :=
  ⟨"version", some 'V', none⟩ :: sharedFlags

/-- The options of commands that paint. -/
def paintingFlags : List Flag :=
  [.ofReader "size" (some 's') readWord32?, .ofReader "pixels-per-unit" (some 'p') readWord32?,
    .ofReader "output" (some 'o') readPath?, .ofReader "threads" (some 'j') readWord64?,
    ⟨"progress", none, none⟩] ++ sharedFlags

/-- What may stand behind the command for a series. -/
def seriesForm : Form where
  flags :=
    [.ofReader "count" (some 'c') readWord64?, .ofReader "seed" none readWord64?,
      .ofReader "probability" none Decimal.readFloat?,
      .ofReader "format" (some 'f') readFormat?] ++ paintingFlags
  most := some 0
  operand := ""
  accepts _ := true

/-- What may stand behind the command for a picture from a details file. -/
def repaintForm : Form where
  flags := .ofReader "index" none readWord64? :: paintingFlags
  most := some 1
  operand := "details"
  accepts text := (readPath? text).isSome

/-- What may stand behind the command for a check. -/
def checkForm : Form where
  flags := sharedFlags
  most := none
  operand := "exprs"
  accepts _ := true

/-- The options of a series that was asked for. -/
def Series.ofGiven (given : Given) : Series :=
  let usual : Series := {}
  { size := given.value "size" usual.size readWord32?
    pixelsPerUnit := given.value "pixels-per-unit" usual.pixelsPerUnit readWord32?
    count := given.value "count" usual.count readWord64?
    seed := given.value "seed" none fun text => (readWord64? text).map (some ·.toUInt64)
    probability := given.value "probability" usual.probability Decimal.readFloat?
    output := given.value "output" usual.output readPath?
    threads := given.value "threads" none fun text => (readWord64? text).map some
    format := given.value "format" usual.format readFormat?
    progress := given.flags.contains "progress" }

/-- The options of a picture from a details file that was asked for. -/
def Repaint.ofGiven (given : Given) (details : Storage.Path) : Repaint :=
  let usual : Repaint := { details }
  { details
    size := given.value "size" usual.size readWord32?
    pixelsPerUnit := given.value "pixels-per-unit" usual.pixelsPerUnit readWord32?
    output := given.value "output" usual.output readPath?
    index := given.value "index" usual.index readWord64?
    threads := given.value "threads" none fun text => (readWord64? text).map some
    progress := given.flags.contains "progress" }

/-- The names of the commands. -/
def commandNames : List String := ["generate", "render", "validate", "help"]

/-- Why a request for help makes no request. Help is given for one command. -/
def helpError : List String → UsageError
  | [] => .help
  | name :: rest =>
    if !commandNames.contains name then .unknownCommand name
    else
      match rest with
      | [] => .help
      | other :: _ => .unknownCommand other

/-- The task that a command and what was given for it make, and how much telling
was asked for after the command. -/
def Task.ofArguments (name : String) (arguments : List String) :
    Except UsageError (Task × Nat) := do
  if name = "generate" then
    let given ← Given.read seriesForm {} none arguments
    return (.series (Series.ofGiven given), given.verbosity)
  else if name = "render" then
    let given ← Given.read repaintForm {} none arguments
    match given.operands with
    | [] => throw .missingOperand
    | details :: _ => return (.repaint (Repaint.ofGiven given ⟨details⟩), given.verbosity)
  else if name = "validate" then
    let given ← Given.read checkForm {} none arguments
    if given.operands.isEmpty then throw .missingOperand
    return (.check given.operands, given.verbosity)
  else if name = "help" then throw (helpError arguments)
  else throw (.unknownCommand name)

/-- The request that arguments make, given what stands in front of them. -/
def Request.ofArgumentsAfter (given : Given) : List String → Except UsageError Request
  | [] => .error .noCommand
  | argument :: rest =>
    let added :=
      match argument.toList with
      | '-' :: '-' :: name => given.addLong leadingFlags name
      | '-' :: letters => given.addLetters leadingFlags letters
      | _ => .ok (given, none)
    if Given.isOption argument then
      match added with
      | .ok (given, _) => Request.ofArgumentsAfter given rest
      | .error e => .error e
    else
      match Task.ofArguments argument rest with
      | .ok (task, 0) => .ok ⟨task, given.verbosity⟩
      | .ok (task, verbosity) => .ok ⟨task, verbosity⟩
      | .error e => .error e

/-- The request that arguments make. -/
def Request.ofArguments (arguments : List String) : Except UsageError Request :=
  Request.ofArgumentsAfter {} arguments

end TrigPainting.Command
