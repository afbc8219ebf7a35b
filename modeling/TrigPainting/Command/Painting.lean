import TrigPainting.Command.Outcome
import TrigPainting.Command.Report
import TrigPainting.Palette.Random

/-!
# Painting pictures

A series of random pictures is drawn, painted and saved picture by picture. A
picture may also be painted from a details file.

## Main definitions

- `Run` — how far a series has come
- `Run.saving`, `Run.picture`, `Run.pictures` — one more picture, and several
- `Series.run`, `Run.outcome` — the run of a series, and what comes of it
- `series`, `repaint` — the commands

## Design notes

The random source is passed from palette to palette, and nothing but the growth
of expressions draws from it. A series ends at the first picture that cannot be
saved.
-/

namespace TrigPainting.Command

/-- How far a series has come. -/
structure Run where
  /-- The state of the random source. -/
  source : Xoshiro
  disk : Storage.Disk
  events : List Log.Event
  /-- The pictures that were saved, the last one first. -/
  reports : List Report
  /-- Why the series ended, if it did not come to its end. -/
  failure : Option SaveError

namespace Run

/-- Nothing has been painted. -/
def start (seed : UInt64) (disk : Storage.Disk) : Run :=
  ⟨Xoshiro.ofSeed seed, disk, [], [], none⟩

/-- The next palette of a series, and the state of the source after it. -/
def palette (run : Run) (options : Series) : Palette × Xoshiro :=
  Palette.draw .binary64 Xoshiro.source options.settings run.source

/-- What comes of saving the next picture of a series, as that of an index. -/
def saving (run : Run) (options : Series) (index : Nat) : Storage.Saving :=
  Storage.save run.disk options.output index (run.palette options).1
    ((run.palette options).1.picture options.canvas)

/-- Draws, paints and saves the picture of an index. -/
def picture (run : Run) (options : Series) (index : Nat) : Run :=
  let (palette, source) := run.palette options
  let saving := run.saving options index
  let grown := Channel.all.map fun c => Log.Event.ofExpr options.probability (palette.get c)
  let events := run.events ++ grown ++
    [.painted options.canvas.width options.canvas.height] ++ saving.events
  match saving.result with
  | .ok saved => ⟨source, saving.disk, events, ⟨index, saved, palette⟩ :: run.reports, none⟩
  | .error e => ⟨source, saving.disk, events, run.reports, some e⟩

section

variable (run : Run) (options : Series) (index : Nat)

theorem picture_source : (run.picture options index).source = (run.palette options).2 := by
  simp only [picture]
  cases (run.saving options index).result <;> rfl

theorem picture_disk : (run.picture options index).disk = (run.saving options index).disk := by
  simp only [picture]
  cases (run.saving options index).result <;> rfl

/-- One more picture is reported, or it ends the series. -/
theorem picture_result :
    match (run.saving options index).result with
    | .ok saved =>
      (run.picture options index).failure = none ∧
        (run.picture options index).reports =
          ⟨index, saved, (run.palette options).1⟩ :: run.reports
    | .error e =>
      (run.picture options index).failure = some e ∧
        (run.picture options index).reports = run.reports := by
  simp only [picture]
  cases (run.saving options index).result <;> exact ⟨rfl, rfl⟩

end

/-- The pictures of `more` indices from `index` on, up to the first that cannot
be saved. -/
def pictures (run : Run) (options : Series) (index : Nat) : Nat → Run
  | 0 => run
  | more + 1 =>
    let next := run.picture options index
    match next.failure with
    | none => next.pictures options (index + 1) more
    | some _ => next

end Run

/-- The line in front of a picture of a series. -/
def startLine (options : Series) (index : Nat) : String :=
  "Processing image " ++ Decimal.naturalText (index + 1) ++ "/" ++ Decimal.naturalText options.count ++ "...\n"

/-- The last line of a series. -/
def endLine (options : Series) (seed : UInt64) (seconds : String) : String :=
  "\nFinished processing " ++ Decimal.naturalText options.count ++ " images in " ++ seconds ++
    "s (seed: " ++ Decimal.naturalText seed.toNat ++ ").\n"

/-- What is shown of the pictures of a series while they are painted. -/
def Run.shown (run : Run) (options : Series) : String :=
  if options.format = .text ∧ options.progress = false then
    let reports := run.reports.reverse.map fun r => startLine options r.index ++ r.text
    String.join reports ++
      if run.failure.isSome then startLine options run.reports.length else ""
  else ""

/-- What is shown of a series after its pictures. -/
def Run.summary (run : Run) (options : Series) (seed : UInt64) (seconds : String) : String :=
  match options.format with
  | .text => endLine options seed seconds
  | .json => (seriesJson seed options run.reports.reverse).pretty ++ "\n"

/-- The first reason why a series cannot be painted, if there is one. -/
def Series.check (options : Series) : Except ConfigError Unit :=
  match options.canvas.check with
  | .error e => .error e
  | .ok () =>
    if options.settings.valid .binary64 then .ok ()
    else .error (.probability options.probability)

/-- The palettes of a series of `count` pictures, drawn one after the other. -/
def Series.palettes (options : Series) : Nat → Xoshiro → List Palette
  | 0, _ => []
  | count + 1, source =>
    let (palette, source) := Palette.draw .binary64 Xoshiro.source options.settings source
    palette :: options.palettes count source

/-- The paths that a series writes to. -/
def Series.paths (options : Series) (clockSeed : UInt64) : List Storage.Path :=
  let source := Xoshiro.ofSeed (options.seed.getD clockSeed)
  (options.palettes options.count source).zipIdx.flatMap fun (palette, index) =>
    (Storage.savedImage options.output index palette).paths

/-- The paths that painting from a details file reads and writes. -/
def Repaint.paths (options : Repaint) (disk : Storage.Disk) : List Storage.Path :=
  options.details ::
    match Storage.readDetails disk options.details with
    | .ok palette => (Storage.savedImage options.output options.index palette).paths
    | .error _ => []

/-- The seed that a series starts from. -/
def Series.startSeed (options : Series) (surroundings : Surroundings) : UInt64 :=
  options.seed.getD surroundings.clockSeed

/-- The run of a series. -/
def Series.run (options : Series) (surroundings : Surroundings) : Run :=
  (Run.start (options.startSeed surroundings) surroundings.disk).pictures options 0 options.count

/-- What comes of the run of a series. -/
def Run.outcome (run : Run) (options : Series) (seed : UInt64) : Outcome :=
  match run.failure with
  | none =>
    .success (fun seconds => run.shown options ++ run.summary options seed seconds)
      run.events run.disk
  | some e => .failed e.message (fun _ => run.shown options) run.events run.disk

/-- Paints a series of random pictures. -/
def series (options : Series) (surroundings : Surroundings) : Outcome :=
  match options.check with
  | .error e => .refused e.message surroundings.disk
  | .ok () => (options.run surroundings).outcome options (options.startSeed surroundings)

section

variable {options : Series} {surroundings : Surroundings}

theorem series_of_check_eq_ok (h : options.check = .ok ()) : series options surroundings =
    (options.run surroundings).outcome options (options.startSeed surroundings) := by
  rw [series, h]

theorem series_of_check_eq_error {e : ConfigError} (h : options.check = .error e) :
    series options surroundings = .refused e.message surroundings.disk := by
  rw [series, h]

end

/-- What comes of saving the picture of a palette that was read. -/
def Repaint.saving (options : Repaint) (disk : Storage.Disk) (palette : Palette) :
    Storage.Saving :=
  Storage.save disk options.output options.index palette (palette.picture options.canvas)

/-- What comes of painting a palette that was read. -/
def Repaint.outcome (options : Repaint) (disk : Storage.Disk) (palette : Palette) : Outcome :=
  let start := "Processing image from " ++ options.details.text ++ "...\n"
  let saving := options.saving disk palette
  let events := .painted options.canvas.width options.canvas.height :: saving.events
  match saving.result with
  | .ok saved =>
    let report : Report := ⟨options.index, saved, palette⟩
    .success (fun _ => start ++ report.text ++ "Finished processing image.\n")
      events saving.disk
  | .error e => .failed e.message (fun _ => start) events saving.disk

/-- Paints the picture that a details file describes. -/
def repaint (options : Repaint) (disk : Storage.Disk) : Outcome :=
  match options.canvas.check with
  | .error e => .refused e.message disk
  | .ok () =>
    match Storage.readDetails disk options.details with
    | .error e =>
      .refused ("Failed to load " ++ options.details.text ++ ": " ++ e.message) disk
    | .ok palette => options.outcome disk palette

section

variable {options : Repaint} {disk : Storage.Disk} {palette : Palette}

theorem Repaint.outcome_disk : (options.outcome disk palette).disk =
    (options.saving disk palette).disk := by
  rw [outcome]
  cases (options.saving disk palette).result <;> rfl

theorem Repaint.outcome_exitCode_eq_zero_iff : (options.outcome disk palette).exitCode = 0 ↔
    ∃ saved, (options.saving disk palette).result = .ok saved := by
  rw [outcome]
  cases (options.saving disk palette).result <;> simp [Outcome.success, Outcome.failed]

theorem repaint_of_check_eq_error {e : ConfigError} (h : options.canvas.check = .error e) :
    repaint options disk = .refused e.message disk := by
  rw [repaint, h]

theorem repaint_of_readDetails_eq_error {e : PaletteError} (hcheck : options.canvas.check = .ok ())
    (hread : Storage.readDetails disk options.details = .error e) :
    repaint options disk =
      .refused ("Failed to load " ++ options.details.text ++ ": " ++ e.message) disk := by
  simp only [repaint, hcheck, hread]

/-- Painting from a details file is saving the picture of the palette that it holds. -/
theorem repaint_of_readDetails (hcheck : options.canvas.check = .ok ())
    (hread : Storage.readDetails disk options.details = .ok palette) :
    repaint options disk = options.outcome disk palette := by
  simp only [repaint, hcheck, hread]

end

end TrigPainting.Command
