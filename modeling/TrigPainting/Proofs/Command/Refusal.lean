import TrigPainting.Command.Execution

/-!
# Commands that are refused

A command checks its canvas first, then the probability or the details file, and does nothing
before all of that is in order. So the first fault is told and nothing else has happened: no
line was shown, no file was touched, nothing was drawn.

## Main definitions

- `CanvasFault`, `FirstFault` — the first check that fails, and what is told of it
- `Faulty` — some check fails

## Main statements

- `run_of_firstFault` — a command with a fault is refused
- `rejected_without_effect` — what is left of it
-/

namespace TrigPainting.Command

open Storage

/-- The first fault of a canvas, and what is told of it. -/
inductive CanvasFault (c : Canvas) : String → Prop
  | empty (h : c.width = 0 ∨ c.height = 0) :
      CanvasFault c ("canvas must be at least 1x1 pixels, got " ++ sizeText c.width c.height)
  | noScale (hsize : ¬ (c.width = 0 ∨ c.height = 0)) (h : c.pixelsPerUnit = 0) :
      CanvasFault c "pixels per unit must be positive"

/-- **The first fault** of a task on a disk, and what is told of it. -/
inductive FirstFault (disk : Disk) : Task → String → Prop
  | seriesCanvas {options : Series} {message : String} (h : CanvasFault options.canvas message) :
      FirstFault disk (.series options) message
  | probability {options : Series} (hcanvas : ∀ message, ¬ CanvasFault options.canvas message)
      (h : ¬ (0 ≤ options.probability ∧ options.probability < 1)) :
      FirstFault disk (.series options)
        ("probability must be within [0, 1), got " ++ Decimal.plain.write options.probability)
  | repaintCanvas {options : Repaint} {message : String} (h : CanvasFault options.canvas message) :
      FirstFault disk (.repaint options) message
  | unreadable {options : Repaint} {cause : Failure}
      (hcanvas : ∀ message, ¬ CanvasFault options.canvas message)
      (h : disk.readText options.details = .error cause) :
      FirstFault disk (.repaint options)
        ("Failed to load " ++ options.details.text ++ ": " ++ ("details file I/O: " ++ cause.message))
  | noPalette {options : Repaint} {text : String} {cause : PaletteError}
      (hcanvas : ∀ message, ¬ CanvasFault options.canvas message)
      (hread : disk.readText options.details = .ok text)
      (h : Palette.ofDetails text = .error cause) :
      FirstFault disk (.repaint options)
        ("Failed to load " ++ options.details.text ++ ": " ++ cause.message)

/-- Some check of a task fails. -/
def Faulty (disk : Disk) : Task → Prop
  | .series options =>
    options.size = 0 ∨ options.pixelsPerUnit = 0 ∨
      ¬ (0 ≤ options.probability ∧ options.probability < 1)
  | .repaint options =>
    options.size = 0 ∨ options.pixelsPerUnit = 0 ∨
      ∀ text p, disk.readText options.details = .ok text → Palette.ofDetails text ≠ .ok p
  | .check _ => False

variable {canvas : Canvas} {disk : Disk} {around : Surroundings} {task : Task} {message : String}

-- ════════════════════════════════════════════════════════════════════════
-- The checks
-- ════════════════════════════════════════════════════════════════════════

theorem check_of_canvasFault (h : CanvasFault canvas message) :
    ∃ e, canvas.check = .error e ∧ e.message = message := by
  cases h with
  | empty h => exact ⟨_, if_pos h, rfl⟩
  | noScale hsize h => exact ⟨_, (if_neg hsize).trans (if_pos h), rfl⟩

theorem check_of_not_canvasFault (h : ∀ message, ¬ CanvasFault canvas message) :
    canvas.check = .ok () := by
  have hsize : ¬ (canvas.width = 0 ∨ canvas.height = 0) := fun hempty => h _ (.empty hempty)
  have hscale : canvas.pixelsPerUnit ≠ 0 := fun hzero => h _ (.noScale hsize hzero)
  exact (if_neg hsize).trans (if_neg hscale)

theorem exists_canvasFault_iff (size pixelsPerUnit : UInt32) :
    (∃ message, CanvasFault (.square size pixelsPerUnit) message) ↔
      size = 0 ∨ pixelsPerUnit = 0 := by
  constructor
  · rintro ⟨_, ⟨hempty⟩ | ⟨_, hscale⟩⟩
    · exact .inl (or_self_iff.mp hempty)
    · exact .inr hscale
  · rintro (hsize | hscale)
    · exact ⟨_, .empty (.inl hsize)⟩
    · by_cases hsize : size = 0
      · exact ⟨_, .empty (.inl hsize)⟩
      · exact ⟨_, .noScale (fun hempty => hsize (or_self_iff.mp hempty)) hscale⟩

theorem valid_binary64_iff (settings : Generator.Settings Float) :
    settings.valid .binary64 = true ↔ 0 ≤ settings.probability ∧ settings.probability < 1 := by
  simp [Generator.Settings.valid, Odds.binary64]

/-- **A command with a fault is refused** with what is told of its first fault. -/
theorem run_of_firstFault (h : FirstFault around.disk task message) :
    task.run around = .refused message around.disk := by
  cases h with
  | @seriesCanvas options _ h =>
    obtain ⟨e, hcheck, rfl⟩ := check_of_canvasFault h
    refine series_of_check_eq_error ?_
    rw [Series.check, hcheck]
  | @probability options hcanvas h =>
    have hinvalid : ¬ options.settings.valid .binary64 = true :=
      fun hvalid => h ((valid_binary64_iff options.settings).mp hvalid)
    refine series_of_check_eq_error (e := .probability options.probability) ?_
    rw [Series.check, check_of_not_canvasFault hcanvas]
    exact if_neg hinvalid
  | repaintCanvas h =>
    obtain ⟨e, hcheck, rfl⟩ := check_of_canvasFault h
    exact repaint_of_check_eq_error hcheck
  | @unreadable options cause hcanvas h =>
    refine repaint_of_readDetails_eq_error (check_of_not_canvasFault hcanvas) (e := .file cause) ?_
    rw [readDetails, h]
  | noPalette hcanvas hread h =>
    refine repaint_of_readDetails_eq_error (check_of_not_canvasFault hcanvas) ?_
    rw [readDetails, hread]
    exact h

theorem faulty_iff (disk : Disk) (task : Task) :
    Faulty disk task ↔ ∃ message, FirstFault disk task message := by
  cases task with
  | series options =>
    rw [Faulty, ← or_assoc, ← exists_canvasFault_iff]
    constructor
    · intro h
      by_cases hcanvas : ∃ message, CanvasFault options.canvas message
      · obtain ⟨message, hfault⟩ := hcanvas
        exact ⟨message, .seriesCanvas hfault⟩
      · exact ⟨_, .probability (not_exists.mp hcanvas) (h.resolve_left hcanvas)⟩
    · rintro ⟨message, h | ⟨_, h⟩⟩
      · exact .inl ⟨message, h⟩
      · exact .inr h
  | repaint options =>
    rw [Faulty, ← or_assoc, ← exists_canvasFault_iff]
    constructor
    · intro h
      by_cases hcanvas : ∃ message, CanvasFault options.canvas message
      · obtain ⟨message, hfault⟩ := hcanvas
        exact ⟨message, .repaintCanvas hfault⟩
      · have hdetails := h.resolve_left hcanvas
        cases hread : disk.readText options.details with
        | error cause => exact ⟨_, .unreadable (not_exists.mp hcanvas) hread⟩
        | ok text =>
          cases hpalette : Palette.ofDetails text with
          | error cause => exact ⟨_, .noPalette (not_exists.mp hcanvas) hread hpalette⟩
          | ok p => exact absurd hpalette (hdetails text p hread)
    · rintro ⟨message, _ | _ | h | ⟨_, h⟩ | ⟨_, hread, h⟩⟩
      · exact .inl ⟨message, h⟩
      · exact .inr fun text p hread => by simp [h] at hread
      · refine .inr fun text p hread' hpalette => ?_
        rw [hread] at hread'
        cases hread'
        rw [h] at hpalette
        cases hpalette
  | check texts => exact ⟨False.elim, nofun⟩

/-- What is told of a command that was refused: nothing but warnings about the choice of
events stands in front of the failure. -/
theorem told_refused (request : Request) (around : Surroundings) (message seconds : String) :
    request.told around (.refused message around.disk) seconds =
      (Log.Filter.parse (around.chosenFilter.getD (usualChoice request.verbosity))).2 ++
        ("Error: " ++ message ++ "\n") := by
  simp [Request.told, Outcome.told, Outcome.refused, Outcome.failed, Outcome.failureLine]

-- ════════════════════════════════════════════════════════════════════════
-- Expressions and palettes
-- ════════════════════════════════════════════════════════════════════════

/-- Settings are checked before anything is drawn. -/
theorem guarded_cases {α β σ : Type} (valid : Bool) (drawn : β × σ) (p : α) (s : σ) :
    let result : Except α β × σ :=
      if valid then
        let (value, t) := drawn
        (.ok value, t)
      else (.error p, s)
    ((∃ e, result.1 = .error e) ↔ ¬ valid = true) ∧ (¬ valid = true → result = (.error p, s)) := by
  cases valid <;> simp

/-- **What is rejected has no effect.** If a check of a command fails, the message of the first
one that does is told, the exit code is 1, nothing is shown, and the disk is as it was. Growing
an expression or a palette fails if the probability does not lie in `[0, 1)`, and only then, and
has drawn nothing. -/
theorem rejected_without_effect :
    (∀ (request : Request) (around : Surroundings),
      (Faulty around.disk request.task ↔ ∃ message, FirstFault around.disk request.task message) ∧
      ∀ message, FirstFault around.disk request.task message →
        let outcome := request.run around
        outcome.exitCode = 1 ∧ (∀ seconds, outcome.shown seconds = "") ∧
          outcome.disk = around.disk ∧
          ∀ seconds, request.told around outcome seconds =
            (Log.Filter.parse (around.chosenFilter.getD (usualChoice request.verbosity))).2 ++
              ("Error: " ++ message ++ "\n")) ∧
    ∀ {σ : Type} (source : Source Float σ) (settings : Generator.Settings Float) (s : σ),
      let inRange := 0 ≤ settings.probability ∧ settings.probability < 1
      let grown := Generator.expression .binary64 source settings s
      let palette := Palette.random .binary64 source settings s
      ((∃ e, grown.1 = .error e) ↔ ¬ inRange) ∧ ((∃ e, palette.1 = .error e) ↔ ¬ inRange) ∧
        (¬ inRange → grown = (.error settings.probability, s) ∧
          palette = (.error settings.probability, s)) := by
  refine ⟨fun request around => ⟨faulty_iff _ _, fun message h => ?_⟩, ?_⟩
  · have hrun : request.run around = .refused message around.disk := run_of_firstFault h
    intro outcome
    simp only [outcome, hrun]
    exact ⟨rfl, fun _ => rfl, rfl, told_refused request around message⟩
  · intro σ source settings s inRange grown palette
    have hvalid : settings.valid .binary64 = true ↔ inRange := valid_binary64_iff settings
    obtain ⟨hgrown, hunchanged⟩ := guarded_cases (settings.valid .binary64)
      (Generator.draw .binary64 source settings s) settings.probability s
    obtain ⟨hpalette, hunchanged'⟩ := guarded_cases (settings.valid .binary64)
      (Palette.draw .binary64 source settings s) settings.probability s
    refine ⟨hgrown.trans (not_congr hvalid), hpalette.trans (not_congr hvalid), fun h => ?_⟩
    have hinvalid := mt hvalid.mp h
    exact ⟨hunchanged hinvalid, hunchanged' hinvalid⟩

/-- A probability of one, and a details file that is not there. -/
theorem rejected_without_effect_of_one_of_missing :
    let around : Surroundings := ⟨⟨.empty, []⟩, none, 0⟩
    let request : Request := ⟨.series { probability := 1 }, 0⟩
    let request' : Request := ⟨.repaint { details := ⟨"gone.txt"⟩ }, 0⟩
    FirstFault around.disk request.task
        ("probability must be within [0, 1), got " ++ Decimal.plain.write 1) ∧
      (request.run around).exitCode = 1 ∧ (request.run around).disk = around.disk ∧
      FirstFault around.disk request'.task
        "Failed to load gone.txt: details file I/O: No such file or directory (os error 2)" ∧
      request'.told around (request'.run around) "0.00" =
        "Error: Failed to load gone.txt: details file I/O: No such file or directory (os error 2)\n" ∧
      ¬ (0 ≤ (1 : Float) ∧ (1 : Float) < 1) ∧
      Generator.expression .binary64 Xoshiro.source ⟨1, none⟩ (.ofSeed 7) =
        (.error 1, .ofSeed 7) := by
  intro around request request'
  obtain ⟨hcommands, hgrowing⟩ := rejected_without_effect
  have hcanvas : ∀ message, ¬ CanvasFault (.square 2048 256) message :=
    not_exists.mp (mt (exists_canvasFault_iff _ _).mp (by decide))
  have hone : ¬ (0 ≤ (1 : Float) ∧ (1 : Float) < 1) := by decide +kernel
  have hfault : FirstFault around.disk request.task
      ("probability must be within [0, 1), got " ++ Decimal.plain.write 1) :=
    .probability hcanvas hone
  have hread : around.disk.readText ⟨"gone.txt"⟩ = .error .notFound := by rfl
  have hmissing : FirstFault around.disk request'.task
      "Failed to load gone.txt: details file I/O: No such file or directory (os error 2)" :=
    @FirstFault.unreadable around.disk { details := ⟨"gone.txt"⟩ } .notFound hcanvas hread
  obtain ⟨hexit, -, hdisk, -⟩ := (hcommands request around).2 _ hfault
  obtain ⟨-, -, -, htold⟩ := (hcommands request' around).2 _ hmissing
  obtain ⟨-, -, hdrawn⟩ := hgrowing Xoshiro.source ⟨1, none⟩ (.ofSeed 7)
  exact ⟨hfault, hexit, hdisk, hmissing, (htold "0.00").trans (by decide +kernel), hone,
    (hdrawn hone).1⟩

end TrigPainting.Command
