import TrigPainting.Proofs.Command.Series
import TrigPainting.Proofs.Palette.RoundTrip

/-!
# How far a series comes

A series is the sequence of its saves. The palettes are drawn one after the other, each picture
is saved on the disk that the saves before it have left, and the first save that fails ends the
series. What is reported are the pictures before it, and what lies below the directories of later
indices is as it was, but for directories that the path of the output directory itself comes to.

## Main definitions

- `Series.saving`, `Series.diskAfter` — the saves of a series, without the series
- `Series.Saves` — a number of them succeed
- `Reached`, `Halted` — what is true of a run that has come to an index, or ends with it
- `entry`, `listing` — how a picture is reported

## Main statements

- `Reached.picture`, `Reached.pictures` — one more picture, and several
- `diskAfter_touches` — what the saves of a series leave alone
- `series_follows_saves` — a series that comes to its end, and one that does not
-/

namespace TrigPainting.Command

open Storage

/-- What comes of saving the picture that is painted after `n` others. -/
def Series.save (options : Series) (seed : UInt64) (disk : Disk) (n : Nat) : Saving :=
  let palette := paletteAfter options.settings seed n
  Storage.save disk options.output n palette (palette.picture options.canvas)

/-- The disk after the first `n` pictures have been saved, one after the other. -/
def Series.diskAfter (options : Series) (seed : UInt64) (disk : Disk) : Nat → Disk
  | 0 => disk
  | n + 1 => (options.save seed (options.diskAfter seed disk n) n).disk

/-- What comes of saving a picture on the disk that the saves before it have left. -/
def Series.saving (options : Series) (seed : UInt64) (disk : Disk) (n : Nat) : Saving :=
  options.save seed (options.diskAfter seed disk n) n

/-- The first `n` saves of a series succeed. -/
def Series.Saves (options : Series) (seed : UInt64) (disk : Disk) (n : Nat) : Prop :=
  ∀ i < n, ∃ saved, (options.saving seed disk i).result = .ok saved

/-- **A run has come to an index**: the pictures before it have been drawn, reported and saved. -/
structure Reached (options : Series) (seed : UInt64) (before : Disk) (n : Nat) (run : Run) : Prop
    extends Painted options seed n run where
  disk : run.disk = options.diskAfter seed before n
  saves : options.Saves seed before n
  goes : run.failure = none

/-- **A run ends with an index**: the pictures before it have been saved, and this one not. -/
structure Halted (options : Series) (seed : UInt64) (before : Disk) (n : Nat) (e : SaveError)
    (run : Run) : Prop where
  reports : run.reports.reverse = (List.range n).map (options.report seed)
  stored : ∀ i < n, ∃ base, Stored run.disk options.output i
    (paletteAfter options.settings seed i)
    ((paletteAfter options.settings seed i).picture options.canvas) base
  disk : run.disk = options.diskAfter seed before (n + 1)
  saves : options.Saves seed before n
  fails : (options.saving seed before n).result = .error e
  failure : run.failure = some e

variable {options : Series} {seed : UInt64} {disk : Disk} {run : Run} {n : Nat} {e : SaveError}

-- ════════════════════════════════════════════════════════════════════════
-- The run of a series
-- ════════════════════════════════════════════════════════════════════════

theorem reached_start (options : Series) (seed : UInt64) (disk : Disk) :
    Reached options seed disk 0 (Run.start seed disk) where
  toPainted := painted_start options seed disk
  disk := rfl
  saves := nofun
  goes := rfl

theorem Run.picture_of_failure_eq_some (h : (run.picture options n).failure = some e) :
    (run.saving options n).result = .error e ∧
      (run.picture options n).reports = run.reports := by
  have hresult := run.picture_result options n
  cases hsaved : (run.saving options n).result with
  | ok saved =>
    rw [hsaved] at hresult
    simp [h] at hresult
  | error cause =>
    rw [hsaved] at hresult
    obtain rfl : e = cause := Option.some.inj (h.symm.trans hresult.1)
    exact ⟨rfl, hresult.2⟩

/-- The next picture of a run that has come to an index is saved on the disk that the saves
before it have left. -/
theorem Reached.saving_eq (h : Reached options seed disk n run) :
    run.saving options n = options.saving seed disk n := by
  rw [Run.saving, h.palette, h.disk]
  rfl

/-- **One more picture** that could be saved. -/
theorem Reached.picture (h : Reached options seed disk n run)
    (hgoes : (run.picture options n).failure = none) :
    Reached options seed disk (n + 1) (run.picture options n) := by
  obtain ⟨hsaved, -⟩ := Run.picture_of_failure_eq_none hgoes
  rw [h.saving_eq] at hsaved
  refine ⟨h.toPainted.picture hgoes, ?_, fun i hi => ?_, hgoes⟩
  · rw [Run.picture_disk, h.saving_eq]
    rfl
  · rcases Nat.lt_succ_iff_lt_or_eq.mp hi with hlt | rfl
    · exact h.saves i hlt
    · exact ⟨_, hsaved⟩

/-- **One more picture** that could not be saved. -/
theorem Reached.halted (h : Reached options seed disk n run)
    (hfailure : (run.picture options n).failure = some e) :
    Halted options seed disk n e (run.picture options n) := by
  obtain ⟨hfails, hreports⟩ := Run.picture_of_failure_eq_some hfailure
  refine ⟨by rw [hreports, h.reports], fun i hi => ?_, ?_, h.saves, ?_, hfailure⟩
  · obtain ⟨base, hstored⟩ := h.stored i hi
    rw [Run.picture_disk, Run.saving]
    exact ⟨base, hstored.save_other (by omega) _ _⟩
  · rw [Run.picture_disk, h.saving_eq]
    rfl
  · rw [← h.saving_eq]
    exact hfails

/-- **Several pictures**: all of them could be saved, or there is a first that could not. -/
theorem Reached.pictures (h : Reached options seed disk n run) (more : Nat) :
    Reached options seed disk (n + more) (run.pictures options n more) ∨
      ∃ k < n + more, ∃ e, Halted options seed disk k e (run.pictures options n more) := by
  induction more generalizing n run with
  | zero => exact .inl h
  | succ more ih =>
    rw [Run.pictures_succ]
    cases hfailure : (run.picture options n).failure with
    | none =>
      have hrest := ih (h.picture hfailure)
      rwa [Nat.add_right_comm, Nat.add_assoc] at hrest
    | some e => exact .inr ⟨n, by omega, e, h.halted hfailure⟩

instance (options : Series) (seed : UInt64) (disk : Disk) (n : Nat) :
    Decidable (options.Saves seed disk n) :=
  decidable_of_iff (∀ i < n, (options.saving seed disk i).result.isOk = true)
    (forall₂_congr fun _ _ => exists_eq_ok_iff)

theorem Series.Saves.ne_error {k : Nat} (h : options.Saves seed disk n) (hk : k < n) :
    (options.saving seed disk k).result ≠ .error e := by
  obtain ⟨saved, hsaved⟩ := h k hk
  simp [hsaved]

theorem saves_or_fails (options : Series) (seed : UInt64) (disk : Disk) (n : Nat) :
    options.Saves seed disk n ∨ ∃ k < n, options.Saves seed disk k ∧
      ∃ e, (options.saving seed disk k).result = .error e := by
  rcases (reached_start options seed disk).pictures n with hreached | ⟨k, hk, e, hhalted⟩
  · rw [Nat.zero_add] at hreached
    exact .inl hreached.saves
  · rw [Nat.zero_add] at hk
    exact .inr ⟨k, hk, hhalted.saves, e, hhalted.fails⟩

theorem reached_run {around : Surroundings}
    (h : options.Saves (options.startSeed around) around.disk options.count) :
    Reached options (options.startSeed around) around.disk options.count (options.run around) := by
  rcases (reached_start options _ around.disk).pictures options.count with
    hreached | ⟨k, hk, e, hhalted⟩
  · rwa [Nat.zero_add] at hreached
  · rw [Nat.zero_add] at hk
    exact absurd hhalted.fails (h.ne_error hk)

theorem halted_run {around : Surroundings} {k : Nat} (hk : k < options.count)
    (hsaves : options.Saves (options.startSeed around) around.disk k)
    (hfails : (options.saving (options.startSeed around) around.disk k).result = .error e) :
    Halted options (options.startSeed around) around.disk k e (options.run around) := by
  rcases (reached_start options _ around.disk).pictures options.count with
    hreached | ⟨k', hk', e', hhalted⟩
  · rw [Nat.zero_add] at hreached
    exact absurd hfails (hreached.saves.ne_error hk)
  · -- There is only one first failure.
    have hsame : k = k' := by
      rcases Nat.lt_trichotomy k k' with hlt | heq | hgt
      · exact absurd hfails (hhalted.saves.ne_error hlt)
      · exact heq
      · exact absurd hhalted.fails (hsaves.ne_error hgt)
    subst hsame
    have hcause := hfails.symm.trans hhalted.fails
    cases hcause
    exact hhalted

-- ════════════════════════════════════════════════════════════════════════
-- What the saves leave alone
-- ════════════════════════════════════════════════════════════════════════

/-- A place lies below a directory. -/
def Below (directory place : Location) : Prop :=
  ∃ inner, inner ≠ [] ∧ place = inner ++ directory

/-- The place of the directory of an index. -/
def directoryPlace (disk : Disk) (out : Path) (index : Nat) : Location :=
  directoryName index :: disk.outputPlace out

/-- **The saves of a series touch** the way to the output directory, the directories of their
indices and what lies directly in them. -/
theorem diskAfter_touches (options : Series) (seed : UInt64) (disk : Disk) (n : Nat) :
    (options.diskAfter seed disk n).here = disk.here ∧
      disk.tree.Touches
        (fun place => OnTheWay (disk.start options.output) options.output.steps place ∨
          ∃ i < n, place = directoryPlace disk options.output i)
        (fun place => ∃ i < n, ∃ name, place = name :: directoryPlace disk options.output i)
        (options.diskAfter seed disk n).tree := by
  induction n with
  | zero => exact ⟨rfl, .refl disk.tree⟩
  | succ n ih =>
    obtain ⟨hhere, htouches⟩ := ih
    have hsave : SaveTouches options.output n (paletteAfter options.settings seed n)
        (options.diskAfter seed disk n) (options.diskAfter seed disk (n + 1)) := by
      rw [Series.diskAfter]
      exact save_touches ..
    refine ⟨hsave.here.trans hhere, ?_⟩
    have hstart := Disk.start_congr hhere options.output
    have hplace := outputPlace_congr hhere options.output
    refine (htouches.mono ?_ ?_).trans (hsave.tree.mono ?_ ?_)
    · rintro place (hway | ⟨i, hi, hplace⟩)
      · exact .inl hway
      · exact .inr ⟨i, by omega, hplace⟩
    · rintro place ⟨i, hi, name, hplace⟩
      exact ⟨i, by omega, name, hplace⟩
    · intro place hway
      rw [imageDirectory_eq, Path.steps_join (isName_directoryName n), hstart] at hway
      exact (onTheWay_down hway).imp_right fun h => ⟨n, by omega, h⟩
    · rw [hplace]
      rintro place (rfl | rfl)
      · exact ⟨n, by omega, _, rfl⟩
      · exact ⟨n, by omega, _, rfl⟩

theorem not_below_of_touched {out : Path} {j : Nat} {place : Location} (hj : n ≤ j)
    (hbelow : Below (directoryPlace disk out j) place) :
    (∀ i < n, place ≠ directoryPlace disk out i) ∧
      ∀ i < n, ∀ name, place ≠ name :: directoryPlace disk out i := by
  obtain ⟨inner, hinner, rfl⟩ := hbelow
  have hpos : 0 < inner.length := List.length_pos_iff.mpr hinner
  refine ⟨fun i hi heq => ?_, fun i hi name heq => ?_⟩
  · have hlengths := congrArg List.length heq
    simp only [List.length_append, directoryPlace, List.length_cons] at hlengths
    omega
  · have hlengths := congrArg List.length heq
    simp only [List.length_append, directoryPlace, List.length_cons] at hlengths
    have hone : inner.length = 1 := by omega
    obtain ⟨last, rfl⟩ := List.length_eq_one_iff.mp hone
    have hindex := directoryName_injective (List.cons.inj (List.cons.inj heq).2).1
    omega

theorem get?_diskAfter_of_below {j : Nat} {place : Location} (hj : n ≤ j)
    (hbelow : Below (directoryPlace disk options.output j) place) :
    (options.diskAfter seed disk n).tree.get? place = disk.tree.get? place ∨
      OnTheWay (disk.start options.output) options.output.steps place ∧
        disk.tree.get? place = none ∧
          (options.diskAfter seed disk n).tree.get? place = some .directory := by
  obtain ⟨hdirectory, hfile⟩ := not_below_of_touched hj hbelow
  rcases (diskAfter_touches options seed disk n).2 place with
    hsame | ⟨hway | ⟨i, hi, hplace⟩, hmade⟩ | ⟨⟨i, hi, name, hplace⟩, -⟩
  · exact .inl hsame
  · exact .inr ⟨hway, hmade⟩
  · exact absurd hplace (hdirectory i hi)
  · exact absurd hplace (hfile i hi name)

theorem not_onTheWay_of_below {out : Path} {j : Nat} {place : Location}
    (hup : Step.up ∉ out.steps) (hbelow : Below (directoryPlace disk out j) place) :
    ¬ OnTheWay (disk.start out) out.steps place := by
  intro hway
  obtain ⟨inner, -, rfl⟩ := hbelow
  have hlength := (hway.suffix_of_up_not_mem hup).length_le
  simp [directoryPlace, Disk.outputPlace] at hlength
  omega

-- ════════════════════════════════════════════════════════════════════════
-- Reports
-- ════════════════════════════════════════════════════════════════════════

/-- The entry of a picture in a document: its index, the paths that were written, and the
canonical texts and sizes of its expressions. -/
def entry (out : Path) (n : Nat) (p : Palette) : Json :=
  .object [("index", .nat n), ("image", .string (savedImage out n p).image.text),
    ("details", .string (savedImage out n p).details.text),
    ("palette", .object [("red", .string p.red.text), ("green", .string p.green.text),
      ("blue", .string p.blue.text)]),
    ("nodes", .array [.nat p.red.size, .nat p.green.size, .nat p.blue.size])]

/-- The lines about a picture: the paths that were written and the canonical texts of its
expressions. -/
def listing (out : Path) (n : Nat) (p : Palette) : String :=
  "Image " ++ Decimal.naturalText n ++ ": " ++ (savedImage out n p).image.text ++ "\n" ++
    "  Details: " ++ (savedImage out n p).details.text ++ "\n" ++
    ("  r_exp: " ++ p.red.text ++ "\n" ++ ("  g_exp: " ++ p.green.text ++ "\n" ++
      ("  b_exp: " ++ p.blue.text ++ "\n")))

theorem report_toJson (options : Series) (seed : UInt64) (n : Nat) :
    (options.report seed n).toJson =
      entry options.output n (paletteAfter options.settings seed n) := rfl

theorem ofList_writtenLine (c : Channel) (e : Expr) :
    String.ofList (Palette.writtenLine c e) = String.ofList c.key ++ ": " ++ e.text := by
  apply String.toList_injective
  simp [Palette.writtenLine, Expr.text, String.toList_append]

theorem detailsLines_eq (p : Palette) : Report.detailsLines p =
    "  r_exp: " ++ p.red.text ++ "\n" ++ ("  g_exp: " ++ p.green.text ++ "\n" ++
      ("  b_exp: " ++ p.blue.text ++ "\n")) := by
  rw [Report.detailsLines, Palette.lines_detailsChars, Palette.writtenLines]
  simp [ofList_writtenLine, Channel.all, Channel.key, Palette.get, ← String.append_assoc]

theorem report_text (options : Series) (seed : UInt64) (n : Nat) :
    (options.report seed n).text =
      listing options.output n (paletteAfter options.settings seed n) := by
  rw [Report.text_eq, detailsLines_eq]
  rfl

-- ════════════════════════════════════════════════════════════════════════
-- What comes of a series
-- ════════════════════════════════════════════════════════════════════════

/-- **A series that comes to its end**: every picture is saved on the disk that the saves before
it have left, and all of them are reported in their order. -/
structure Completed (options : Series) (seed : UInt64) (before : Disk) (outcome : Outcome) :
    Prop where
  exitCode : outcome.exitCode = 0
  disk : outcome.disk = options.diskAfter seed before options.count
  saved : ∀ i < options.count, (options.saving seed before i).result =
    .ok (savedImage options.output i (paletteAfter options.settings seed i))
  files : ∀ i < options.count,
    HoldsFiles outcome.disk options i (paletteAfter options.settings seed i)
  document : options.format = .json → ∀ seconds, outcome.shown seconds =
    (Json.object [("seed", .nat seed.toNat), ("generator", options.settings.toJson),
      ("render", options.canvas.toJson),
      ("images", .array ((List.range options.count).map fun i =>
        entry options.output i (paletteAfter options.settings seed i)))]).pretty ++ "\n"
  text : options.format = .text → options.progress = false → ∀ seconds, outcome.shown seconds =
    String.join ((List.range options.count).map fun i => startLine options i ++
      listing options.output i (paletteAfter options.settings seed i)) ++
        endLine options seed seconds

/-- **A series that ends with a picture** that cannot be saved: the pictures before it are
there, and below the directories of later indices nothing has changed. Only the path of the
output directory may come to new directories there, and without a step up it comes to none. -/
structure Interrupted (options : Series) (seed : UInt64) (before : Disk) (k : Nat)
    (e : SaveError) (outcome : Outcome) : Prop where
  exitCode : outcome.exitCode = 1
  failure : outcome.failure = some e.message
  disk : outcome.disk = options.diskAfter seed before (k + 1)
  files : ∀ i < k, HoldsFiles outcome.disk options i (paletteAfter options.settings seed i)
  spared : ∀ j > k, ∀ place, Below (directoryPlace before options.output j) place →
    outcome.disk.tree.get? place = before.tree.get? place ∨
      OnTheWay (before.start options.output) options.output.steps place ∧
        before.tree.get? place = none ∧ outcome.disk.tree.get? place = some .directory
  untouched : Step.up ∉ options.output.steps →
    ∀ j > k, ∀ place, Below (directoryPlace before options.output j) place →
      outcome.disk.tree.get? place = before.tree.get? place
  document : options.format = .json → ∀ seconds, outcome.shown seconds = ""
  text : options.format = .text → options.progress = false → ∀ seconds, outcome.shown seconds =
    String.join ((List.range k).map fun i => startLine options i ++
      listing options.output i (paletteAfter options.settings seed i)) ++ startLine options k

theorem shown_reports (h : run.reports.reverse = (List.range n).map (options.report seed)) :
    String.join (run.reports.reverse.map fun r => startLine options r.index ++ r.text) =
      String.join ((List.range n).map fun i => startLine options i ++
        listing options.output i (paletteAfter options.settings seed i)) := by
  rw [h, List.map_map]
  refine congrArg String.join (List.map_congr_left fun i _ => ?_)
  exact congrArg (startLine options i ++ ·) (report_text options seed i)

theorem Run.shown_json (h : options.format = .json) : run.shown options = "" := by
  simp [Run.shown, h]

theorem completed_of_reached {around : Surroundings} (hcheck : options.check = .ok ())
    (h : Reached options (options.startSeed around) around.disk options.count
      (options.run around)) :
    Completed options (options.startSeed around) around.disk (series options around) := by
  rw [series_of_check_eq_ok hcheck, Run.outcome, h.goes]
  refine ⟨rfl, h.disk, fun i hi => ?_, fun i hi => h.holdsFiles hi, ?_, ?_⟩
  · obtain ⟨saved, hsaved⟩ := h.saves i hi
    obtain ⟨rfl, -⟩ := save_eq_ok hsaved
    exact hsaved
  · intro hjson seconds
    show (options.run around).shown options ++ (options.run around).summary options _ seconds = _
    rw [Run.shown_json hjson, Run.summary, hjson, seriesJson, h.reports, List.map_map]
    simp only [Function.comp_def, report_toJson, String.empty_append]
  · intro htext hprogress seconds
    show (options.run around).shown options ++ (options.run around).summary options _ seconds = _
    rw [Run.shown, if_pos ⟨htext, hprogress⟩, Run.summary, htext, h.goes]
    simp only [shown_reports h.reports, Option.isSome_none, Bool.false_eq_true, if_false,
      String.append_empty]

theorem interrupted_of_halted {around : Surroundings} {k : Nat} (hcheck : options.check = .ok ())
    (h : Halted options (options.startSeed around) around.disk k e (options.run around)) :
    Interrupted options (options.startSeed around) around.disk k e (series options around) := by
  rw [series_of_check_eq_ok hcheck, Run.outcome, h.failure]
  have hspared : ∀ j > k, ∀ place, Below (directoryPlace around.disk options.output j) place →
      (options.run around).disk.tree.get? place = around.disk.tree.get? place ∨
        OnTheWay (around.disk.start options.output) options.output.steps place ∧
          around.disk.tree.get? place = none ∧
            (options.run around).disk.tree.get? place = some .directory := by
    intro j hj place hbelow
    rw [h.disk]
    exact get?_diskAfter_of_below hj hbelow
  refine ⟨rfl, rfl, h.disk, fun i hi => ?_, hspared, ?_, ?_, ?_⟩
  · obtain ⟨base, hstored⟩ := h.stored i hi
    exact ⟨hstored.holds_picture, hstored.holds_details⟩
  · intro hup j hj place hbelow
    refine (hspared j hj place hbelow).resolve_right ?_
    rintro ⟨hway, -⟩
    exact not_onTheWay_of_below hup hbelow hway
  · intro hjson seconds
    exact Run.shown_json hjson
  · intro htext hprogress seconds
    show (options.run around).shown options = _
    have hlength : (options.run around).reports.length = k := by
      rw [← List.length_reverse, h.reports, List.length_map, List.length_range]
    rw [Run.shown, if_pos ⟨htext, hprogress⟩, h.failure, hlength]
    simp only [shown_reports h.reports, Option.isSome_some, if_true]

theorem check_eq_ok_iff : options.check = .ok () ↔
    options.canvas.check = .ok () ∧ options.settings.valid .binary64 = true := by
  rw [Series.check]
  cases options.canvas.check with
  | error e => simp
  | ok _ => simp

/-- **A series is the sequence of its saves**, also when it does not come to its end. The
palettes are drawn one after the other and painted; a series can fail in nothing but saving a
picture, and the first save that fails ends it. -/
theorem series_follows_saves {request : Request} {options : Series} {around : Surroundings}
    (htask : request.task = .series options) (hcheck : options.check = .ok ()) :
    let seed := options.startSeed around
    let outcome := request.run around
    (∀ n, Palette.random .binary64 Xoshiro.source options.settings
        (sourceAfter options.settings seed n) =
          (.ok (paletteAfter options.settings seed n), sourceAfter options.settings seed (n + 1)) ∧
      (paletteAfter options.settings seed n).paint options.canvas =
        .ok ((paletteAfter options.settings seed n).picture options.canvas)) ∧
    (options.Saves seed around.disk options.count →
      Completed options seed around.disk outcome) ∧
    (∀ k < options.count, ∀ e, options.Saves seed around.disk k →
      (options.saving seed around.disk k).result = .error e →
        Interrupted options seed around.disk k e outcome) ∧
    (options.Saves seed around.disk options.count ∨
      ∃ k < options.count, options.Saves seed around.disk k ∧
        ∃ e, (options.saving seed around.disk k).result = .error e) := by
  intro seed outcome
  have houtcome : outcome = series options around := by
    simp only [outcome, Request.run, htask]
    rfl
  obtain ⟨hcanvas, hvalid⟩ := check_eq_ok_iff.mp hcheck
  refine ⟨fun n => ⟨?_, ?_⟩, fun hsaves => ?_, fun k hk e hsaves hfails => ?_,
    saves_or_fails options seed around.disk options.count⟩
  · rw [Palette.random, if_pos hvalid, sourceAfter_succ, paletteAfter]
  · rw [Palette.paint, Palette.paintWithProgress, hcanvas]
    rfl
  · rw [houtcome]
    exact completed_of_reached hcheck (reached_run hsaves)
  · rw [houtcome]
    exact interrupted_of_halted hcheck (halted_run hk hsaves hfails)

/-- A file stands where the directory of the second picture should be, so a series of two
pictures ends with that one, and a series of one does not meet it. -/
theorem series_follows_saves_up_to_blocked_directory :
    let disk : Disk := ⟨⟨[(["generated_image_1"], .text "x")]⟩, []⟩
    let around : Surroundings := ⟨disk, none, 0⟩
    let options : Series := { size := 1, count := 2, seed := some 5, format := .json }
    let options' : Series := { size := 1, count := 1, seed := some 5 }
    let request : Request := ⟨.series options, 0⟩
    let request' : Request := ⟨.series options', 0⟩
    options.check = .ok () ∧ options'.check = .ok () ∧
      (∃ e, Interrupted options 5 disk 1 e (request.run around)) ∧
      Completed options' 5 disk (request'.run around) := by
  intro disk around options options' request request'
  have htask : request.task = .series options := rfl
  have htask' : request'.task = .series options' := rfl
  have hcheck : options.check = .ok () := check_eq_ok_iff.mpr ⟨rfl, by decide +kernel⟩
  have hcheck' : options'.check = .ok () := check_eq_ok_iff.mpr ⟨rfl, by decide +kernel⟩
  obtain ⟨-, -, hinterrupted, hends⟩ := @series_follows_saves _ _ around htask hcheck
  obtain ⟨-, hcompleted, -, -⟩ := @series_follows_saves _ _ around htask' hcheck'
  have hsaves : options.Saves 5 disk 1 := by decide +kernel
  have hblocked : ¬ options.Saves 5 disk 2 := by decide +kernel
  have hsaves' : options'.Saves 5 disk 1 := by decide +kernel
  obtain ⟨k, hk, -, e, hfails⟩ := hends.resolve_left hblocked
  have hfirst : k = 1 := by
    have hpos : ¬ k < 1 := fun hlt => hsaves.ne_error hlt hfails
    have hlt : k < 2 := hk
    omega
  subst hfirst
  exact ⟨hcheck, hcheck', ⟨e, hinterrupted 1 hk e hsaves hfails⟩, hcompleted hsaves'⟩

/-- The directory of the first picture is blocked. By then the way of the output directory has
already led through that of the second picture, and a directory below that one is new. -/
theorem not_untouched_by_way_through_directory :
    let options : Series :=
      { size := 1, count := 2, seed := some 1, output := ⟨"generated_image_1/a/../.."⟩ }
    let disk : Disk := ⟨⟨[(["generated_image_0"], .text "x")]⟩, []⟩
    let outcome := Request.run ⟨.series options, 0⟩ ⟨disk, none, 0⟩
    options.check = .ok () ∧ (∃ e, (options.saving 1 disk 0).result = .error e) ∧
      outcome.exitCode = 1 ∧
      Below (directoryPlace disk options.output 1) ["a", "generated_image_1"] ∧
      outcome.disk.tree.get? ["a", "generated_image_1"] ≠
        disk.tree.get? ["a", "generated_image_1"] := by
  intro options disk outcome
  have hblocked : ¬ options.Saves 1 disk 1 := by decide +kernel
  obtain ⟨k, hk, -, e, hfails⟩ := (saves_or_fails options 1 disk 1).resolve_left hblocked
  have hfirst : k = 0 := by omega
  subst hfirst
  have hplace : directoryPlace disk options.output 1 = ["generated_image_1"] := by decide +kernel
  have hbefore : disk.tree.get? ["a", "generated_image_1"] = none := by rfl
  have hafter : (outcome.disk.tree.get? ["a", "generated_image_1"]).isSome = true := by
    decide +kernel
  refine ⟨check_eq_ok_iff.mpr ⟨rfl, by decide +kernel⟩, ⟨e, hfails⟩, by decide +kernel,
    ⟨["a"], by simp, by rw [hplace]; rfl⟩, ?_⟩
  intro hsame
  rw [hsame, hbefore] at hafter
  cases hafter

end TrigPainting.Command
