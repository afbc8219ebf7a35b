import Mathlib.Logic.Function.Iterate
import TrigPainting.Command.Execution
import TrigPainting.Proofs.Storage.Footprint

/-!
# Series of pictures are reproducible

Between two palettes of a series nothing is drawn. So the palette of an index is the one that
is drawn after as many others, and which one that is depends on the seed and the settings of
the generator alone. What else is asked for shows in where a picture is saved and how it is
painted, and the pictures of later indices leave its files alone.

## Main definitions

- `sourceAfter`, `paletteAfter` — the draws of a series, without the series
- `Painted` — what is true of a run after a number of pictures

## Main statements

- `Painted.picture`, `Painted.pictures` — one more picture, and several
- `painted_run` — a series that came to its end
- `series_reproducible` — two series of the same seed and probability
-/

namespace TrigPainting.Command

open Storage

/-- The state of the source after `n` palettes have been drawn, and nothing else. -/
def sourceAfter (settings : Generator.Settings Float) (seed : UInt64) (n : Nat) : Xoshiro :=
  (fun s => (Palette.draw .binary64 Xoshiro.source settings s).2)^[n] (.ofSeed seed)

/-- The palette that is drawn after `n` others. -/
def paletteAfter (settings : Generator.Settings Float) (seed : UInt64) (n : Nat) : Palette :=
  (Palette.draw .binary64 Xoshiro.source settings (sourceAfter settings seed n)).1

theorem sourceAfter_succ (settings : Generator.Settings Float) (seed : UInt64) (n : Nat) :
    sourceAfter settings seed (n + 1) =
      (Palette.draw .binary64 Xoshiro.source settings (sourceAfter settings seed n)).2 :=
  Function.iterate_succ_apply' ..

/-- The report of the picture that is painted after `n` others. -/
def Series.report (options : Series) (seed : UInt64) (n : Nat) : Report :=
  let palette := paletteAfter options.settings seed n
  ⟨n, savedImage options.output n palette, palette⟩

/-- **After `n` pictures**: as many palettes have been drawn and reported, and the files of each
of them are where they were saved. -/
structure Painted (options : Series) (seed : UInt64) (n : Nat) (run : Run) : Prop where
  source : run.source = sourceAfter options.settings seed n
  reports : run.reports.reverse = (List.range n).map (options.report seed)
  stored : ∀ i < n, ∃ base, Stored run.disk options.output i
    (paletteAfter options.settings seed i)
    ((paletteAfter options.settings seed i).picture options.canvas) base

variable {options : Series} {around : Surroundings} {run : Run} {seed : UInt64} {n : Nat}

-- ════════════════════════════════════════════════════════════════════════
-- The run of a series
-- ════════════════════════════════════════════════════════════════════════

theorem painted_start (options : Series) (seed : UInt64) (disk : Disk) :
    Painted options seed 0 (Run.start seed disk) where
  source := rfl
  reports := rfl
  stored := nofun

/-- A picture that does not end a series has been saved. -/
theorem Run.picture_of_failure_eq_none (h : (run.picture options n).failure = none) :
    let saved := savedImage options.output n (run.palette options).1
    (run.saving options n).result = .ok saved ∧
      (run.picture options n).reports = ⟨n, saved, (run.palette options).1⟩ :: run.reports := by
  have hresult := run.picture_result options n
  cases hsaved : (run.saving options n).result with
  | ok saved =>
    rw [hsaved] at hresult
    obtain ⟨rfl, -⟩ := save_eq_ok hsaved
    exact ⟨rfl, hresult.2⟩
  | error e =>
    rw [hsaved] at hresult
    simp [h] at hresult

theorem Painted.palette (h : Painted options seed n run) : run.palette options =
    (paletteAfter options.settings seed n, sourceAfter options.settings seed (n + 1)) := by
  rw [Run.palette, h.source, sourceAfter_succ, paletteAfter]

/-- **One more picture**: it is drawn after those before it, and does not touch their files. -/
theorem Painted.picture (h : Painted options seed n run)
    (hgoes : (run.picture options n).failure = none) :
    Painted options seed (n + 1) (run.picture options n) := by
  obtain ⟨hsaved, hreports⟩ := Run.picture_of_failure_eq_none hgoes
  rw [h.palette] at hreports
  refine ⟨?_, ?_, fun i hi => ?_⟩
  · rw [Run.picture_source, h.palette]
  · rw [hreports, List.reverse_cons, h.reports, List.range_succ, List.map_append]
    rfl
  · rw [Run.picture_disk, Run.saving]
    -- The files of an earlier index stay, and those of this one have just been saved.
    rcases Nat.lt_succ_iff_lt_or_eq.mp hi with hlt | rfl
    · obtain ⟨base, hstored⟩ := h.stored i hlt
      exact ⟨base, hstored.save_other (by omega) _ _⟩
    · rw [Run.saving, h.palette] at hsaved
      rw [h.palette]
      exact stored_of_save hsaved

theorem Run.pictures_succ (run : Run) (options : Series) (index more : Nat) :
    run.pictures options index (more + 1) =
      match (run.picture options index).failure with
      | none => (run.picture options index).pictures options (index + 1) more
      | some _ => run.picture options index := by
  rfl

/-- **Several pictures**: no picture before the last has ended the series. -/
theorem Painted.pictures {more : Nat} (h : Painted options seed n run)
    (hends : (run.pictures options n more).failure = none) :
    Painted options seed (n + more) (run.pictures options n more) := by
  induction more generalizing n run with
  | zero => exact h
  | succ more ih =>
    rw [Run.pictures_succ] at hends ⊢
    cases hfailure : (run.picture options n).failure with
    | none =>
      rw [hfailure] at hends
      have hnext := ih (h.picture hfailure) hends
      rwa [Nat.add_right_comm, Nat.add_assoc] at hnext
    | some e =>
      -- The run would end with this failure.
      rw [hfailure] at hends
      rw [hends] at hfailure
      cases hfailure

theorem painted_of_series (h : (series options around).exitCode = 0) :
    Painted options (options.startSeed around) options.count (options.run around) ∧
      (series options around).disk = (options.run around).disk := by
  cases hcheck : options.check with
  | error e =>
    rw [series_of_check_eq_error hcheck] at h
    cases h
  | ok _ =>
    rw [series_of_check_eq_ok hcheck, Run.outcome] at h ⊢
    cases hends : (options.run around).failure with
    | none =>
      have hpainted := (painted_start options _ _).pictures hends
      rw [Nat.zero_add] at hpainted
      exact ⟨hpainted, rfl⟩
    | some e =>
      rw [hends] at h
      cases h

-- ════════════════════════════════════════════════════════════════════════
-- Two series
-- ════════════════════════════════════════════════════════════════════════

/-- The palettes of the pictures that a run has saved, the first one first. -/
def Run.palettes (run : Run) : List Palette :=
  run.reports.reverse.map Report.palette

/-- The files of a picture that a series painted are there. -/
structure HoldsFiles (disk : Disk) (options : Series) (index : Nat) (p : Palette) : Prop where
  picture : disk.Holds (savedImage options.output index p).image
    (.picture (p.picture options.canvas))
  details : disk.Holds (savedImage options.output index p).details (.text p.details)

namespace Painted

theorem getElem?_reports (h : Painted options seed n run) {i : Nat} (hi : i < n) :
    run.reports.reverse[i]? = some (options.report seed i) := by
  rw [h.reports, List.getElem?_map, List.getElem?_range hi]
  rfl

theorem palettes_eq (h : Painted options seed n run) :
    run.palettes = (List.range n).map (paletteAfter options.settings seed) := by
  rw [Run.palettes, h.reports, List.map_map]
  rfl

theorem holdsFiles (h : Painted options seed n run) {i : Nat} (hi : i < n) :
    HoldsFiles run.disk options i (paletteAfter options.settings seed i) := by
  obtain ⟨base, hstored⟩ := h.stored i hi
  exact ⟨hstored.holds_picture, hstored.holds_details⟩

end Painted

theorem Series.palettes_eq (options : Series) (seed : UInt64) (k n : Nat) :
    options.palettes n (sourceAfter options.settings seed k) =
      (List.range' k n).map (paletteAfter options.settings seed) := by
  induction n generalizing k with
  | zero => rfl
  | succ n ih =>
    rw [Series.palettes, List.range'_succ, List.map_cons, ← ih, sourceAfter_succ, paletteAfter]

theorem Series.settings_congr {other : Series} (h : options.probability = other.probability) :
    options.settings = other.settings := by
  rw [Series.settings, Series.settings, h]

theorem Series.canvas_congr {other : Series} (hsize : options.size = other.size)
    (hscale : options.pixelsPerUnit = other.pixelsPerUnit) : options.canvas = other.canvas := by
  rw [Series.canvas, Series.canvas, hsize, hscale]

/-- **Series are reproducible**: two series of the same seed and probability that succeed have
the same palettes as far as both go, whatever else is asked for. These are drawn one after the
other, with no draw between them. In the end the files of every picture are there, and they are
the same files if size, scale and output directory are the same. -/
theorem series_reproducible {request request' : Request} {options options' : Series}
    {around around' : Surroundings} (htask : request.task = .series options)
    (htask' : request'.task = .series options')
    (hseed : options.startSeed around = options'.startSeed around')
    (hprobability : options.probability = options'.probability)
    (hexit : (request.run around).exitCode = 0) (hexit' : (request'.run around').exitCode = 0) :
    (∀ i, i < options.count → i < options'.count → ∃ p,
      (options.run around).reports.reverse[i]? = some ⟨i, savedImage options.output i p, p⟩ ∧
      (options'.run around').reports.reverse[i]? = some ⟨i, savedImage options'.output i p, p⟩ ∧
      HoldsFiles (request.run around).disk options i p ∧
      HoldsFiles (request'.run around').disk options' i p ∧
      (options.size = options'.size → options.pixelsPerUnit = options'.pixelsPerUnit →
        options.output = options'.output →
          savedImage options.output i p = savedImage options'.output i p ∧
          ∀ path ∈ [(savedImage options.output i p).image, (savedImage options.output i p).details],
            ∃ entry, (request.run around).disk.Holds path entry ∧
              (request'.run around').disk.Holds path entry)) ∧
    (options.count ≤ options'.count →
      (options.run around).palettes <+: (options'.run around').palettes) ∧
    (options.run around).palettes =
      options.palettes options.count (.ofSeed (options.startSeed around)) ∧
    (options.run around).source =
      sourceAfter options.settings (options.startSeed around) options.count := by
  have hsettings := Series.settings_congr hprobability
  rw [Request.run, htask] at hexit ⊢
  rw [Request.run, htask'] at hexit' ⊢
  obtain ⟨hpainted, hdisk⟩ := painted_of_series hexit
  obtain ⟨hpainted', hdisk'⟩ := painted_of_series hexit'
  rw [← hseed] at hpainted'
  refine ⟨fun i hi hi' => ?_, fun hle => ?_, ?_, hpainted.source⟩
  · have hreport := hpainted.getElem?_reports hi
    have hreport' := hpainted'.getElem?_reports hi'
    have hfiles := hpainted.holdsFiles hi
    have hfiles' := hpainted'.holdsFiles hi'
    rw [Series.report] at hreport hreport'
    rw [← hsettings] at hreport' hfiles'
    rw [← hdisk] at hfiles
    rw [← hdisk'] at hfiles'
    refine ⟨_, hreport, hreport', hfiles, hfiles', fun hsize hscale houtput => ?_⟩
    obtain ⟨hpicture', hdetails'⟩ := hfiles'
    rw [← houtput, ← Series.canvas_congr hsize hscale] at hpicture'
    rw [← houtput] at hdetails' ⊢
    refine ⟨rfl, ?_⟩
    intro path hpath
    simp only [List.mem_cons, List.not_mem_nil, or_false] at hpath
    rcases hpath with rfl | rfl
    · exact ⟨_, hfiles.picture, hpicture'⟩
    · exact ⟨_, hfiles.details, hdetails'⟩
  · rw [hpainted.palettes_eq, hpainted'.palettes_eq, ← hsettings]
    obtain ⟨more, hmore⟩ := Nat.exists_eq_add_of_le hle
    rw [hmore, List.range_add, List.map_append]
    exact List.prefix_append ..
  · rw [hpainted.palettes_eq, List.range_eq_range']
    exact (options.palettes_eq _ 0 _).symm

/-- Two short series from one seed. The second one goes further, paints at another size, and
reports as a document. -/
theorem series_reproducible_at_other_size :
    let options : Series := { size := 1, count := 1, seed := some 5, output := ⟨"out"⟩ }
    let options' : Series :=
      { size := 2, count := 2, seed := some 5, output := ⟨"again"⟩, format := .json }
    let around : Surroundings := ⟨⟨.empty, []⟩, none, 0⟩
    let request : Request := ⟨.series options, 0⟩
    let request' : Request := ⟨.series options', 2⟩
    (request.run around).exitCode = 0 ∧ (request'.run around).exitCode = 0 ∧
      (∃ p, (options.run around).reports.reverse[0]? =
          some ⟨0, savedImage ⟨"out"⟩ 0 p, p⟩ ∧
        (options'.run around).reports.reverse[0]? = some ⟨0, savedImage ⟨"again"⟩ 0 p, p⟩) ∧
      (options.run around).palettes <+: (options'.run around).palettes := by
  intro options options' around request request'
  have hexit : (request.run around).exitCode = 0 := by decide +kernel
  have hexit' : (request'.run around).exitCode = 0 := by decide +kernel
  have htask : request.task = .series options := rfl
  have htask' : request'.task = .series options' := rfl
  obtain ⟨hpictures, hprefix, -⟩ := series_reproducible htask htask' rfl rfl hexit hexit'
  obtain ⟨p, hreport, hreport', -⟩ := hpictures 0 (by decide) (by decide)
  exact ⟨hexit, hexit', ⟨p, hreport, hreport'⟩, hprefix (by decide)⟩

end TrigPainting.Command
