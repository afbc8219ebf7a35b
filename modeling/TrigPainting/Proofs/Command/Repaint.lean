import TrigPainting.Command.Painting
import TrigPainting.Proofs.Expr.Evaluation
import TrigPainting.Proofs.Generator.Growth
import TrigPainting.Proofs.Palette.RoundTrip
import TrigPainting.Proofs.Storage.Save

/-!
# Painting from a details file

What is read back from a details file is not the palette that was saved, but its normal
form. No stage tells them apart: both have the same tag and the same details text, so
they are saved to the same file, and where no product has to be regrouped they are painted
alike as well.

## Main definitions

- `SavesDetailsOf` — a palette has the details file of another one
- `RepaintsAs` — it is painted like another one

## Main statements

- `Palette.picture_normalForm` — the picture of what is read back
- `savesDetailsOf_normalForm` — its details file
- `repaint_reproduces` — a picture that was saved, read back and saved or painted again
-/

namespace TrigPainting

namespace Palette

variable {p q : Palette}

theorem nesting_draw_le (options : Command.Series) (s : Xoshiro) (c : Channel) :
    ((draw .binary64 Xoshiro.source options.settings s).1.get c).nesting ≤ 256 := by
  have hdepth := depth_draw_le .binary64 Xoshiro.source options.settings s c
  have hcutoff : options.settings.cutoff = 64 := rfl
  exact Expr.nesting_le_of_depth_le (by omega)

/-- A picture depends on a palette by the colors of the plane only. -/
theorem picture_congr (h : q.color = p.color) (c : Canvas) : q.picture c = p.picture c := by
  have hcolor : q.colorAt c = p.colorAt c := by
    funext column row
    rw [colorAt, colorAt, shade, shade, h]
  have hrow : q.paintRow c = p.paintRow c := by
    funext job bytes
    rw [paintRow, paintRow, hcolor]
  have hfinish : q.finishRow c id = p.finishRow c (id : Unit → Unit) := by
    funext painting job
    rw [finishRow, finishRow, hrow]
  refine Image.ext rfl rfl ?_
  rw [bytes_picture, bytes_picture, paintRows, paintRows, hfinish]

theorem color_congr {x y : Float} (h : ∀ c, (q.get c).value x y = (p.get c).value x y) :
    q.color x y = p.color x y := by
  have hred : q.red.value x y = p.red.value x y := h .red
  have hgreen : q.green.value x y = p.green.value x y := h .green
  have hblue : q.blue.value x y = p.blue.value x y := h .blue
  rw [color, color, hred, hgreen, hblue]

theorem picture_normalForm (h : ∀ c, (p.get c).IsLeftNested ∧ (p.get c).HasSingleArguments)
    (canvas : Canvas) : p.normalForm.picture canvas = p.picture canvas := by
  refine picture_congr ?_ canvas
  funext x y
  refine color_congr fun c => ?_
  rw [get_normalForm]
  exact Expr.eval_normalForm_of_isLeftNested (h c).1 (h c).2 _ x y

end Palette

namespace Command

open Storage

/-- Wherever a palette `q` is saved, and with whatever picture, its details file has the name
and the text of the details file of `p`. -/
def SavesDetailsOf (p q : Palette) : Prop :=
  ∀ disk out index image saved, (save disk out index q image).result = .ok saved →
    saved.details = saved.directory.join (detailsName p) ∧
      (save disk out index q image).disk.Holds saved.details (.text p.details)

/-- Painting from any details file that is read as `q` leaves the picture of `p`. -/
def RepaintsAs (p q : Palette) (canvas : Canvas) : Prop :=
  ∀ (options : Repaint) (disk : Disk), options.canvas = canvas →
    readDetails disk options.details = .ok q → (repaint options disk).exitCode = 0 →
      (repaint options disk).disk.Holds
        ((imageDirectory options.output options.index).join imageName)
        (.picture (p.picture canvas))

variable {disk : Disk} {p q : Palette} {options : Repaint} {canvas : Canvas}

-- ════════════════════════════════════════════════════════════════════════
-- What is read back
-- ════════════════════════════════════════════════════════════════════════

theorem savesDetailsOf_normalForm (p : Palette) : SavesDetailsOf p p.normalForm := by
  intro disk out index image saved hsaved
  rw [save_congr p.tag_normalForm p.details_normalForm] at hsaved ⊢
  obtain ⟨rfl, -⟩ := save_eq_ok hsaved
  obtain ⟨base, hstored⟩ := stored_of_save hsaved
  exact ⟨rfl, hstored.holds_details⟩

theorem repaintsAs_normalForm (hcheck : canvas.check = .ok ())
    (h : ∀ c, (p.get c).IsLeftNested ∧ (p.get c).HasSingleArguments) :
    RepaintsAs p p.normalForm canvas := by
  rintro options disk rfl hread hexit
  rw [repaint_of_readDetails hcheck hread] at hexit ⊢
  obtain ⟨saved, hsaved⟩ := Repaint.outcome_exitCode_eq_zero_iff.mp hexit
  obtain ⟨base, hstored⟩ := stored_of_save hsaved
  rw [Repaint.outcome_disk, ← Palette.picture_normalForm h options.canvas]
  exact hstored.holds_picture

/-- **A picture that was saved is reproduced from its details file.** If no channel nests too
deep, and none of a generated palette does, the details file is read back. What is read has the
same details file wherever it is saved, so saving or painting it in the same place adds no
file. If nothing has to be regrouped, painting it leaves the same picture. -/
theorem repaint_reproduces :
    (∀ (options : Series) (s : Xoshiro) (c : Channel),
      ((Palette.draw .binary64 Xoshiro.source options.settings s).1.get c).nesting ≤ 256) ∧
    ∀ (p : Palette) (canvas : Canvas) (disk : Disk) (out : Path) (index : Nat)
      (saved : SavedImage), (∀ c, (p.get c).nesting ≤ 256) → canvas.check = .ok () →
      (save disk out index p (p.picture canvas)).result = .ok saved →
      let after := (save disk out index p (p.picture canvas)).disk
      saved = savedImage out index p ∧ ∃ q, readDetails after saved.details = .ok q ∧
        SavesDetailsOf p q ∧
        (∀ image, ((save after out index q image).result = .ok saved ↔ image.HasPixels) ∧
          after.tree.SameLocations (save after out index q image).disk.tree) ∧
        (∀ options : Repaint, options.details = saved.details → options.canvas = canvas →
          options.output = out → options.index = index → (repaint options after).exitCode = 0 ∧
            after.tree.SameLocations (repaint options after).disk.tree) ∧
        ((∀ c, (p.get c).IsLeftNested ∧ (p.get c).HasSingleArguments) →
          RepaintsAs p q canvas) := by
  refine ⟨Palette.nesting_draw_le, ?_⟩
  intro p canvas disk out index saved hnesting hcheck hsaved after
  obtain ⟨rfl, -⟩ := save_eq_ok hsaved
  obtain ⟨base, hstored⟩ := stored_of_save hsaved
  have hread : readDetails after (savedImage out index p).details = .ok p.normalForm := by
    rw [hstored.readDetails, Palette.ofDetails_details_of_nesting_le hnesting]
  have hagain : ∀ image,
      ((save after out index p.normalForm image).result = .ok (savedImage out index p) ↔
        image.HasPixels) ∧
        after.tree.SameLocations (save after out index p.normalForm image).disk.tree := by
    intro image
    rw [save_congr p.tag_normalForm p.details_normalForm]
    refine ⟨⟨fun hresult => (save_eq_ok hresult).2.1, fun hpixels => ?_⟩,
      hstored.sameLocations_save image⟩
    rw [save_of_prepared hstored.toPrepared hpixels]
  refine ⟨rfl, p.normalForm, hread, savesDetailsOf_normalForm p, hagain, ?_,
    repaintsAs_normalForm hcheck⟩
  rintro options hdetails rfl rfl rfl
  rw [repaint_of_readDetails hcheck (hdetails ▸ hread), Repaint.outcome_disk,
    Repaint.outcome_exitCode_eq_zero_iff]
  obtain ⟨hresult, hlocations⟩ := hagain (p.normalForm.picture options.canvas)
  exact ⟨⟨_, hresult.mpr (p.normalForm.hasPixels_picture hcheck)⟩, hlocations⟩

/-- A picture on an empty disk, painted again elsewhere. Its palette has a pi wave, so what is
read back is not what was saved. -/
theorem repaint_reproduces_elsewhere :
    let p : Palette := ⟨.piWave .sine (.coord .x),
      .times (.times .pi (.coord .x)) (.wave .cosine (.coord .y)), .coord .y⟩
    let canvas : Canvas := .square 2 1
    let saving := save ⟨.empty, []⟩ ⟨"out"⟩ 3 p (p.picture canvas)
    let options : Repaint :=
      { details := (savedImage ⟨"out"⟩ 3 p).details, size := 2, pixelsPerUnit := 1,
        output := ⟨"again"⟩, index := 5 }
    saving.result = .ok (savedImage ⟨"out"⟩ 3 p) ∧
      ((Palette.draw .binary64 Xoshiro.source ({ } : Series).settings (.ofSeed 7)).1.get
        .red).nesting ≤ 256 ∧
      (repaint options saving.disk).exitCode = 0 ∧
      (repaint options saving.disk).disk.Holds
        ((imageDirectory ⟨"again"⟩ 5).join imageName) (.picture (p.picture canvas)) := by
  intro p canvas saving options
  obtain ⟨hgenerated, hreproduces⟩ := repaint_reproduces
  have hresult : saving.result.toBool = true := by decide +kernel
  cases hsaved : saving.result with
  | error e =>
    rw [hsaved] at hresult
    cases hresult
  | ok saved =>
    have hnesting : ∀ c, (p.get c).nesting ≤ 256 := by
      intro c
      cases c <;> decide
    have hregular : ∀ c, (p.get c).IsLeftNested ∧ (p.get c).HasSingleArguments := by
      intro c
      cases c <;> simp [p, Palette.get, Expr.IsLeftNested, Expr.HasSingleArguments, Expr.isProduct]
    obtain ⟨rfl, q, hread, -, -, -, hrepaints⟩ :=
      hreproduces p canvas _ _ _ saved hnesting rfl hsaved
    have hexit : (repaint options saving.disk).exitCode = 0 := by decide +kernel
    exact ⟨rfl, hgenerated _ _ _, hexit, hrepaints hregular options saving.disk rfl hread hexit⟩

end Command

end TrigPainting
