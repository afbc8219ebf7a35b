import TrigPainting.Proofs.Storage.Clearance

/-!
# What saving does

A save makes the directories on its way that are missing and writes its two files, first the
picture and then the details. It succeeds exactly if its way is clear, nothing keeps the files
from their places and the picture has pixels, and then it has done just that. A picture without
pixels is refused by its format when its file is there already, so an empty file is left.

The files of different indices lie in different directories. So two saves below one output
directory are in each other's way in neither order or in both, and the tree that they leave is
the same.

## Main definitions

- `SaveChange` — what a save may do to a place, whether it succeeds or fails
- `SaveEffect` — all that a save that succeeds does
- `CanSave` — a save will succeed

## Main statements

- `save_cases` — how far a save comes
- `saveEffect_of_save`, `save_succeeds_iff` — what saving does, and when
- `SaveEffect.comm` — two saves in either order
- `save_touches_own_paths` — what saving does to the paths of a disk
-/

namespace TrigPainting.Storage

/-- Nothing has failed. -/
def Saving.Succeeds (saving : Saving) : Prop :=
  ∃ saved, saving.result = .ok saved

instance (saving : Saving) : Decidable saving.Succeeds :=
  decidable_of_iff (saving.result.isOk = true) exists_eq_ok_iff

/-- The file at a location, if one lies there. -/
def FileTree.file? (tree : FileTree) (location : Location) : Option Entry :=
  match tree.get? location with
  | some .directory => none
  | found => found

/-- **What saving may do to a place**: a directory on the way that was missing is made, the
picture is written, or the details are, and those only with the picture. Of a picture without
pixels there is an empty file in the end. -/
inductive SaveChange (start : Location) (out : Path) (index : Nat) (p : Palette) (image : Image)
    (before after : FileTree) (place : Location) : Prop
  | directory (way : OnTheWay start (imageDirectory out index).steps place)
      (missing : before.get? place = none) (made : after.get? place = some .directory)
  | picture (isPicture : place = picturePlace index (start.lead out.steps))
      (written : after.get? place = some (.picture image))
  | emptied (isPicture : place = picturePlace index (start.lead out.steps))
      (noPixels : ¬ image.HasPixels) (left : after.get? place = some (.text ""))
  | details (isDetails : place = detailsPlace index p (start.lead out.steps))
      (written : after.get? place = some (.text p.details))
      (hasPicture : after.get? (picturePlace index (start.lead out.steps)) =
        some (.picture image))

/-- What saving may do to a tree: every place is as it was or is changed as said. -/
def SaveChanges (start : Location) (out : Path) (index : Nat) (p : Palette) (image : Image)
    (before after : FileTree) : Prop :=
  ∀ place, after.get? place = before.get? place ∨
    SaveChange start out index p image before after place

/-- **All that a save that succeeds does**: what was missing on the way are directories now, the
two files are in their places, and everything else is as it was. -/
structure SaveEffect (start : Location) (out : Path) (index : Nat) (p : Palette) (image : Image)
    (before after : FileTree) : Prop where
  way : ∀ place, OnTheWay start (imageDirectory out index).steps place →
    (before.get? place = none ∨ before.get? place = some .directory) ∧
      after.get? place = some .directory
  picture : after.get? (picturePlace index (start.lead out.steps)) = some (.picture image)
  details : after.get? (detailsPlace index p (start.lead out.steps)) = some (.text p.details)
  others : ∀ place, ¬ OnTheWay start (imageDirectory out index).steps place →
    ¬ IsFileOf index p (start.lead out.steps) place → after.get? place = before.get? place

/-- **A save will succeed**: the system follows its paths, its way is clear, and no directory is
or will be in the place of a file. -/
structure CanSave (start : Location) (out : Path) (index : Nat) (p : Palette) (tree : FileTree) :
    Prop where
  admissible : ∀ path ∈ (savedImage out index p).paths, path.IsAdmissible
  fitsDetails : (detailsName p).utf8ByteSize ≤ 255
  begins : tree.get? start = some .directory
  clear : tree.IsClear start (imageDirectory out index).steps
  noDirectory : ∀ place, IsFileOf index p (start.lead out.steps) place →
    tree.get? place ≠ some .directory
  apart : ∀ place, IsFileOf index p (start.lead out.steps) place →
    ¬ OnTheWay start (imageDirectory out index).steps place

variable {disk : Disk} {out : Path} {index i j : Nat} {p q : Palette} {image picture : Image}
  {start base place : Location} {tree before half after : FileTree}

-- ════════════════════════════════════════════════════════════════════════
-- Places of different indices
-- ════════════════════════════════════════════════════════════════════════

theorem onTheWay_imageDirectory_iff :
    OnTheWay start (imageDirectory out index).steps place ↔
      OnTheWay start out.steps place ∨ place = directoryName index :: start.lead out.steps := by
  rw [imageDirectory_eq, Path.steps_join (isName_directoryName index)]
  refine ⟨onTheWay_down, ?_⟩
  rintro (hway | rfl)
  · exact hway.append _
  · have hlead := onTheWay_lead start (out.steps ++ [.down (directoryName index)])
    rw [Location.lead_append] at hlead
    exact hlead

theorem IsFileOf.index_unique (h : IsFileOf i p base place) (h' : IsFileOf j q base place) :
    i = j := by
  rcases h with rfl | rfl <;> exact IsFileOf.index_eq h'

/-- The way to a directory of an index comes to a file only if that to the output directory
does. -/
theorem IsFileOf.onTheWay (h : IsFileOf j q (start.lead out.steps) place)
    (hway : OnTheWay start (imageDirectory out i).steps place) :
    OnTheWay start out.steps place := by
  refine (onTheWay_imageDirectory_iff.mp hway).resolve_right fun hdirectory => ?_
  -- A file lies one level deeper than the directories of the indices.
  have hlength : place.length = (start.lead out.steps).length + 2 := by
    rcases h with rfl | rfl <;> rfl
  rw [hdirectory, List.length_cons] at hlength
  omega

-- ════════════════════════════════════════════════════════════════════════
-- How far saving comes
-- ════════════════════════════════════════════════════════════════════════

/-- **How far saving comes**: to the directories, to an empty file for the picture, to the
picture or to its end. -/
theorem save_cases (disk : Disk) (out : Path) (index : Nat) (p : Palette) (image : Image) :
    let made := (disk.makeDirectories (imageDirectory out index)).2
    let base := disk.outputPlace out
    let saving := save disk out index p image
    (∃ e, saving.result = .error e) ∧ saving.disk.tree = made.tree ∨
    (∃ e, saving.result = .error e) ∧ ¬ image.HasPixels ∧
      saving.disk.tree = made.tree.put (picturePlace index base) (.text "") ∨
    (∃ e, saving.result = .error e) ∧
      saving.disk.tree = made.tree.put (picturePlace index base) (.picture image) ∨
    saving.result = .ok (savedImage out index p) ∧
      saving.disk.tree = deposit made.tree index p image base := by
  intro made base saving
  have hhere : made.here = disk.here := (disk.makeDirectories_extends _).2
  cases hmake : disk.makeDirectories (imageDirectory out index) with
  | mk result made' =>
  obtain rfl : made = made' := congrArg Prod.snd hmake
  cases result with
  | error e =>
    have hsaving : saving = ⟨.error (.directory e), made, []⟩ := by
      simp only [saving, save, savedImage, hmake]
    rw [hsaving]
    exact .inl ⟨⟨_, rfl⟩, rfl⟩
  | ok _ =>
    cases hpicture : made.writePicture ((imageDirectory out index).join imageName) image with
    | mk result half =>
    cases result with
    | error e =>
      have hsaving : saving = ⟨.error (.raster (.output e)), half, []⟩ := by
        simp only [saving, save, savedImage, hmake, hpicture]
      rw [hsaving]
      rcases Disk.writePicture_eq_error hpicture with rfl | ⟨hpixels, hempty⟩
      · exact .inl ⟨⟨_, rfl⟩, rfl⟩
      · obtain ⟨-, hhalf⟩ := put_of_write isName_imageName hhere hempty
        rw [hhalf]
        exact .inr (.inl ⟨⟨_, rfl⟩, hpixels, rfl⟩)
    | ok _ =>
      obtain ⟨-, hwrite⟩ := Disk.writePicture_eq_ok_iff.mp hpicture
      obtain ⟨-, hhalf⟩ := put_of_write isName_imageName hhere hwrite
      have hhere' : half.here = disk.here := by rw [hhalf, hhere]
      cases hdetails : half.write ((imageDirectory out index).join (detailsName p))
          (.text p.details) with
      | error e =>
        have hsaving : saving = ⟨.error (.palette (.file e)), half,
            [.wrotePicture (savedImage out index p).image]⟩ := by
          simp only [saving, save, savedImage, detailsPath, hmake, hpicture, hdetails]
        rw [hsaving, hhalf]
        exact .inr (.inr (.inl ⟨⟨_, rfl⟩, rfl⟩))
      | ok after =>
        obtain ⟨-, hafter⟩ := put_of_write (isName_detailsName p) hhere' hdetails
        have hsaved : saving.result = .ok (savedImage out index p) ∧ saving.disk = after := by
          simp only [saving, save, savedImage, detailsPath, hmake, hpicture, hdetails, and_self]
        rw [hsaved.2, hafter, hhalf]
        exact .inr (.inr (.inr ⟨hsaved.1, rfl⟩))

namespace SaveChanges

theorem of_touches (h : before.Touches (OnTheWay start (imageDirectory out index).steps)
    (fun _ => False) after) : SaveChanges start out index p image before after := by
  intro place
  rcases h place with hsame | ⟨hway, hnone, hmade⟩ | ⟨hfile, -⟩
  · exact .inl hsame
  · exact .inr (.directory hway hnone hmade)
  · exact hfile.elim

/-- After the directories the first file that is put is that of the picture. -/
theorem put_picture (h : before.Touches (OnTheWay start (imageDirectory out index).steps)
    (fun _ => False) tree) {file : Entry}
    (hfile : ∀ {after : FileTree}, after.get? (picturePlace index (start.lead out.steps)) =
        some file → SaveChange start out index p image before after
          (picturePlace index (start.lead out.steps))) :
    SaveChanges start out index p image before
      (tree.put (picturePlace index (start.lead out.steps)) file) := by
  intro place
  by_cases hplace : place = picturePlace index (start.lead out.steps)
  · subst hplace
    exact .inr (hfile (tree.get?_put_self (List.cons_ne_nil _ _) file))
  · have hkept := tree.get?_put_of_ne hplace file
    rcases h place with hsame | ⟨hway, hnone, hmade⟩ | ⟨hfalse, -⟩
    · exact .inl (hkept.trans hsame)
    · exact .inr (.directory hway hnone (hkept.trans hmade))
    · exact hfalse.elim

theorem put_details (h : SaveChanges start out index p image before tree)
    (hpicture : tree.get? (picturePlace index (start.lead out.steps)) = some (.picture image)) :
    SaveChanges start out index p image before
      (tree.put (detailsPlace index p (start.lead out.steps)) (.text p.details)) := by
  intro place
  have hstays := tree.get?_put_of_ne
    (detailsPlace_ne_picturePlace index p (start.lead out.steps)).symm (.text p.details)
  by_cases hplace : place = detailsPlace index p (start.lead out.steps)
  · subst hplace
    exact .inr (.details rfl (tree.get?_put_self (List.cons_ne_nil _ _) _) (hstays.trans hpicture))
  · have hkept := tree.get?_put_of_ne hplace (.text p.details)
    rcases h place with hsame | ⟨way, missing, made⟩ | ⟨isPicture, written⟩ |
      ⟨isPicture, noPixels, left⟩ | ⟨isDetails, -, -⟩
    · exact .inl (hkept.trans hsame)
    · exact .inr (.directory way missing (hkept.trans made))
    · exact .inr (.picture isPicture (hkept.trans written))
    · exact .inr (.emptied isPicture noPixels (hkept.trans left))
    · exact absurd isDetails hplace

end SaveChanges

/-- **What saving changes**, whether it succeeds or fails. -/
theorem save_changes (disk : Disk) (out : Path) (index : Nat) (p : Palette) (image : Image) :
    SaveChanges (disk.start out) out index p image disk.tree
      (save disk out index p image).disk.tree := by
  have hmade := makeDirectories_touches disk out index fun _ => False
  rcases save_cases disk out index p image with
    ⟨-, htree⟩ | ⟨-, hpixels, htree⟩ | ⟨-, htree⟩ | ⟨-, htree⟩ <;> rw [htree]
  · exact .of_touches hmade
  · exact .put_picture hmade (.emptied rfl hpixels)
  · exact .put_picture hmade (.picture rfl)
  · refine SaveChanges.put_details ?_ (FileTree.get?_put_self _ (List.cons_ne_nil _ _) _)
    exact .put_picture hmade (.picture rfl)

-- ════════════════════════════════════════════════════════════════════════
-- Saves that succeed
-- ════════════════════════════════════════════════════════════════════════

theorem HasDirectory.leadsToDirectory {other : Disk} (h : HasDirectory other out index base)
    (hhere : other.here = disk.here) :
    other.tree.LeadsToDirectory (disk.start out) (imageDirectory out index).steps := by
  refine ⟨directoryName index :: base, ?_, h.directory⟩
  rw [← Disk.start_congr hhere, ← Disk.start_join (isName_directoryName index) other out]
  exact walk_imageDirectory_eq_ok_iff.mpr ⟨base, h.reached, h.parent, h.fits, rfl⟩

/-- **What saving does** if it succeeds. -/
theorem saveEffect_of_save (h : (save disk out index p image).Succeeds) :
    SaveEffect (disk.start out) out index p image disk.tree
      (save disk out index p image).disk.tree := by
  obtain ⟨saved, hsaved⟩ := h
  obtain ⟨hhere, htouches⟩ := save_touches disk out index p image
  obtain ⟨base, hstored⟩ := stored_of_save hsaved
  obtain rfl := hstored.toHasDirectory.base_eq hhere
  have hleads := hstored.toHasDirectory.leadsToDirectory hhere
  have hfile : ∀ place, IsFileOf index p (disk.outputPlace out) place →
      (save disk out index p image).disk.tree.get? place ≠ some .directory := by
    rintro place (rfl | rfl)
    · rw [hstored.hasPicture]
      simp
    · rw [hstored.hasDetails]
      simp
  refine ⟨fun place hway => ?_, hstored.hasPicture, hstored.hasDetails, fun place hway hnot => ?_⟩
  · have hdirectory := hleads.get?_of_onTheWay hway
    refine ⟨?_, hdirectory⟩
    rcases htouches place with hsame | ⟨-, hnone, -⟩ | ⟨hisFile, -⟩
    · exact .inr (hsame.symm.trans hdirectory)
    · exact .inl hnone
    · exact absurd hdirectory (hfile place hisFile)
  · rcases htouches place with hsame | ⟨hway', -⟩ | ⟨hisFile, -⟩
    · exact hsame
    · exact absurd hway' hway
    · exact absurd hisFile hnot

namespace SaveEffect

theorem get?_ne_directory (h : SaveEffect start out index p image before after)
    (hfile : IsFileOf index p (start.lead out.steps) place) :
    after.get? place ≠ some .directory := by
  rcases hfile with rfl | rfl
  · rw [h.picture]
    simp
  · rw [h.details]
    simp

/-- The files that were written are on no way to a directory of an index. -/
theorem not_onTheWay (h : SaveEffect start out i p image before after)
    (hfile : IsFileOf i p (start.lead out.steps) place) (j : Nat) :
    ¬ OnTheWay start (imageDirectory out j).steps place := by
  intro hway
  have hown : OnTheWay start (imageDirectory out i).steps place :=
    onTheWay_imageDirectory_iff.mpr (.inl (hfile.onTheWay hway))
  exact h.get?_ne_directory hfile (h.way place hown).2

/-- Saving neither clears the way to the directory of an index nor blocks it. -/
theorem isClear_iff (h : SaveEffect start out i p image before after) (j : Nat) :
    before.IsClear start (imageDirectory out j).steps ↔
      after.IsClear start (imageDirectory out j).steps := by
  have hfree : ∀ place, OnTheWay start (imageDirectory out j).steps place →
      ((before.get? place = none ∨ before.get? place = some .directory) ↔
        (after.get? place = none ∨ after.get? place = some .directory)) := by
    intro place hway
    by_cases hown : OnTheWay start (imageDirectory out i).steps place
    · obtain ⟨hbefore, hafter⟩ := h.way place hown
      exact iff_of_true hbefore (.inr hafter)
    · have hnot : ¬ IsFileOf i p (start.lead out.steps) place :=
        fun hfile => h.not_onTheWay hfile j hway
      rw [h.others place hown hnot]
  constructor
  · rintro ⟨free, fits⟩
    exact ⟨fun place hway => (hfree place hway).mp (free place hway), fits⟩
  · rintro ⟨free, fits⟩
    exact ⟨fun place hway => (hfree place hway).mpr (free place hway), fits⟩

theorem keepsDirectories (h : SaveEffect start out index p image before after)
    (hnot : ¬ IsFileOf index p (start.lead out.steps) place)
    (hdirectory : before.get? place = some .directory) : after.get? place = some .directory := by
  by_cases hway : OnTheWay start (imageDirectory out index).steps place
  · exact (h.way place hway).2
  · exact (h.others place hway hnot).trans hdirectory

theorem file_congr {before' after' : FileTree} (h : SaveEffect start out index p image before after)
    (h' : SaveEffect start out index p image before' after')
    (hfile : IsFileOf index p (start.lead out.steps) place) :
    after.get? place = after'.get? place := by
  rcases hfile with rfl | rfl
  · rw [h.picture, h'.picture]
  · rw [h.details, h'.details]

theorem get?_of_ways (h : SaveEffect start out i p image before half)
    (h' : SaveEffect start out j q picture half after)
    (hway : OnTheWay start (imageDirectory out i).steps place ∨
      OnTheWay start (imageDirectory out j).steps place) :
    after.get? place = some .directory := by
  rcases hway with hway | hway
  · have hnot : ¬ IsFileOf j q (start.lead out.steps) place :=
      fun hfile => h'.not_onTheWay hfile i hway
    exact h'.keepsDirectories hnot (h.way place hway).2
  · exact (h'.way place hway).2

/-- **Two saves in either order** lead to the same tree. -/
theorem comm {half' after' : FileTree} (hne : i ≠ j)
    (h₁ : SaveEffect start out i p image before half)
    (h₂ : SaveEffect start out j q picture half after)
    (h₁' : SaveEffect start out j q picture before half')
    (h₂' : SaveEffect start out i p image half' after') (place : Location) :
    after.get? place = after'.get? place := by
  by_cases hi : IsFileOf i p (start.lead out.steps) place
  · have hj : ¬ IsFileOf j q (start.lead out.steps) place := fun hj => hne (hi.index_unique hj)
    calc after.get? place = half.get? place := h₂.others place (h₁.not_onTheWay hi j) hj
      _ = after'.get? place := h₁.file_congr h₂' hi
  by_cases hj : IsFileOf j q (start.lead out.steps) place
  · calc after.get? place = half'.get? place := h₂.file_congr h₁' hj
      _ = after'.get? place := (h₂'.others place (h₁'.not_onTheWay hj i) hi).symm
  by_cases hway : OnTheWay start (imageDirectory out i).steps place ∨
      OnTheWay start (imageDirectory out j).steps place
  · rw [h₁.get?_of_ways h₂ hway, h₁'.get?_of_ways h₂' hway.symm]
  · rw [not_or] at hway
    calc after.get? place = half.get? place := h₂.others place hway.2 hj
      _ = before.get? place := h₁.others place hway.1 hi
      _ = half'.get? place := (h₁'.others place hway.2 hj).symm
      _ = after'.get? place := (h₂'.others place hway.1 hi).symm

end SaveEffect

-- ════════════════════════════════════════════════════════════════════════
-- When saving succeeds
-- ════════════════════════════════════════════════════════════════════════

theorem steps_imageDirectory_ne_nil (out : Path) (index : Nat) :
    (imageDirectory out index).steps ≠ [] := by
  rw [imageDirectory_eq, Path.steps_join (isName_directoryName index)]
  simp

theorem canSave_of_save (h : (save disk out index p image).Succeeds) :
    CanSave (disk.start out) out index p disk.tree := by
  have heffect := saveEffect_of_save h
  obtain ⟨saved, hsaved⟩ := h
  obtain ⟨-, -, made, -, -, hmade, -⟩ := save_eq_ok hsaved
  obtain ⟨_, _, -, -, hprepared, -⟩ := exists_prepared_of_save hsaved
  obtain ⟨-, hbegins, hclear⟩ :=
    (Disk.makeDirectories_eq_ok_iff (steps_imageDirectory_ne_nil out index)).mp
      (congrArg Prod.fst hmade)
  have hstart : disk.start (imageDirectory out index) = disk.start out :=
    Disk.start_join (isName_directoryName index) disk out
  rw [hstart] at hbegins hclear
  have hkeeps := (save_touches disk out index p image).tree.keepsDirectories
  exact
    { admissible := hprepared.admissible
      fitsDetails := hprepared.fitsDetails
      begins := hbegins
      clear := hclear
      noDirectory := fun place hfile hdirectory =>
        heffect.get?_ne_directory hfile (hkeeps place hdirectory)
      apart := fun place hfile => heffect.not_onTheWay hfile index }

/-- On a clear way the directories are made, and everything is prepared then. -/
theorem exists_prepared_of_canSave (h : CanSave (disk.start out) out index p disk.tree) :
    ∃ made, disk.makeDirectories (savedImage out index p).directory = (.ok (), made) ∧
      Prepared made out index p (disk.outputPlace out) := by
  have hsteps := steps_imageDirectory_ne_nil out index
  have hstart : disk.start (imageDirectory out index) = disk.start out :=
    Disk.start_join (isName_directoryName index) disk out
  have hmade : (disk.makeDirectories (imageDirectory out index)).1 = .ok () := by
    rw [Disk.makeDirectories_eq_ok_iff hsteps, hstart]
    exact ⟨h.admissible _ (by simp [SavedImage.paths, savedImage]), h.begins, h.clear⟩
  have hhere := (disk.makeDirectories_extends (imageDirectory out index)).2
  have htouches := makeDirectories_touches disk out index (fun _ => False)
  have hleads := (Disk.leadsToDirectory_of_makeDirectories hsteps hmade).2
  obtain ⟨made, hmake⟩ : ∃ made, disk.makeDirectories (imageDirectory out index) = (.ok (), made) :=
    ⟨_, Prod.ext hmade rfl⟩
  rw [hmake] at hhere htouches hleads
  refine ⟨made, hmake, ?_⟩
  obtain ⟨place, hwalk, hdirectory⟩ := hleads
  rw [← Disk.start_congr hhere] at hwalk
  obtain ⟨base, hreached, hparent, hfits, rfl⟩ := walk_imageDirectory_eq_ok_iff.mp hwalk
  have hhas : HasDirectory made out index base := ⟨hreached, hparent, hfits, hdirectory⟩
  obtain rfl := hhas.base_eq hhere
  have hfree : ∀ place, IsFileOf index p (disk.outputPlace out) place →
      made.tree.get? place ≠ some .directory := by
    intro place hfile
    rcases htouches place with hsame | ⟨hway, -⟩ | ⟨hfalse, -⟩
    · rw [hsame]
      exact h.noDirectory place hfile
    · exact absurd hway (h.apart place hfile)
    · exact hfalse.elim
  exact
    { hhas with
      admissible := h.admissible
      fitsPicture := by decide
      fitsDetails := h.fitsDetails
      picture := hfree _ (.inl rfl)
      details := hfree _ (.inr rfl) }

/-- **When saving succeeds**: nothing is in its way, and there is something to see. -/
theorem save_succeeds_iff :
    (save disk out index p image).Succeeds ↔
      CanSave (disk.start out) out index p disk.tree ∧ image.HasPixels := by
  constructor
  · intro h
    obtain ⟨saved, hsaved⟩ := id h
    exact ⟨canSave_of_save h, (save_eq_ok hsaved).2.1⟩
  · rintro ⟨h, hpixels⟩
    obtain ⟨made, hmade, hprepared⟩ := exists_prepared_of_canSave h
    rw [save_of_makeDirectories hmade hprepared, save_of_prepared hprepared hpixels]
    exact ⟨_, rfl⟩

namespace CanSave

/-- What can be saved after another index could be saved before it. -/
theorem of_saveEffect (hne : i ≠ j) (hi : CanSave start out i p before)
    (h : SaveEffect start out i p image before after) (hj : CanSave start out j q after) :
    CanSave start out j q before where
  admissible := hj.admissible
  fitsDetails := hj.fitsDetails
  begins := hi.begins
  clear := (h.isClear_iff j).mpr hj.clear
  noDirectory := by
    intro place hfile hdirectory
    have hnot : ¬ IsFileOf i p (start.lead out.steps) place :=
      fun hown => hne (hown.index_unique hfile)
    exact hj.noDirectory place hfile (h.keepsDirectories hnot hdirectory)
  apart := hj.apart

/-- What can be saved can still be saved after another index. -/
theorem saveEffect (hne : i ≠ j) (hi : CanSave start out i p before)
    (h : SaveEffect start out j q picture before after) : CanSave start out i p after where
  admissible := hi.admissible
  fitsDetails := hi.fitsDetails
  begins := (h.way start (onTheWay_start ..)).2
  clear := (h.isClear_iff i).mp hi.clear
  noDirectory := by
    intro place hfile
    have hway : ¬ OnTheWay start (imageDirectory out j).steps place := fun hway =>
      hi.apart place hfile (onTheWay_imageDirectory_iff.mpr (.inl (hfile.onTheWay hway)))
    have hnot : ¬ IsFileOf j q (start.lead out.steps) place :=
      fun hother => hne (hfile.index_unique hother)
    rw [h.others place hway hnot]
    exact hi.noDirectory place hfile
  apart := hi.apart

end CanSave

theorem start_save (disk : Disk) (out : Path) (index : Nat) (p : Palette) (image : Image) :
    (save disk out index p image).disk.start out = disk.start out :=
  Disk.start_congr (save_touches disk out index p image).here out

/-- **Two saves** of different indices that succeed one after the other succeed in the other
order, too, and lead to the same tree. -/
theorem save_comm (hne : i ≠ j) (hi : (save disk out i p image).Succeeds)
    (hj : (save (save disk out i p image).disk out j q picture).Succeeds) :
    (save disk out j q picture).Succeeds ∧
      (save (save disk out j q picture).disk out i p image).Succeeds ∧
      ∀ place, (save (save disk out i p image).disk out j q picture).disk.tree.get? place =
        (save (save disk out j q picture).disk out i p image).disk.tree.get? place := by
  obtain ⟨hcan, hpixels⟩ := save_succeeds_iff.mp hi
  obtain ⟨hcan', hpixels'⟩ := save_succeeds_iff.mp hj
  have heffect := saveEffect_of_save hi
  have heffect' := saveEffect_of_save hj
  rw [start_save] at hcan' heffect'
  have hfirst : (save disk out j q picture).Succeeds :=
    save_succeeds_iff.mpr ⟨hcan.of_saveEffect hne heffect hcan', hpixels'⟩
  have hafter := saveEffect_of_save hfirst
  have hsecond : (save (save disk out j q picture).disk out i p image).Succeeds := by
    rw [save_succeeds_iff, start_save]
    exact ⟨hcan.saveEffect hne hafter, hpixels⟩
  have hafter' := saveEffect_of_save hsecond
  rw [start_save] at hafter'
  exact ⟨hfirst, hsecond, heffect.comm hne heffect' hafter hafter'⟩

-- ════════════════════════════════════════════════════════════════════════
-- The paths of a disk
-- ════════════════════════════════════════════════════════════════════════

/-- Details are only written once the picture is. A directory that is made in their place is no
file. -/
theorem SaveChanges.hasPicture (h : SaveChanges start out index p image before after)
    (hchanged : after.file? (detailsPlace index p (start.lead out.steps)) ≠
      before.file? (detailsPlace index p (start.lead out.steps))) :
    after.file? (picturePlace index (start.lead out.steps)) = some (.picture image) := by
  rcases h (detailsPlace index p (start.lead out.steps)) with
    hsame | ⟨-, missing, made⟩ | ⟨isPicture, -⟩ | ⟨isPicture, -, -⟩ | ⟨-, -, hasPicture⟩
  · exact absurd (by rw [FileTree.file?, FileTree.file?, hsame]) hchanged
  · exact absurd (by simp [FileTree.file?, missing, made]) hchanged
  · exact absurd isPicture (detailsPlace_ne_picturePlace _ _ _)
  · exact absurd isPicture (detailsPlace_ne_picturePlace _ _ _)
  · simp [FileTree.file?, hasPicture]

theorem HasDirectory.find_directory {other : Disk} (h : HasDirectory other out index base)
    (hadmissible : (imageDirectory out index).IsAdmissible) :
    other.find (imageDirectory out index) =
      .ok (directoryName index :: base, some .directory) := by
  have hwalk : other.tree.walk (other.start (imageDirectory out index))
      (imageDirectory out index).steps = .ok (directoryName index :: base) :=
    walk_imageDirectory_eq_ok_iff.mpr ⟨base, h.reached, h.parent, h.fits, rfl⟩
  have hpath : (imageDirectory out index).endsInDirectory = false :=
    Path.endsInDirectory_join (isName_directoryName index)
  rw [Disk.find_of_walk hpath hadmissible hwalk, h.directory]

/-- The paths that a save gives back lead to what it has made and written. -/
theorem find_of_save {saved : SavedImage} (h : (save disk out index p image).result = .ok saved) :
    saved = savedImage out index p ∧
      (save disk out index p image).disk.find saved.directory =
        .ok (directoryName index :: disk.outputPlace out, some .directory) ∧
      (save disk out index p image).disk.find saved.image =
        .ok (picturePlace index (disk.outputPlace out), some (.picture image)) ∧
      (save disk out index p image).disk.find saved.details =
        .ok (detailsPlace index p (disk.outputPlace out), some (.text p.details)) := by
  obtain ⟨base, hstored⟩ := stored_of_save h
  obtain rfl := hstored.toHasDirectory.base_eq (save_touches disk out index p image).here
  obtain rfl := (save_eq_ok h).1
  refine ⟨rfl, ?_, ?_, ?_⟩
  · exact hstored.toHasDirectory.find_directory
      (hstored.admissible _ (by simp [SavedImage.paths, savedImage]))
  · rw [hstored.find_picture, hstored.hasPicture]
  · rw [hstored.find_details, hstored.hasDetails]

/-- **Saving touches its own paths only.** It succeeds exactly if nothing is in its way and the
picture has pixels, and then the directories on the way to that of the index are there, the files
are what they should be at the paths given back, and nothing else has changed. If it fails, no
other places have changed either. The details are not touched before the picture has been
written. Two saves of different indices leave the same tree in either order, and if they succeed
in one, they do in the other. -/
theorem save_touches_own_paths (disk : Disk) (out : Path) :
    (∀ (index : Nat) (p : Palette) (image : Image),
      let after := (save disk out index p image).disk
      ((save disk out index p image).Succeeds ↔
        CanSave (disk.start out) out index p disk.tree ∧ image.HasPixels) ∧
      ∀ saved, (save disk out index p image).result = .ok saved →
        saved = savedImage out index p ∧
        SaveEffect (disk.start out) out index p image disk.tree after.tree ∧
        after.find saved.directory =
          .ok (directoryName index :: disk.outputPlace out, some .directory) ∧
        after.find saved.image =
          .ok (picturePlace index (disk.outputPlace out), some (.picture image)) ∧
        after.find saved.details =
          .ok (detailsPlace index p (disk.outputPlace out), some (.text p.details))) ∧
    (∀ (index : Nat) (p : Palette) (image : Image),
      let after := (save disk out index p image).disk
      after.here = disk.here ∧
      (∀ place, after.tree.get? place = disk.tree.get? place ∨
        SaveChange (disk.start out) out index p image disk.tree after.tree place) ∧
      (after.tree.file? (detailsPlace index p (disk.outputPlace out)) ≠
          disk.tree.file? (detailsPlace index p (disk.outputPlace out)) →
        after.tree.file? (picturePlace index (disk.outputPlace out)) = some (.picture image))) ∧
    ∀ (i j : Nat) (p q : Palette) (image picture : Image), i ≠ j →
      let afterFirst := (save disk out i p image).disk
      let afterOther := (save disk out j q picture).disk
      (save disk out i p image).Succeeds → (save afterFirst out j q picture).Succeeds →
        (save disk out j q picture).Succeeds ∧ (save afterOther out i p image).Succeeds ∧
        ∀ place, (save afterFirst out j q picture).disk.tree.get? place =
          (save afterOther out i p image).disk.tree.get? place := by
  refine ⟨fun index p image => ⟨save_succeeds_iff, fun saved hsaved => ?_⟩,
    fun index p image => ?_, ?_⟩
  · obtain ⟨hpaths, hfinds⟩ := find_of_save hsaved
    exact ⟨hpaths, saveEffect_of_save ⟨saved, hsaved⟩, hfinds⟩
  · have hchanges := save_changes disk out index p image
    exact ⟨(save_touches disk out index p image).here, hchanges, hchanges.hasPicture⟩
  · intro i j p q image picture hne afterFirst afterOther hi hj
    exact save_comm hne hi hj

/-- Two pictures below a directory that is missing, on a way that goes up again. -/
theorem save_touches_own_paths_below_missing_directory :
    let p : Palette := ⟨.coord .x, .coord .y, .pi⟩
    let q : Palette := ⟨.pi, .wave .sine (.coord .x), .coord .y⟩
    let image : Image := ⟨1, 1, #[1, 2, 3], rfl⟩
    let picture : Image := ⟨1, 1, #[4, 5, 6], rfl⟩
    let out : Path := ⟨"a/../pictures/"⟩
    let disk : Disk := ⟨⟨[(["notes.txt"], .text "x")]⟩, []⟩
    (save disk out 0 p image).result = .ok (savedImage out 0 p) ∧
      (save disk out 0 p image).disk.find ⟨"a/../pictures/generated_image_0/image.png"⟩ =
        .ok (["image.png", "generated_image_0", "pictures"], some (.picture image)) ∧
      (save disk out 0 p image).disk.tree.file? ["image.png", "generated_image_0", "pictures"] =
        some (.picture image) ∧
      ∀ place, (save (save disk out 0 p image).disk out 1 q picture).disk.tree.get? place =
        (save (save disk out 1 q picture).disk out 0 p image).disk.tree.get? place := by
  intro p q image picture out disk
  obtain ⟨heffect, hchanges, hcomm⟩ := save_touches_own_paths disk out
  have hfirst : (save disk out 0 p image).Succeeds := by decide +kernel
  have hsecond : (save (save disk out 0 p image).disk out 1 q picture).Succeeds := by
    decide +kernel
  have himage : (savedImage out 0 p).image = ⟨"a/../pictures/generated_image_0/image.png"⟩ := by
    decide +kernel
  have hplace : picturePlace 0 (disk.outputPlace out) =
      ["image.png", "generated_image_0", "pictures"] := by decide +kernel
  have hnew : (disk.tree.file? (detailsPlace 0 p (disk.outputPlace out))).isSome = false := by
    decide +kernel
  have hwritten : ((save disk out 0 p image).disk.tree.file?
      (detailsPlace 0 p (disk.outputPlace out))).isSome = true := by decide +kernel
  obtain ⟨saved, hsaved⟩ := hfirst
  obtain ⟨rfl, -, -, hfind, -⟩ := (heffect 0 p image).2 saved hsaved
  rw [himage, hplace] at hfind
  have hchanged : (save disk out 0 p image).disk.tree.file?
      (detailsPlace 0 p (disk.outputPlace out)) ≠
        disk.tree.file? (detailsPlace 0 p (disk.outputPlace out)) := by
    intro hsame
    rw [hsame, hnew] at hwritten
    cases hwritten
  have hfile := (hchanges 0 p image).2.2 hchanged
  rw [hplace] at hfile
  exact ⟨hsaved, hfind, hfile, (hcomm 0 1 p q image picture (by decide) ⟨_, hsaved⟩ hsecond).2.2⟩

end TrigPainting.Storage
