import TrigPainting.Proofs.Storage.Disk
import TrigPainting.Proofs.Storage.Path

/-!
# What saving leaves behind

A picture that was saved lies in the directory of its index, below the place that the
output directory leads to. Everything that saving needs is still there afterwards. So the
files are found at their paths, and saving once more puts them in the same places.

## Main definitions

- `picturePlace`, `detailsPlace` — where the files of an index go
- `HasDirectory` — the directory of an index is there
- `Prepared` — the files of an index can be written
- `Stored` — they have been written

## Main statements

- `exists_prepared_of_save`, `save_of_prepared` — saving is making directories and then two
  writes
- `stored_of_save` — what was saved lies where it should
- `Stored.sameLocations_save` — saving it again adds nothing
-/

namespace TrigPainting.Storage

/-- The place of the picture of an index, below the place of the output directory. -/
def picturePlace (index : Nat) (base : Location) : Location :=
  imageName :: directoryName index :: base

/-- The place of the details file of an index. -/
def detailsPlace (index : Nat) (p : Palette) (base : Location) : Location :=
  detailsName p :: directoryName index :: base

/-- A tree with the two files of an index put to their places. -/
def deposit (tree : FileTree) (index : Nat) (p : Palette) (image : Image) (base : Location) :
    FileTree :=
  (tree.put (picturePlace index base) (.picture image)).put (detailsPlace index p base)
    (.text p.details)

/-- The output directory leads to `base`, and the directory of the index is there. -/
structure HasDirectory (disk : Disk) (out : Path) (index : Nat) (base : Location) : Prop where
  reached : disk.tree.walk (disk.start out) out.steps = .ok base
  parent : disk.tree.get? base = some .directory
  fits : (directoryName index).utf8ByteSize ≤ 255
  directory : disk.tree.get? (directoryName index :: base) = some .directory

/-- The files of an index can be written: their directory is there, and no other directory is
in the way. -/
structure Prepared (disk : Disk) (out : Path) (index : Nat) (p : Palette) (base : Location) :
    Prop extends HasDirectory disk out index base where
  admissible : ∀ path ∈ (savedImage out index p).paths, path.IsAdmissible
  fitsPicture : imageName.utf8ByteSize ≤ 255
  fitsDetails : (detailsName p).utf8ByteSize ≤ 255
  picture : disk.tree.get? (picturePlace index base) ≠ some .directory
  details : disk.tree.get? (detailsPlace index p base) ≠ some .directory

/-- The files of an index have been written. -/
structure Stored (disk : Disk) (out : Path) (index : Nat) (p : Palette) (image : Image)
    (base : Location) : Prop extends Prepared disk out index p base where
  hasPicture : disk.tree.get? (picturePlace index base) = some (.picture image)
  hasDetails : disk.tree.get? (detailsPlace index p base) = some (.text p.details)

variable {disk other : Disk} {out : Path} {index : Nat} {p : Palette} {image : Image}
  {base place : Location} {name : String}

-- ════════════════════════════════════════════════════════════════════════
-- Where the paths of a picture lead
-- ════════════════════════════════════════════════════════════════════════

theorem Disk.start_join (hname : IsName name) (disk : Disk) (path : Path) :
    disk.start (path.join name) = disk.start path := by
  rw [start, start, Path.isAbsolute_join hname]

theorem walk_imageDirectory_eq_ok_iff :
    disk.tree.walk (disk.start (imageDirectory out index)) (imageDirectory out index).steps =
        .ok place ↔
      ∃ base, disk.tree.walk (disk.start out) out.steps = .ok base ∧
        disk.tree.get? base = some .directory ∧ (directoryName index).utf8ByteSize ≤ 255 ∧
          place = directoryName index :: base := by
  have hname := isName_directoryName index
  rw [imageDirectory_eq, Disk.start_join hname, Path.steps_join hname,
    FileTree.walk_down_eq_ok_iff]

theorem walk_file_eq_ok_iff (hname : IsName name) :
    disk.tree.walk (disk.start ((imageDirectory out index).join name))
        ((imageDirectory out index).join name).steps = .ok place ↔
      ∃ base, HasDirectory disk out index base ∧ name.utf8ByteSize ≤ 255 ∧
        place = name :: directoryName index :: base := by
  rw [Disk.start_join hname, Path.steps_join hname, FileTree.walk_down_eq_ok_iff]
  simp only [walk_imageDirectory_eq_ok_iff]
  constructor
  · rintro ⟨_, ⟨base, hreached, hparent, hlong, rfl⟩, hdirectory, hfits, rfl⟩
    exact ⟨base, ⟨hreached, hparent, hlong, hdirectory⟩, hfits, rfl⟩
  · rintro ⟨base, ⟨hreached, hparent, hlong, hdirectory⟩, hfits, rfl⟩
    exact ⟨_, ⟨base, hreached, hparent, hlong, rfl⟩, hdirectory, hfits, rfl⟩

theorem HasDirectory.find_file (h : HasDirectory disk out index base) (hname : IsName name)
    (hadmissible : ((imageDirectory out index).join name).IsAdmissible)
    (hfits : name.utf8ByteSize ≤ 255) :
    disk.find ((imageDirectory out index).join name) =
      .ok (name :: directoryName index :: base,
        disk.tree.get? (name :: directoryName index :: base)) := by
  refine Disk.find_of_walk (Path.endsInDirectory_join hname) hadmissible ?_
  exact (walk_file_eq_ok_iff hname).mpr ⟨base, h, hfits, rfl⟩

/-- A file that could be written to the directory of an index was put below it. -/
theorem hasDirectory_of_write (hname : IsName name) {file : Entry} {after : Disk}
    (h : disk.write ((imageDirectory out index).join name) file = .ok after) :
    ((imageDirectory out index).join name).IsAdmissible ∧ name.utf8ByteSize ≤ 255 ∧
      ∃ base, HasDirectory disk out index base ∧
        disk.tree.get? (name :: directoryName index :: base) ≠ some .directory ∧
          after =
            { disk with tree := disk.tree.put (name :: directoryName index :: base) file } := by
  obtain ⟨_, _, hfind, hfree, rfl⟩ := Disk.find_of_write h
  obtain ⟨hadmissible, hwalk, rfl⟩ :=
    (Disk.find_eq_ok_iff (Path.endsInDirectory_join hname)).mp hfind
  obtain ⟨base, hdirectory, hfits, rfl⟩ := (walk_file_eq_ok_iff hname).mp hwalk
  exact ⟨hadmissible, hfits, base, hdirectory, hfree, rfl⟩

namespace HasDirectory

theorem keeps (h : HasDirectory disk out index base) (hhere : other.here = disk.here)
    (hkeeps : disk.tree.KeepsDirectories other.tree) : HasDirectory other out index base where
  reached := by
    rw [Disk.start_congr hhere]
    exact hkeeps.walk h.reached
  parent := hkeeps _ h.parent
  fits := h.fits
  directory := hkeeps _ h.directory

theorem unique {base' : Location} (h : HasDirectory disk out index base)
    (h' : HasDirectory disk out index base') : base = base' := by
  have hsame := h.reached.symm.trans h'.reached
  cases hsame
  rfl

end HasDirectory

theorem detailsPlace_ne_picturePlace (index : Nat) (p : Palette) (base : Location) :
    detailsPlace index p base ≠ picturePlace index base := by
  intro h
  exact detailsName_ne_imageName p (List.cons.inj h).1

-- ════════════════════════════════════════════════════════════════════════
-- Saving where everything is prepared
-- ════════════════════════════════════════════════════════════════════════

namespace Prepared

theorem find_picture (h : Prepared disk out index p base) :
    disk.find (savedImage out index p).image =
      .ok (picturePlace index base, disk.tree.get? (picturePlace index base)) :=
  h.toHasDirectory.find_file isName_imageName
    (h.admissible (savedImage out index p).image (by simp [SavedImage.paths])) h.fitsPicture

theorem find_details (h : Prepared disk out index p base) :
    disk.find (savedImage out index p).details =
      .ok (detailsPlace index p base, disk.tree.get? (detailsPlace index p base)) :=
  h.toHasDirectory.find_file (isName_detailsName p)
    (h.admissible (savedImage out index p).details (by simp [SavedImage.paths])) h.fitsDetails

theorem makeDirectories (h : Prepared disk out index p base) :
    disk.makeDirectories (savedImage out index p).directory = (.ok (), disk) := by
  refine Disk.makeDirectories_of_leadsToDirectory (h.admissible _ (by simp [SavedImage.paths]))
    ⟨directoryName index :: base, ?_, h.directory⟩
  exact walk_imageDirectory_eq_ok_iff.mpr ⟨base, h.reached, h.parent, h.fits, rfl⟩

theorem keeps (h : Prepared disk out index p base) (hhere : other.here = disk.here)
    (hkeeps : disk.tree.KeepsDirectories other.tree)
    (hpicture : other.tree.get? (picturePlace index base) ≠ some .directory)
    (hdetails : other.tree.get? (detailsPlace index p base) ≠ some .directory) :
    Prepared other out index p base where
  toHasDirectory := h.toHasDirectory.keeps hhere hkeeps
  admissible := h.admissible
  fitsPicture := h.fitsPicture
  fitsDetails := h.fitsDetails
  picture := hpicture
  details := hdetails

theorem stored (h : Prepared disk out index p base) (hhere : other.here = disk.here)
    (hkeeps : disk.tree.KeepsDirectories other.tree)
    (hpicture : other.tree.get? (picturePlace index base) = some (.picture image))
    (hdetails : other.tree.get? (detailsPlace index p base) = some (.text p.details)) :
    Stored other out index p image base := by
  refine ⟨h.keeps hhere hkeeps ?_ ?_, hpicture, hdetails⟩
  · rw [hpicture]
    simp
  · rw [hdetails]
    simp

theorem put_picture (h : Prepared disk out index p base) (image : Image) :
    Prepared { disk with tree := disk.tree.put (picturePlace index base) (.picture image) }
      out index p base := by
  refine h.keeps rfl (FileTree.keepsDirectories_put h.picture _) ?_ ?_
  · rw [FileTree.get?_put_self_of_ne h.picture]
    simp
  · rw [FileTree.get?_put_of_ne _ (detailsPlace_ne_picturePlace index p base)]
    exact h.details

theorem keepsDirectories_deposit (h : Prepared disk out index p base) (image : Image) :
    disk.tree.KeepsDirectories (deposit disk.tree index p image base) := by
  intro location hdirectory
  refine FileTree.keepsDirectories_put (h.put_picture image).details _ location ?_
  exact FileTree.keepsDirectories_put h.picture _ location hdirectory

end Prepared

theorem get?_deposit_of_ne {tree : FileTree} (hpicture : place ≠ picturePlace index base)
    (hdetails : place ≠ detailsPlace index p base) :
    (deposit tree index p image base).get? place = tree.get? place := by
  rw [deposit, FileTree.get?_put_of_ne _ hdetails, FileTree.get?_put_of_ne _ hpicture]

theorem save_of_prepared (h : Prepared disk out index p base) (hpixels : image.HasPixels) :
    save disk out index p image =
      { result := .ok (savedImage out index p)
        disk := { disk with tree := deposit disk.tree index p image base }
        events := [.wrotePicture (savedImage out index p).image,
          .wroteDetails (savedImage out index p).details] } := by
  have hpicture := Disk.writePicture_eq_ok_iff.mpr
    ⟨hpixels, Disk.write_of_find h.find_picture h.picture (.picture image)⟩
  have hprepared := h.put_picture image
  have hdetails := Disk.write_of_find hprepared.find_details hprepared.details (.text p.details)
  simp only [save, h.makeDirectories, hpicture, hdetails, deposit, List.cons_append,
    List.nil_append]

/-- A picture without pixels leaves an empty file. -/
theorem save_of_prepared_of_not_hasPixels (h : Prepared disk out index p base)
    (hpixels : ¬ image.HasPixels) :
    ∃ e, save disk out index p image =
      { result := .error e
        disk := { disk with tree := disk.tree.put (picturePlace index base) (.text "") }
        events := [] } := by
  obtain ⟨e, hpicture⟩ := Disk.writePicture_of_not_hasPixels hpixels
    (Disk.write_of_find h.find_picture h.picture (.text ""))
  refine ⟨.raster (.output e), ?_⟩
  simp only [save, h.makeDirectories, hpicture]

theorem stored_of_prepared (h : Prepared disk out index p base) (hpixels : image.HasPixels) :
    Stored (save disk out index p image).disk out index p image base := by
  have hhas : (deposit disk.tree index p image base).get? (picturePlace index base) =
      some (.picture image) := by
    rw [deposit, FileTree.get?_put_of_ne _ (detailsPlace_ne_picturePlace index p base).symm,
      FileTree.get?_put_self_of_ne h.picture]
  have htext : (deposit disk.tree index p image base).get? (detailsPlace index p base) =
      some (.text p.details) :=
    FileTree.get?_put_self_of_ne (h.put_picture image).details _
  rw [save_of_prepared h hpixels]
  exact h.stored rfl (h.keepsDirectories_deposit image) hhas htext

-- ════════════════════════════════════════════════════════════════════════
-- Saving
-- ════════════════════════════════════════════════════════════════════════

theorem exists_eq_ok_iff {ε α : Type} {result : Except ε α} :
    result.isOk = true ↔ ∃ value, result = .ok value := by
  cases result <;> simp [Except.isOk, Except.toBool]

/-- A save that succeeds has found or made the directory of the index, and then each of the
two files where it may be written. -/
theorem save_eq_ok {saved : SavedImage} (h : (save disk out index p image).result = .ok saved) :
    saved = savedImage out index p ∧ image.HasPixels ∧ ∃ made half after,
      disk.makeDirectories (savedImage out index p).directory = (.ok (), made) ∧
        made.write (savedImage out index p).image (.picture image) = .ok half ∧
          half.write (savedImage out index p).details (.text p.details) = .ok after ∧
            (save disk out index p image).disk = after := by
  rw [save] at h ⊢
  split at h
  · cases h
  · rename_i made hmade
    split at h
    · cases h
    · rename_i half hhalf
      obtain ⟨hpixels, hwrite⟩ := Disk.writePicture_eq_ok_iff.mp hhalf
      split at h
      · cases h
      · rename_i after hafter
        cases h
        exact ⟨rfl, hpixels, made, half, after, hmade, hwrite, hafter, rfl⟩

/-- Saving makes directories first, and has nothing to make once they are there. -/
theorem save_of_makeDirectories {made : Disk}
    (hmade : disk.makeDirectories (savedImage out index p).directory = (.ok (), made))
    (h : Prepared made out index p base) (image : Image) :
    save disk out index p image = save made out index p image := by
  simp only [save, hmade, h.makeDirectories]

/-- Saving that succeeds makes directories, and puts nothing in the place of an entry by that.
It then goes on where everything is prepared. -/
theorem exists_prepared_of_save {saved : SavedImage}
    (h : (save disk out index p image).result = .ok saved) :
    ∃ made base, disk.tree.Extends made.tree ∧ made.here = disk.here ∧
      Prepared made out index p base ∧
        save disk out index p image = save made out index p image := by
  obtain ⟨-, -, made, half, after, hmade, hpicture, hdetails, -⟩ := save_eq_ok h
  have hextends := disk.makeDirectories_extends (savedImage out index p).directory
  rw [hmade] at hextends
  have hdirectoryPath : (imageDirectory out index).IsAdmissible := by
    have hsteps : (imageDirectory out index).steps ≠ [] := by
      rw [imageDirectory_eq, Path.steps_join (isName_directoryName index)]
      simp
    exact (Disk.leadsToDirectory_of_makeDirectories hsteps (congrArg Prod.fst hmade)).1
  obtain ⟨himagePath, hfits, base, hdirectory, hfree, rfl⟩ :=
    hasDirectory_of_write isName_imageName hpicture
  obtain ⟨hdetailsPath, hfits', base', hdirectory', hfree', -⟩ :=
    hasDirectory_of_write (isName_detailsName p) hdetails
  -- The picture has not changed where the output directory leads.
  have hkeeps := FileTree.keepsDirectories_put hfree (.picture image)
  have hsame : base' = base := hdirectory'.unique (hdirectory.keeps rfl hkeeps)
  subst hsame
  have hput := made.tree.get?_put_of_ne (detailsPlace_ne_picturePlace index p base')
    (.picture image)
  have hprepared : Prepared made out index p base' :=
    { hdirectory with
      admissible := by
        intro path hpath
        simp only [SavedImage.paths, List.mem_cons, List.not_mem_nil, or_false] at hpath
        rcases hpath with rfl | rfl | rfl
        · exact hdirectoryPath
        · exact himagePath
        · exact hdetailsPath
      fitsPicture := hfits
      fitsDetails := hfits'
      picture := hfree
      details := fun hdirectory => hfree' (hput.trans hdirectory) }
  exact ⟨made, base', hextends.1, hextends.2, hprepared,
    save_of_makeDirectories hmade hprepared image⟩

theorem stored_of_save {saved : SavedImage}
    (h : (save disk out index p image).result = .ok saved) :
    ∃ base, Stored (save disk out index p image).disk out index p image base := by
  obtain ⟨-, hpixels, -⟩ := save_eq_ok h
  obtain ⟨made, base, -, -, hprepared, hsame⟩ := exists_prepared_of_save h
  rw [hsame]
  exact ⟨base, stored_of_prepared hprepared hpixels⟩

/-- What saving does depends on a palette by its tag and its details only. -/
theorem save_congr {q : Palette} (htag : q.tag = p.tag) (hdetails : q.details = p.details)
    (disk : Disk) (out : Path) (index : Nat) (image : Image) :
    save disk out index q image = save disk out index p image := by
  simp only [save, savedImage, detailsPath, detailsName, htag, hdetails]

namespace Stored

theorem holds_picture (h : Stored disk out index p image base) :
    disk.Holds (savedImage out index p).image (.picture image) := by
  refine ⟨picturePlace index base, ?_⟩
  rw [h.find_picture, h.hasPicture]

theorem holds_details (h : Stored disk out index p image base) :
    disk.Holds (savedImage out index p).details (.text p.details) := by
  refine ⟨detailsPlace index p base, ?_⟩
  rw [h.find_details, h.hasDetails]

theorem readDetails (h : Stored disk out index p image base) :
    readDetails disk (savedImage out index p).details = Palette.ofDetails p.details := by
  rw [Storage.readDetails, Disk.readText, h.find_details, h.hasDetails]

/-- Saving once more puts another picture in the place of the first, and that is all. -/
theorem get?_save_of_ne (h : Stored disk out index p image base) (other : Image)
    (hplace : place ≠ picturePlace index base) :
    (save disk out index p other).disk.tree.get? place = disk.tree.get? place := by
  by_cases hpixels : other.HasPixels
  · by_cases hdetails : place = detailsPlace index p base
    · rw [hdetails, (stored_of_prepared h.toPrepared hpixels).hasDetails, h.hasDetails]
    · rw [save_of_prepared h.toPrepared hpixels]
      exact get?_deposit_of_ne hplace hdetails
  · obtain ⟨e, hsave⟩ := save_of_prepared_of_not_hasPixels h.toPrepared hpixels
    rw [hsave]
    exact FileTree.get?_put_of_ne _ hplace _

theorem isSome_get?_save (h : Stored disk out index p image base) (other : Image) :
    ((save disk out index p other).disk.tree.get? (picturePlace index base)).isSome = true := by
  by_cases hpixels : other.HasPixels
  · rw [(stored_of_prepared h.toPrepared hpixels).hasPicture]
    rfl
  · obtain ⟨e, hsave⟩ := save_of_prepared_of_not_hasPixels h.toPrepared hpixels
    rw [hsave]
    exact congrArg Option.isSome (FileTree.get?_put_self_of_ne h.picture _)

theorem sameLocations_save (h : Stored disk out index p image base) (other : Image) :
    disk.tree.SameLocations (save disk out index p other).disk.tree := by
  intro place
  by_cases hpicture : place = picturePlace index base
  · rw [hpicture, h.isSome_get?_save other, h.hasPicture]
    rfl
  · rw [h.get?_save_of_ne other hpicture]

end Stored

end TrigPainting.Storage
