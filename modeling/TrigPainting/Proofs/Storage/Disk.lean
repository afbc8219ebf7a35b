import TrigPainting.Proofs.Storage.Directory

/-!
# Finding and writing files

A path is followed from the working directory or from the root. What it leads to is found
and replaced there, unless the system refuses the path at once.

## Main definitions

- `Path.IsAdmissible`, `Disk.start` — when a path is followed, and from where
- `Disk.Holds` — what is found at a path

## Main statements

- `Disk.find_eq_ok_iff` — what is found at the path of a file
- `Disk.write_of_find`, `Disk.find_of_write` — a file is written to where it is found
- `Disk.writePicture_eq_ok_iff`, `Disk.writePicture_eq_error` — the file of a picture, and
  what is left if it cannot be written
- `Disk.leadsToDirectory_of_makeDirectories` — directories that could be made
-/

namespace TrigPainting.Storage

/-- A path that the system does not refuse before it looks for anything. -/
structure Path.IsAdmissible (path : Path) : Prop where
  noNul : '\x00' ∉ path.text.toList
  nonempty : path.text ≠ ""
  short : path.text.utf8ByteSize < 4096

namespace Disk

/-- The location that the steps of a path start from. -/
def start (disk : Disk) (path : Path) : Location :=
  if path.isAbsolute then [] else disk.here

/-- A path leads to an entry. -/
def Holds (disk : Disk) (path : Path) (entry : Entry) : Prop :=
  ∃ place, disk.find path = .ok (place, some entry)

variable {disk : Disk} {path : Path} {place : Location}

-- ════════════════════════════════════════════════════════════════════════
-- Finding and writing
-- ════════════════════════════════════════════════════════════════════════

theorem origin_eq_ok_iff : disk.origin path = .ok place ↔
    path.IsAdmissible ∧ disk.start path = place := by
  have hempty : path.text.isEmpty = true ↔ path.text = "" := String.isEmpty_iff
  rw [origin]
  constructor
  · intro h
    split at h
    · cases h
    · rename_i hnul
      split at h
      · cases h
      · rename_i hnonempty
        split at h
        · cases h
        · rename_i hlong
          cases h
          exact ⟨⟨by simpa using hnul, by simpa [hempty] using hnonempty, by omega⟩, rfl⟩
  · rintro ⟨⟨hnul, hnonempty, hshort⟩, rfl⟩
    rw [if_neg (by simpa using hnul), if_neg (by simpa [hempty] using hnonempty),
      if_neg (by omega)]
    rfl

theorem origin_of_isAdmissible (disk : Disk) (h : path.IsAdmissible) :
    disk.origin path = .ok (disk.start path) :=
  origin_eq_ok_iff.mpr ⟨h, rfl⟩

theorem find_of_walk (hpath : path.endsInDirectory = false) (hadmissible : path.IsAdmissible)
    (hwalk : disk.tree.walk (disk.start path) path.steps = .ok place) :
    disk.find path = .ok (place, disk.tree.get? place) := by
  simp only [find, disk.origin_of_isAdmissible hadmissible, hwalk]
  cases disk.tree.get? place with
  | none => rfl
  | some entry => cases entry <;> simp [hpath]

theorem walk_of_find {found : Option Entry} (h : disk.find path = .ok (place, found)) :
    path.IsAdmissible ∧ disk.tree.walk (disk.start path) path.steps = .ok place := by
  rw [find] at h
  split at h
  · cases h
  · rename_i location horigin
    obtain ⟨hadmissible, rfl⟩ := origin_eq_ok_iff.mp horigin
    refine ⟨hadmissible, ?_⟩
    split at h
    · cases h
    · rename_i target hwalk
      have htarget : target = place := by
        split at h
        · cases h
          rfl
        · split at h
          · cases h
          · cases h
            rfl
        · cases h
          rfl
      rw [hwalk, htarget]

theorem find_eq_ok_iff {found : Option Entry} (hpath : path.endsInDirectory = false) :
    disk.find path = .ok (place, found) ↔ path.IsAdmissible ∧
      disk.tree.walk (disk.start path) path.steps = .ok place ∧ disk.tree.get? place = found := by
  constructor
  · intro h
    obtain ⟨hadmissible, hwalk⟩ := walk_of_find h
    refine ⟨hadmissible, hwalk, ?_⟩
    rw [find_of_walk hpath hadmissible hwalk] at h
    cases h
    rfl
  · rintro ⟨hadmissible, hwalk, rfl⟩
    exact find_of_walk hpath hadmissible hwalk

theorem write_of_find {found : Option Entry} (h : disk.find path = .ok (place, found))
    (hfound : found ≠ some .directory) (file : Entry) :
    disk.write path file = .ok { disk with tree := disk.tree.put place file } := by
  rw [write, h]
  cases found with
  | none => rfl
  | some entry => cases entry <;> first | rfl | exact absurd rfl hfound

theorem find_of_write {file : Entry} {after : Disk} (h : disk.write path file = .ok after) :
    ∃ place found, disk.find path = .ok (place, found) ∧ found ≠ some .directory ∧
      after = { disk with tree := disk.tree.put place file } := by
  rw [write] at h
  split at h
  · cases h
  · cases h
  · rename_i place found hnot hfind
    cases h
    exact ⟨place, found, hfind, hnot, rfl⟩

/-- A picture is written if it has pixels and a file may be written in its place. -/
theorem writePicture_eq_ok_iff {image : Image} {after : Disk} :
    disk.writePicture path image = (.ok (), after) ↔
      image.HasPixels ∧ disk.write path (.picture image) = .ok after := by
  rw [writePicture, ← image.checkFormat_eq_ok_iff]
  cases image.checkFormat with
  | error e => cases hwrite : disk.write path (.text "") <;> simp [hwrite]
  | ok _ => cases hwrite : disk.write path (.picture image) <;> simp [hwrite]

/-- A picture that could not be written has left nothing, or an empty file if it has no
pixels. -/
theorem writePicture_eq_error {image : Image} {e : Failure} {after : Disk}
    (h : disk.writePicture path image = (.error e, after)) :
    after = disk ∨ ¬ image.HasPixels ∧ disk.write path (.text "") = .ok after := by
  rw [writePicture] at h
  rw [← image.checkFormat_eq_ok_iff]
  cases hformat : image.checkFormat with
  | error cause =>
    rw [hformat] at h
    cases hwrite : disk.write path (.text "") <;> simp_all
  | ok _ =>
    rw [hformat] at h
    cases hwrite : disk.write path (.picture image) <;> simp_all

/-- A picture without pixels fails, and its file is there. -/
theorem writePicture_of_not_hasPixels {image : Image} {after : Disk} (h : ¬ image.HasPixels)
    (hwrite : disk.write path (.text "") = .ok after) :
    ∃ e, disk.writePicture path image = (.error e, after) := by
  rw [← image.checkFormat_eq_ok_iff] at h
  rw [writePicture]
  cases hformat : image.checkFormat with
  | error e => exact ⟨.other e.message, by simp only [hwrite]⟩
  | ok _ => exact absurd hformat h

theorem makeDirectories_extends (disk : Disk) (path : Path) :
    disk.tree.Extends (disk.makeDirectories path).2.tree ∧
      (disk.makeDirectories path).2.here = disk.here := by
  rw [makeDirectories]
  split
  · exact ⟨.refl _, rfl⟩
  · exact ⟨FileTree.makeDirectoriesAt_extends _ _ _, rfl⟩

theorem leadsToDirectory_of_makeDirectories (hsteps : path.steps ≠ [])
    (h : (disk.makeDirectories path).1 = .ok ()) : path.IsAdmissible ∧
      (disk.makeDirectories path).2.tree.LeadsToDirectory (disk.start path) path.steps := by
  rw [makeDirectories] at h ⊢
  cases horigin : disk.origin path with
  | error e =>
    rw [horigin] at h
    cases h
  | ok location =>
    obtain ⟨hadmissible, rfl⟩ := origin_eq_ok_iff.mp horigin
    rw [horigin] at h
    have hmade := FileTree.leadsToDirectory_of_makeDirectoriesAt (by simpa using hsteps) h
    rw [List.reverse_reverse] at hmade
    exact ⟨hadmissible, hmade⟩

theorem makeDirectories_of_leadsToDirectory (hadmissible : path.IsAdmissible)
    (h : disk.tree.LeadsToDirectory (disk.start path) path.steps) :
    disk.makeDirectories path = (.ok (), disk) := by
  rw [← List.reverse_reverse path.steps] at h
  have hmade := FileTree.makeDirectoriesAt_of_leadsToDirectory h
  simp only [makeDirectories, disk.origin_of_isAdmissible hadmissible, hmade]

theorem start_congr {other : Disk} (h : other.here = disk.here) (path : Path) :
    other.start path = disk.start path := by
  rw [start, start, h]

end Disk

end TrigPainting.Storage
