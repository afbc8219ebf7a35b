import TrigPainting.Proofs.Storage.Save

/-!
# What saving leaves alone

Saving makes directories on the way of its path and writes the two files of its index. That is
all it does to a disk, and what is left of it when it fails is a part of that. Where the way goes
is known from the names of the path alone, for a walk that succeeds follows them.

## Main definitions

- `Location.lead` — where steps lead by their names
- `OnTheWay` — the locations that steps come to
- `FileTree.Touches` — a tree differs from another by directories on a way and by files
- `SaveTouches` — a disk differs from another by what saving may change

## Main statements

- `FileTree.lead_of_walk` — walks lead where names lead
- `FileTree.makeDirectoriesAt_touches`, `save_touches` — what is touched, also in failure
- `Stored.save_other` — files that were written stay when another index is saved
-/

namespace TrigPainting.Storage

/-- Where a step leads by its name, whatever lies there. -/
def Step.follow (location : Location) : Step → Location
  | up => location.tail
  | down name => name :: location

/-- Where steps lead by their names. -/
def Location.lead (location : Location) (steps : List Step) : Location :=
  steps.foldl Step.follow location

/-- Steps come to a place. -/
def OnTheWay (location : Location) (steps : List Step) (place : Location) : Prop :=
  ∃ way, way <+: steps ∧ place = location.lead way

/-- **Little has changed**: where the entry of a tree is not that of another tree, there was
nothing and is a directory on one of the `ways`, or it is the place of one of the `files` and
was no directory. -/
def FileTree.Touches (ways files : Location → Prop) (tree other : FileTree) : Prop :=
  ∀ place, other.get? place = tree.get? place ∨
    ways place ∧ tree.get? place = none ∧ other.get? place = some .directory ∨
    files place ∧ tree.get? place ≠ some .directory

variable {location place : Location} {steps : List Step}

-- ════════════════════════════════════════════════════════════════════════
-- Ways
-- ════════════════════════════════════════════════════════════════════════

theorem Location.lead_append (location : Location) (steps more : List Step) :
    location.lead (steps ++ more) = (location.lead steps).lead more :=
  List.foldl_append ..

theorem onTheWay_lead (location : Location) (steps : List Step) :
    OnTheWay location steps (location.lead steps) :=
  ⟨steps, List.prefix_rfl, rfl⟩

theorem OnTheWay.append (h : OnTheWay location steps place) (more : List Step) :
    OnTheWay location (steps ++ more) place := by
  obtain ⟨way, hway, hplace⟩ := h
  exact ⟨way, hway.trans (List.prefix_append ..), hplace⟩

theorem onTheWay_down {name : String} (h : OnTheWay location (steps ++ [.down name]) place) :
    OnTheWay location steps place ∨ place = name :: location.lead steps := by
  obtain ⟨way, hway, rfl⟩ := h
  rcases List.prefix_concat_iff.mp hway with rfl | hway
  · exact .inr (Location.lead_append ..)
  · exact .inl ⟨way, hway, rfl⟩

/-- Steps that never go up come to no place below the one that they lead to. -/
theorem OnTheWay.suffix_of_up_not_mem (hup : Step.up ∉ steps) (h : OnTheWay location steps place) :
    place <:+ location.lead steps := by
  obtain ⟨way, ⟨more, rfl⟩, rfl⟩ := h
  rw [List.mem_append, not_or] at hup
  rw [Location.lead_append]
  generalize location.lead way = passed
  have hmore := hup.2
  clear hup
  induction more generalizing passed with
  | nil => exact List.suffix_rfl
  | cons step more ih =>
    rw [List.mem_cons, not_or] at hmore
    cases step with
    | up => exact absurd rfl hmore.1
    | down name => exact (List.suffix_cons ..).trans (ih (name :: passed) hmore.2)

namespace FileTree

variable {tree other third : FileTree} {ways files : Location → Prop}

theorem lead_of_walk (h : tree.walk location steps = .ok place) : place = location.lead steps := by
  induction steps generalizing location with
  | nil =>
    cases h
    rfl
  | cons step rest ih =>
    obtain ⟨-, next, hnext, hrest⟩ := walk_cons_eq_ok_iff.mp h
    have hfollow : next = step.follow location := by
      cases step with
      | up => simpa [Step.next?, Step.follow, eq_comm] using hnext
      | down name =>
        rw [Option.mem_def, Step.next?] at hnext
        split at hnext
        · cases hnext
        · cases hnext
          rfl
    rw [ih hrest, hfollow]
    rfl

-- ════════════════════════════════════════════════════════════════════════
-- What is touched
-- ════════════════════════════════════════════════════════════════════════

namespace Touches

theorem refl (tree : FileTree) : tree.Touches ways files tree :=
  fun _ => .inl rfl

theorem trans (h : tree.Touches ways files other) (h' : other.Touches ways files third) :
    tree.Touches ways files third := by
  intro place
  rcases h place with hsame | ⟨hway, hnone, hmade⟩ | hfile
  · have hnext := h' place
    rwa [hsame] at hnext
  · -- A directory stays.
    rcases h' place with hsame | ⟨-, hnone', -⟩ | ⟨-, hnot⟩
    · exact .inr (.inl ⟨hway, hnone, hsame.trans hmade⟩)
    · simp [hmade] at hnone'
    · exact absurd hmade hnot
  · exact .inr (.inr hfile)

theorem mono {ways' files' : Location → Prop} (h : tree.Touches ways files other)
    (hways : ∀ place, ways place → ways' place) (hfiles : ∀ place, files place → files' place) :
    tree.Touches ways' files' other := by
  intro place
  rcases h place with hsame | ⟨hway, hrest⟩ | ⟨hfile, hnot⟩
  · exact .inl hsame
  · exact .inr (.inl ⟨hways place hway, hrest⟩)
  · exact .inr (.inr ⟨hfiles place hfile, hnot⟩)

theorem get?_eq_some (h : tree.Touches ways files other) (hfiles : ¬ files place) {entry : Entry}
    (hentry : tree.get? place = some entry) : other.get? place = some entry := by
  rcases h place with hsame | ⟨-, hnone, -⟩ | ⟨hfile, -⟩
  · exact hsame.trans hentry
  · simp [hentry] at hnone
  · exact absurd hfile hfiles

theorem keepsDirectories (h : tree.Touches ways files other) : tree.KeepsDirectories other := by
  intro place hdirectory
  rcases h place with hsame | ⟨-, hnone, -⟩ | ⟨-, hnot⟩
  · exact hsame.trans hdirectory
  · simp [hdirectory] at hnone
  · exact absurd hdirectory hnot

end Touches

theorem touches_put_directory (hway : ways place) (hnone : tree.get? place = none) :
    tree.Touches ways files (tree.put place .directory) := by
  intro other
  by_cases hother : other = place
  · subst hother
    exact .inr (.inl ⟨hway, hnone, get?_put_self_of_ne (by simp [hnone]) .directory⟩)
  · exact .inl (get?_put_of_ne tree hother .directory)

theorem touches_put_file (hfile : files place) (hnot : tree.get? place ≠ some .directory)
    (entry : Entry) : tree.Touches ways files (tree.put place entry) := by
  intro other
  by_cases hother : other = place
  · subst hother
    exact .inr (.inr ⟨hfile, hnot⟩)
  · exact .inl (get?_put_of_ne tree hother entry)

theorem settleDirectoryAt_touches (h : tree.settleDirectoryAt location steps = .ok other) :
    tree.Touches (OnTheWay location steps) files other := by
  rw [settleDirectoryAt] at h
  split at h
  · rename_i made hmade
    cases h
    obtain ⟨place, hwalk, hnone, rfl⟩ := makeDirectoryAt_eq_ok_iff.mp hmade
    refine touches_put_directory ?_ hnone
    rw [lead_of_walk hwalk]
    exact onTheWay_lead location steps
  · split at h
    · cases h
      exact .refl tree
    · cases h

/-- Whether all directories could be made or not, those that were made are on the way. -/
theorem makeDirectoriesAt_touches (tree : FileTree) (files : Location → Prop)
    (location : Location) (way : List Step) :
    tree.Touches (OnTheWay location way.reverse) files
      (tree.makeDirectoriesAt location way).2 := by
  induction way with
  | nil => exact .refl tree
  | cons last way ih =>
    have hrest : tree.Touches (OnTheWay location (last :: way).reverse) files
        (tree.makeDirectoriesAt location way).2 := by
      rw [List.reverse_cons]
      exact ih.mono (fun _ hplace => hplace.append [last]) fun _ => id
    rw [makeDirectoriesAt]
    split
    · rename_i made hmade
      exact settleDirectoryAt_touches hmade
    · split
      · rename_i e made hmade
        rwa [hmade] at hrest
      · rename_i made hmade
        rw [hmade] at hrest
        split
        · rename_i settled hsettled
          exact hrest.trans (settleDirectoryAt_touches hsettled)
        · exact hrest
    · exact .refl tree

end FileTree

-- ════════════════════════════════════════════════════════════════════════
-- Saving
-- ════════════════════════════════════════════════════════════════════════

variable {disk other : Disk} {out : Path} {index : Nat} {p : Palette} {image : Image}
  {base : Location} {ways files : Location → Prop}

/-- The place of the output directory, by the names on its path. -/
def Disk.outputPlace (disk : Disk) (out : Path) : Location :=
  (disk.start out).lead out.steps

/-- The place of one of the two files of an index. -/
def IsFileOf (index : Nat) (p : Palette) (base place : Location) : Prop :=
  place = picturePlace index base ∨ place = detailsPlace index p base

theorem IsFileOf.index_eq {i : Nat} {place : Location} {name : String}
    (h : IsFileOf i p place (name :: directoryName index :: base)) : index = i := by
  rcases h with heq | heq <;>
    exact directoryName_injective (List.cons.inj (List.cons.inj heq).2).1

/-- All that saving may change of a disk: directories on the way to that of its index, and its
two files. -/
structure SaveTouches (out : Path) (index : Nat) (p : Palette) (disk other : Disk) : Prop where
  here : other.here = disk.here
  tree : disk.tree.Touches (OnTheWay (disk.start out) (imageDirectory out index).steps)
    (IsFileOf index p (disk.outputPlace out)) other.tree

theorem outputPlace_congr (h : other.here = disk.here) (out : Path) :
    other.outputPlace out = disk.outputPlace out := by
  rw [Disk.outputPlace, Disk.outputPlace, Disk.start_congr h]

theorem HasDirectory.base_eq (h : HasDirectory other out index base)
    (hhere : other.here = disk.here) : base = disk.outputPlace out :=
  (FileTree.lead_of_walk h.reached).trans (outputPlace_congr hhere out)

theorem put_of_write {name : String} {file : Entry} {after : Disk} (hname : IsName name)
    (hhere : other.here = disk.here)
    (h : other.write ((imageDirectory out index).join name) file = .ok after) :
    other.tree.get? (name :: directoryName index :: disk.outputPlace out) ≠ some .directory ∧
      after = { other with
        tree := other.tree.put (name :: directoryName index :: disk.outputPlace out) file } := by
  obtain ⟨-, -, base, hdirectory, hnot, hafter⟩ := hasDirectory_of_write hname h
  obtain rfl := hdirectory.base_eq hhere
  exact ⟨hnot, hafter⟩

theorem makeDirectories_touches (disk : Disk) (out : Path) (index : Nat)
    (files : Location → Prop) :
    disk.tree.Touches (OnTheWay (disk.start out) (imageDirectory out index).steps) files
      (disk.makeDirectories (imageDirectory out index)).2.tree := by
  rw [Disk.makeDirectories]
  split
  · exact .refl disk.tree
  · rename_i location horigin
    obtain ⟨-, rfl⟩ := Disk.origin_eq_ok_iff.mp horigin
    have hmade := disk.tree.makeDirectoriesAt_touches files
      (disk.start (imageDirectory out index)) (imageDirectory out index).steps.reverse
    have hstart : disk.start (imageDirectory out index) = disk.start out :=
      Disk.start_join (isName_directoryName index) disk out
    rw [List.reverse_reverse] at hmade
    rw [← hstart]
    exact hmade

theorem SaveTouches.write {name : String} {file : Entry} {after : Disk}
    (h : SaveTouches out index p disk other) (hname : IsName name)
    (hfile : ∀ base, IsFileOf index p base (name :: directoryName index :: base))
    (hwrite : other.write ((imageDirectory out index).join name) file = .ok after) :
    SaveTouches out index p disk after := by
  obtain ⟨hnot, rfl⟩ := put_of_write hname h.here hwrite
  exact ⟨h.here, h.tree.trans (FileTree.touches_put_file (hfile _) hnot file)⟩

/-- **What saving touches**, whether it succeeds or fails. -/
theorem save_touches (disk : Disk) (out : Path) (index : Nat) (p : Palette) (image : Image) :
    SaveTouches out index p disk (save disk out index p image).disk := by
  have hmake : SaveTouches out index p disk
      (disk.makeDirectories (savedImage out index p).directory).2 :=
    ⟨(disk.makeDirectories_extends _).2, makeDirectories_touches disk out index _⟩
  rw [save]
  split
  · rename_i e made hmade
    rwa [hmade] at hmake
  · rename_i made hmade
    rw [hmade] at hmake
    split
    · -- What is left of a picture that could not be written is no more than its file.
      rename_i e half hhalf
      rcases Disk.writePicture_eq_error hhalf with rfl | ⟨-, hempty⟩
      · exact hmake
      · exact hmake.write isName_imageName (fun _ => .inl rfl) hempty
    · rename_i half hhalf
      obtain ⟨-, hwrite⟩ := Disk.writePicture_eq_ok_iff.mp hhalf
      have hpicture := hmake.write isName_imageName (fun _ => .inl rfl) hwrite
      split
      · exact hpicture
      · rename_i after hafter
        exact hpicture.write (isName_detailsName p) (fun _ => .inr rfl) hafter

namespace Stored

theorem of_touches (h : Stored disk out index p image base) (hhere : other.here = disk.here)
    (htouches : disk.tree.Touches ways files other.tree)
    (hpicture : ¬ files (picturePlace index base))
    (hdetails : ¬ files (detailsPlace index p base)) :
    Stored other out index p image base :=
  h.toPrepared.stored hhere htouches.keepsDirectories
    (htouches.get?_eq_some hpicture h.hasPicture) (htouches.get?_eq_some hdetails h.hasDetails)

/-- Files that were written stay when another index is saved, also when that fails. -/
theorem save_other {i : Nat} (h : Stored disk out index p image base) (hne : index ≠ i)
    (q : Palette) (picture : Image) :
    Stored (save disk out i q picture).disk out index p image base := by
  obtain ⟨hhere, htouches⟩ := save_touches disk out i q picture
  have hother : ∀ name, ¬ IsFileOf i q (disk.outputPlace out)
      (name :: directoryName index :: base) := fun name hfile => hne hfile.index_eq
  exact h.of_touches hhere htouches (hother imageName) (hother (detailsName p))

end Stored

end TrigPainting.Storage
