import TrigPainting.Proofs.Storage.Footprint

/-!
# When directories can be made

Steps come to places, and nothing but a directory may lie at any of them. What is missing is made
on the way, so the steps lead to a directory exactly if no file is in the way and no name is too
long. It makes no difference how many of the directories are missing, nor in which order the steps
go up and down.

## Main definitions

- `FileTree.IsClear` — no file and no name is in the way of steps

## Main statements

- `FileTree.walk_of_isClear` — a walk on a clear way comes to its end or to what is missing
- `FileTree.LeadsToDirectory.get?_of_onTheWay` — a way that leads to a directory is all made
- `FileTree.makeDirectoriesAt_eq_ok_iff` — when directories can be made
-/

namespace TrigPainting.Storage

/-- **A clear way**: what lies at the places that steps come to are directories, and the names of
the steps are not too long. -/
structure FileTree.IsClear (tree : FileTree) (location : Location) (steps : List Step) : Prop where
  free : ∀ place, OnTheWay location steps place →
    tree.get? place = none ∨ tree.get? place = some .directory
  fits : ∀ name, Step.down name ∈ steps → name.utf8ByteSize ≤ 255

variable {location place : Location} {step : Step} {steps : List Step}

theorem onTheWay_start (location : Location) (steps : List Step) :
    OnTheWay location steps location :=
  ⟨[], List.nil_prefix, rfl⟩

theorem OnTheWay.cons (h : OnTheWay (step.follow location) steps place) :
    OnTheWay location (step :: steps) place := by
  obtain ⟨way, hway, rfl⟩ := h
  exact ⟨step :: way, List.cons_prefix_cons.mpr ⟨rfl, hway⟩, rfl⟩

namespace FileTree

variable {tree other : FileTree} {way : List Step} {ways : Location → Prop}

-- ════════════════════════════════════════════════════════════════════════
-- Clear ways
-- ════════════════════════════════════════════════════════════════════════

theorem walk_cons_of_directory (hdirectory : tree.get? location = some .directory)
    (hfits : ∀ name, step = .down name → name.utf8ByteSize ≤ 255) (steps : List Step) :
    tree.walk location (step :: steps) = tree.walk (step.follow location) steps := by
  cases step with
  | up => simp only [walk, hdirectory, Step.follow]
  | down name =>
    have hshort : ¬ 255 < name.utf8ByteSize := Nat.not_lt_of_le (hfits name rfl)
    simp only [walk, hdirectory, Step.follow, if_neg hshort]

theorem fits_of_walk (h : tree.walk location steps = .ok place) (name : String)
    (hname : Step.down name ∈ steps) : name.utf8ByteSize ≤ 255 := by
  induction steps generalizing location with
  | nil => cases hname
  | cons step rest ih =>
    obtain ⟨-, next, hnext, hrest⟩ := walk_cons_eq_ok_iff.mp h
    rcases List.mem_cons.mp hname with rfl | hmem
    · by_cases hlong : 255 < name.utf8ByteSize
      · simp [Step.next?, hlong] at hnext
      · exact Nat.le_of_not_lt hlong
    · exact ih hrest hmem

/-- Every place on a way that leads to a directory is a directory. -/
theorem LeadsToDirectory.get?_of_onTheWay (h : tree.LeadsToDirectory location steps)
    (hplace : OnTheWay location steps place) : tree.get? place = some .directory := by
  obtain ⟨target, hwalk, hdirectory⟩ := h
  obtain ⟨way, ⟨more, rfl⟩, rfl⟩ := hplace
  obtain ⟨place, hway, hmore⟩ := walk_append_eq_ok_iff.mp hwalk
  rw [← lead_of_walk hway]
  cases more with
  | nil =>
    cases hmore
    exact hdirectory
  | cons step more => exact (walk_cons_eq_ok_iff.mp hmore).1

/-- From a directory that steps lead to, one more step can be made. -/
theorem LeadsToDirectory.walk_concat (h : tree.LeadsToDirectory location steps)
    (hfits : ∀ name, step = .down name → name.utf8ByteSize ≤ 255) :
    tree.walk location (steps ++ [step]) = .ok (location.lead (steps ++ [step])) := by
  obtain ⟨place, hplace, hdirectory⟩ := h
  rw [Location.lead_append, ← lead_of_walk hplace]
  refine walk_append_eq_ok_iff.mpr ⟨place, hplace, ?_⟩
  rw [walk_cons_of_directory hdirectory hfits]
  rfl

namespace IsClear

theorem of_append {more : List Step} (h : tree.IsClear location (steps ++ more)) :
    tree.IsClear location steps where
  free place hplace := h.free place (hplace.append more)
  fits name hname := h.fits name (List.mem_append_left more hname)

theorem tail (h : tree.IsClear location (step :: steps)) :
    tree.IsClear (step.follow location) steps where
  free place hplace := h.free place hplace.cons
  fits name hname := h.fits name (List.mem_cons_of_mem step hname)

/-- Making directories does not put anything in the way. -/
theorem of_touches (h : tree.IsClear location steps)
    (htouches : tree.Touches ways (fun _ => False) other) : other.IsClear location steps := by
  refine ⟨fun place hplace => ?_, h.fits⟩
  rcases htouches place with hsame | ⟨-, -, hmade⟩ | ⟨hfile, -⟩
  · rw [hsame]
    exact h.free place hplace
  · exact .inr hmade
  · exact hfile.elim

end IsClear

theorem walk_of_isClear (h : tree.IsClear location steps) :
    tree.walk location steps = .ok (location.lead steps) ∨
      tree.walk location steps = .error .notFound := by
  induction steps generalizing location with
  | nil => exact .inl rfl
  | cons step rest ih =>
    rcases h.free location (onTheWay_start ..) with hnone | hdirectory
    · right
      simp only [walk, hnone]
    · have hfits : ∀ name, step = .down name → name.utf8ByteSize ≤ 255 := by
        rintro name rfl
        exact h.fits name (List.mem_cons_self ..)
      rw [walk_cons_of_directory hdirectory hfits]
      exact ih h.tail

-- ════════════════════════════════════════════════════════════════════════
-- Making directories
-- ════════════════════════════════════════════════════════════════════════

theorem settleDirectoryAt_of_walk (h : tree.IsClear location steps)
    (hwalk : tree.walk location steps = .ok (location.lead steps)) :
    ∃ settled, tree.settleDirectoryAt location steps = .ok settled := by
  rcases h.free _ (onTheWay_lead location steps) with hnone | hdirectory
  · refine ⟨tree.put (location.lead steps) .directory, ?_⟩
    simp only [settleDirectoryAt, makeDirectoryAt, hwalk, hnone]
  · exact ⟨tree, settleDirectoryAt_of_leadsToDirectory ⟨_, hwalk, hdirectory⟩⟩

theorem settleDirectoryAt_of_walk_eq_notFound
    (hwalk : tree.walk location steps = .error .notFound) :
    tree.settleDirectoryAt location steps = .error .notFound := by
  simp [settleDirectoryAt, makeDirectoryAt, isDirectoryAt, hwalk]

/-- Nothing is made from a place that is missing. -/
theorem makeDirectoriesAt_of_get?_eq_none (h : tree.get? location = none) (hway : way ≠ []) :
    tree.makeDirectoriesAt location way = (.error .notFound, tree) := by
  induction way with
  | nil => exact absurd rfl hway
  | cons last way ih =>
    have hwalk : tree.walk location (last :: way).reverse = .error .notFound := by
      obtain ⟨step, rest, hsteps⟩ := List.exists_cons_of_ne_nil (List.reverse_ne_nil_iff.mpr hway)
      rw [hsteps]
      simp only [walk, h]
    have hsettled := settleDirectoryAt_of_walk_eq_notFound hwalk
    rw [makeDirectoriesAt]
    simp only [hsettled]
    by_cases hrest : way = []
    · subst hrest
      simp only [makeDirectoriesAt, hsettled]
    · simp only [ih hrest]

theorem makeDirectoriesAt_of_isClear (hstart : tree.get? location = some .directory)
    (h : tree.IsClear location way.reverse) :
    (tree.makeDirectoriesAt location way).1 = .ok () := by
  induction way with
  | nil => rfl
  | cons last way ih =>
    rw [makeDirectoriesAt]
    rcases walk_of_isClear h with hwalk | hwalk
    · obtain ⟨settled, hsettled⟩ := settleDirectoryAt_of_walk h hwalk
      simp only [hsettled]
    · -- Something is missing, so the way up to the last step is made first.
      rw [List.reverse_cons] at h
      have hmade := ih h.of_append
      have htouches := tree.makeDirectoriesAt_touches (fun _ => False) location way
      have hleads : (tree.makeDirectoriesAt location way).2.LeadsToDirectory location
          way.reverse := by
        by_cases hway : way = []
        · subst hway
          exact ⟨location, rfl, hstart⟩
        · exact leadsToDirectory_of_makeDirectoriesAt hway hmade
      cases hmake : tree.makeDirectoriesAt location way with
      | mk result made =>
        rw [hmake] at hmade htouches hleads
        subst hmade
        have hwalk' : made.walk location (way.reverse ++ [last]) =
            .ok (location.lead (way.reverse ++ [last])) := by
          apply hleads.walk_concat
          rintro name rfl
          exact h.fits name (by simp)
        obtain ⟨settled, hsettled⟩ := settleDirectoryAt_of_walk (h.of_touches htouches) hwalk'
        rw [← List.reverse_cons] at hsettled
        simp only [settleDirectoryAt_of_walk_eq_notFound hwalk, hsettled]

/-- **When directories can be made**: from a directory, on a clear way. -/
theorem makeDirectoriesAt_eq_ok_iff (hway : way ≠ []) :
    (tree.makeDirectoriesAt location way).1 = .ok () ↔
      tree.get? location = some .directory ∧ tree.IsClear location way.reverse := by
  refine ⟨fun h => ?_, fun h => makeDirectoriesAt_of_isClear h.1 h.2⟩
  have hleads := leadsToDirectory_of_makeDirectoriesAt hway h
  have htouches := tree.makeDirectoriesAt_touches (fun _ => False) location way
  have hfree : ∀ place, OnTheWay location way.reverse place →
      tree.get? place = none ∨ tree.get? place = some .directory := by
    intro place hplace
    rcases htouches place with hsame | ⟨-, hnone, -⟩ | ⟨hfile, -⟩
    · rw [← hsame]
      exact .inr (hleads.get?_of_onTheWay hplace)
    · exact .inl hnone
    · exact hfile.elim
  obtain ⟨place, hwalk, -⟩ := hleads
  refine ⟨?_, hfree, fits_of_walk hwalk⟩
  refine (hfree location (onTheWay_start ..)).resolve_left fun hnone => ?_
  rw [makeDirectoriesAt_of_get?_eq_none hnone hway] at h
  cases h

end FileTree

/-- Directories on a path can be made if the system follows the path and its way is clear. -/
theorem Disk.makeDirectories_eq_ok_iff {disk : Disk} {path : Path} (hsteps : path.steps ≠ []) :
    (disk.makeDirectories path).1 = .ok () ↔ path.IsAdmissible ∧
      disk.tree.get? (disk.start path) = some .directory ∧
        disk.tree.IsClear (disk.start path) path.steps := by
  have hway : path.steps.reverse ≠ [] := List.reverse_ne_nil_iff.mpr hsteps
  have hmade : (disk.tree.makeDirectoriesAt (disk.start path) path.steps.reverse).1 = .ok () ↔ _ :=
    FileTree.makeDirectoriesAt_eq_ok_iff hway
  rw [List.reverse_reverse] at hmade
  rw [← hmade, makeDirectories]
  cases horigin : disk.origin path with
  | error e =>
    have hnot : ¬ path.IsAdmissible := by
      intro hadmissible
      rw [disk.origin_of_isAdmissible hadmissible] at horigin
      cases horigin
    simp [hnot]
  | ok location =>
    obtain ⟨hadmissible, rfl⟩ := origin_eq_ok_iff.mp horigin
    simp [hadmissible]

end TrigPainting.Storage
