import TrigPainting.Storage.FileTree

/-!
# Walking and making directories

A walk asks only for directories, so it leads to the same place in every tree that keeps
the directories of another one. What commands put into a tree never takes the place of a
directory. That is why a path that has led somewhere goes on leading there.

## Main definitions

- `Step.next?` — where a step leads
- `FileTree.KeepsDirectories` — every directory of a tree is one of another tree
- `FileTree.Extends` — every entry of a tree is in another tree
- `FileTree.SameLocations` — the locations with an entry are the same
- `FileTree.LeadsToDirectory` — steps lead to a directory

## Main statements

- `FileTree.walk_cons_eq_ok_iff`, `FileTree.walk_append_eq_ok_iff` — one step, and a walk in
  two parts
- `FileTree.KeepsDirectories.walk` — walks in a tree that keeps the directories
- `FileTree.makeDirectoriesAt_extends`, `FileTree.leadsToDirectory_of_makeDirectoriesAt` — what
  making directories does to a tree
-/

namespace TrigPainting.Storage

/-- Where a step leads from a directory, unless its name is too long. -/
def Step.next? (location : Location) : Step → Option Location
  | up => some location.tail
  | down name => if 255 < name.utf8ByteSize then none else some (name :: location)

namespace FileTree

/-- Every directory of a tree is a directory of another tree. -/
def KeepsDirectories (tree other : FileTree) : Prop :=
  ∀ location, tree.get? location = some .directory → other.get? location = some .directory

/-- Every entry of a tree lies in another tree at its place. -/
def Extends (tree other : FileTree) : Prop :=
  ∀ location entry, tree.get? location = some entry → other.get? location = some entry

/-- Entries lie at the same locations of two trees. -/
def SameLocations (tree other : FileTree) : Prop :=
  ∀ location, (other.get? location).isSome = (tree.get? location).isSome

/-- Steps from a location lead to a directory. -/
def LeadsToDirectory (tree : FileTree) (location : Location) (steps : List Step) : Prop :=
  ∃ place, tree.walk location steps = .ok place ∧ tree.get? place = some .directory

variable {tree other third : FileTree} {location place : Location} {steps : List Step}
  {entry : Entry}

-- ════════════════════════════════════════════════════════════════════════
-- Trees that keep what they have
-- ════════════════════════════════════════════════════════════════════════

theorem Extends.refl (tree : FileTree) : tree.Extends tree :=
  fun _ _ h => h

theorem Extends.trans (h : tree.Extends other) (h' : other.Extends third) : tree.Extends third :=
  fun location entry hentry => h' location entry (h location entry hentry)

theorem Extends.keepsDirectories (h : tree.Extends other) : tree.KeepsDirectories other :=
  fun location hdirectory => h location .directory hdirectory

theorem extends_put (h : tree.get? place = none) (entry : Entry) :
    tree.Extends (tree.put place entry) := by
  intro location old hold
  have hne : location ≠ place := by
    rintro rfl
    rw [h] at hold
    cases hold
  rwa [get?_put_of_ne tree hne]

theorem keepsDirectories_put (h : tree.get? place ≠ some .directory) (entry : Entry) :
    tree.KeepsDirectories (tree.put place entry) := by
  intro location hdirectory
  have hne : location ≠ place := by
    rintro rfl
    exact h hdirectory
  rwa [get?_put_of_ne tree hne]

/-- Only the root has no place to be put to, and the root is a directory. -/
theorem get?_put_self_of_ne (h : tree.get? place ≠ some .directory) (entry : Entry) :
    (tree.put place entry).get? place = some entry := by
  refine tree.get?_put_self ?_ entry
  rintro rfl
  exact h rfl

-- ════════════════════════════════════════════════════════════════════════
-- Walks
-- ════════════════════════════════════════════════════════════════════════

/-- **Inversion**: a step is made from a directory, up or to a name that is not too long. -/
theorem walk_cons_eq_ok_iff {step : Step} {target : Location} :
    tree.walk location (step :: steps) = .ok target ↔
      tree.get? location = some .directory ∧
        ∃ next ∈ step.next? location, tree.walk next steps = .ok target := by
  rw [walk.eq_def]
  dsimp only
  split
  · rename_i hnone
    simp [hnone]
  · rename_i hdirectory
    cases step with
    | up => simp [hdirectory, Step.next?]
    | down name =>
      by_cases hlong : 255 < name.utf8ByteSize
      · simp [Step.next?, hlong]
      · simp [hdirectory, Step.next?, hlong]
  · rename_i found hnot hfound
    have hdirectory : found ≠ .directory := by
      rintro rfl
      exact hnot rfl
    simp [hfound, hdirectory]

theorem walk_append_eq_ok_iff {more : List Step} {target : Location} :
    tree.walk location (steps ++ more) = .ok target ↔
      ∃ place, tree.walk location steps = .ok place ∧ tree.walk place more = .ok target := by
  induction steps generalizing location with
  | nil => simp [walk]
  | cons step rest ih =>
    simp only [List.cons_append, walk_cons_eq_ok_iff, ih]
    constructor
    · rintro ⟨hdirectory, next, hnext, place, hwalk, hmore⟩
      exact ⟨place, ⟨hdirectory, next, hnext, hwalk⟩, hmore⟩
    · rintro ⟨place, ⟨hdirectory, next, hnext, hwalk⟩, hmore⟩
      exact ⟨hdirectory, next, hnext, place, hwalk, hmore⟩

theorem walk_down_eq_ok_iff {name : String} {target : Location} :
    tree.walk location (steps ++ [.down name]) = .ok target ↔
      ∃ place, tree.walk location steps = .ok place ∧ tree.get? place = some .directory ∧
        name.utf8ByteSize ≤ 255 ∧ target = name :: place := by
  rw [walk_append_eq_ok_iff]
  refine exists_congr fun place => and_congr_right fun _ => ?_
  rw [walk_cons_eq_ok_iff]
  refine and_congr_right fun _ => ?_
  by_cases hlong : 255 < name.utf8ByteSize
  · simp [Step.next?, hlong, Nat.not_le_of_lt hlong]
  · simp [Step.next?, hlong, Nat.le_of_not_lt hlong, walk, eq_comm]

theorem KeepsDirectories.walk (h : tree.KeepsDirectories other)
    (hwalk : tree.walk location steps = .ok place) : other.walk location steps = .ok place := by
  induction steps generalizing location with
  | nil => exact hwalk
  | cons step rest ih =>
    obtain ⟨hdirectory, next, hnext, hrest⟩ := walk_cons_eq_ok_iff.mp hwalk
    exact walk_cons_eq_ok_iff.mpr ⟨h location hdirectory, next, hnext, ih hrest⟩

-- ════════════════════════════════════════════════════════════════════════
-- Making directories
-- ════════════════════════════════════════════════════════════════════════

theorem isDirectoryAt_iff :
    tree.isDirectoryAt location steps = true ↔ tree.LeadsToDirectory location steps := by
  rw [isDirectoryAt, LeadsToDirectory]
  cases tree.walk location steps with
  | error e => simp
  | ok place =>
    simp only [Except.ok.injEq, exists_eq_left']
    split
    · rename_i hdirectory
      simp [hdirectory]
    · rename_i hnot
      simpa using hnot

theorem makeDirectoryAt_eq_ok_iff :
    tree.makeDirectoryAt location steps = .ok other ↔
      ∃ place, tree.walk location steps = .ok place ∧ tree.get? place = none ∧
        other = tree.put place .directory := by
  rw [makeDirectoryAt]
  cases tree.walk location steps with
  | error e => simp
  | ok place =>
    simp only [Except.ok.injEq, exists_eq_left']
    cases tree.get? place with
    | none => simp [eq_comm]
    | some entry => simp

/-- A directory that was made or found is where the steps lead, and nothing else has
changed. -/
theorem settleDirectoryAt_ok (h : tree.settleDirectoryAt location steps = .ok other) :
    tree.Extends other ∧ other.LeadsToDirectory location steps := by
  rw [settleDirectoryAt] at h
  split at h
  · rename_i made hmade
    cases h
    obtain ⟨place, hwalk, hnone, rfl⟩ := makeDirectoryAt_eq_ok_iff.mp hmade
    have hextends := extends_put hnone .directory
    refine ⟨hextends, place, hextends.keepsDirectories.walk hwalk, ?_⟩
    exact get?_put_self_of_ne (by simp [hnone]) .directory
  · split at h
    · rename_i hfound
      cases h
      exact ⟨.refl tree, isDirectoryAt_iff.mp hfound⟩
    · cases h

theorem settleDirectoryAt_of_leadsToDirectory (h : tree.LeadsToDirectory location steps) :
    tree.settleDirectoryAt location steps = .ok tree := by
  have hfound := isDirectoryAt_iff.mpr h
  obtain ⟨place, hwalk, hdirectory⟩ := h
  simp only [settleDirectoryAt, makeDirectoryAt, hwalk, hdirectory, hfound, if_true]

/-- Whether all directories could be made or not, nothing was put in the place of an entry. -/
theorem makeDirectoriesAt_extends (tree : FileTree) (location : Location) (way : List Step) :
    tree.Extends (tree.makeDirectoriesAt location way).2 := by
  induction way with
  | nil => exact .refl tree
  | cons last way ih =>
    rw [makeDirectoriesAt]
    split
    · rename_i made hmade
      exact (settleDirectoryAt_ok hmade).1
    · split
      · rename_i e made hmade
        rw [hmade] at ih
        exact ih
      · rename_i made hmade
        rw [hmade] at ih
        split
        · rename_i last hlast
          exact ih.trans (settleDirectoryAt_ok hlast).1
        · exact ih
    · exact .refl tree

theorem leadsToDirectory_of_makeDirectoriesAt {way : List Step} (hway : way ≠ [])
    (h : (tree.makeDirectoriesAt location way).1 = .ok ()) :
    (tree.makeDirectoriesAt location way).2.LeadsToDirectory location way.reverse := by
  cases way with
  | nil => exact absurd rfl hway
  | cons last way =>
    rw [makeDirectoriesAt] at h ⊢
    split at h
    · rename_i made hmade
      exact (settleDirectoryAt_ok hmade).2
    · split at h
      · cases h
      · split at h
        · rename_i made hmade
          exact (settleDirectoryAt_ok hmade).2
        · cases h
    · cases h

theorem makeDirectoriesAt_of_leadsToDirectory {way : List Step}
    (h : tree.LeadsToDirectory location way.reverse) :
    tree.makeDirectoriesAt location way = (.ok (), tree) := by
  cases way with
  | nil => rfl
  | cons last way =>
    rw [makeDirectoriesAt]
    simp only [settleDirectoryAt_of_leadsToDirectory h]

end FileTree

end TrigPainting.Storage
