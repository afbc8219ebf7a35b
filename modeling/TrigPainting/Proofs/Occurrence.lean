import Mathlib.Data.List.Basic

/-!
# First and last entries of a list

What is read from a text, and what is said of it when it cannot be read, is settled by
the first or the last of several places.

## Main definitions

- `IsFirst`, `IsLast` — the first and the last entry with a property

## Main statements

- `IsFirst.unique`, `IsLast.unique` — there is at most one of each
- `exists_isFirst` — there is a first entry if there is any
-/

namespace TrigPainting

variable {α : Type}

/-- An entry with a property in front of which no entry has it. -/
def IsFirst (p : α → Prop) (entries : List α) (a : α) : Prop :=
  ∃ before after, entries = before ++ a :: after ∧ p a ∧ ∀ b ∈ before, ¬ p b

/-- An entry with a property after which no entry has it. -/
def IsLast (p : α → Prop) (entries : List α) (a : α) : Prop :=
  ∃ before after, entries = before ++ a :: after ∧ p a ∧ ∀ b ∈ after, ¬ p b

variable {p : α → Prop} {entries : List α} {a b : α}

theorem IsFirst.holds (h : IsFirst p entries a) : p a := by
  obtain ⟨before, after, -, ha, -⟩ := h
  exact ha

theorem IsFirst.mem (h : IsFirst p entries a) : a ∈ entries := by
  obtain ⟨before, after, rfl, -, -⟩ := h
  exact List.mem_append_right _ (List.mem_cons_self ..)

theorem isFirst_iff_find? [DecidablePred p] :
    IsFirst p entries a ↔ entries.find? (fun b => decide (p b)) = some a := by
  rw [List.find?_eq_some_iff_append]
  constructor
  · rintro ⟨before, after, hentries, ha, hbefore⟩
    exact ⟨by simpa using ha, before, after, hentries, by simpa using hbefore⟩
  · rintro ⟨ha, before, after, hentries, hbefore⟩
    exact ⟨before, after, hentries, by simpa using ha, by simpa using hbefore⟩

theorem isLast_iff_isFirst_reverse : IsLast p entries a ↔ IsFirst p entries.reverse a := by
  constructor
  · rintro ⟨before, after, rfl, ha, hafter⟩
    exact ⟨after.reverse, before.reverse, by simp, ha, by simpa using hafter⟩
  · rintro ⟨before, after, hentries, ha, hbefore⟩
    refine ⟨after.reverse, before.reverse, ?_, ha, by simpa using hbefore⟩
    rw [← List.reverse_reverse entries, hentries]
    simp

/-- The last entry with a property is the last of those that have it. -/
theorem isLast_iff_getLast?_filter [DecidablePred p] :
    IsLast p entries a ↔ (entries.filter fun b => decide (p b)).getLast? = some a := by
  rw [isLast_iff_isFirst_reverse, isFirst_iff_find?, List.getLast?_filter]

theorem IsLast.holds (h : IsLast p entries a) : p a := by
  obtain ⟨before, after, -, ha, -⟩ := h
  exact ha

theorem IsLast.mem (h : IsLast p entries a) : a ∈ entries := by
  obtain ⟨before, after, rfl, -, -⟩ := h
  exact List.mem_append_right _ (List.mem_cons_self ..)

theorem IsFirst.unique (ha : IsFirst p entries a) (hb : IsFirst p entries b) : a = b := by
  classical
  rw [isFirst_iff_find?] at ha hb
  exact Option.some.inj (ha.symm.trans hb)

theorem IsLast.unique (ha : IsLast p entries a) (hb : IsLast p entries b) : a = b :=
  (isLast_iff_isFirst_reverse.mp ha).unique (isLast_iff_isFirst_reverse.mp hb)

/-- There is a first entry with a property if there is any. -/
theorem exists_isFirst (h : ∃ a ∈ entries, p a) : ∃ a, IsFirst p entries a := by
  classical
  cases hfind : entries.find? (fun b => decide (p b)) with
  | some a => exact ⟨a, isFirst_iff_find?.mpr hfind⟩
  | none =>
    obtain ⟨a, hmem, ha⟩ := h
    rw [List.find?_eq_none] at hfind
    exact absurd ha (by simpa using hfind a hmem)

theorem isLast_concat (h : p a) (entries : List α) : IsLast p (entries ++ [a]) a :=
  ⟨entries, [], rfl, h, nofun⟩

/-- An entry without the property does not take the place of the last one. -/
theorem IsLast.concat (h : IsLast p entries a) (hb : ¬ p b) : IsLast p (entries ++ [b]) a := by
  obtain ⟨before, after, rfl, ha, hafter⟩ := h
  refine ⟨before, after ++ [b], by simp, ha, ?_⟩
  rw [List.forall_mem_append, List.forall_mem_singleton]
  exact ⟨hafter, hb⟩

/-- The first of the entries whose images have a property has the first such image. -/
theorem IsFirst.map {β : Type} {q : β → Prop} {f : α → β}
    (h : IsFirst (fun b => q (f b)) entries a) : IsFirst q (entries.map f) (f a) := by
  obtain ⟨before, after, rfl, ha, hbefore⟩ := h
  exact ⟨before.map f, after.map f, by simp, ha, by simpa using hbefore⟩

theorem IsLast.map {β : Type} {q : β → Prop} {f : α → β}
    (h : IsLast (fun b => q (f b)) entries a) : IsLast q (entries.map f) (f a) := by
  obtain ⟨before, after, rfl, ha, hafter⟩ := h
  exact ⟨before.map f, after.map f, by simp, ha, by simpa using hafter⟩

end TrigPainting
