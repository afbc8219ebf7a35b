import TrigPainting.Palette.Random
import TrigPainting.Proofs.Expr.Depth

/-!
# Grown expressions

What one node of a random tree draws, and what comes of it, is said here once, as a
relation between the levels that are left, the probability, the two states of the source
and the tree. A child has a level less to grow on, and where none is left there are leaves
alone. So the depth of a generated tree is bounded by the greatest depth of the settings,
and by one where that is zero. Trees of the usual greatest depth nest far below the limit
of the reader.

## Main definitions

- `Generator.Grows` — the draws of a tree, node by node

## Main statements

- `Generator.grows_grow` — every tree is grown by its draws
- `Generator.Grows.depth_le` — how deep it is
- `Generator.generated_within_cutoff` — the depth of what is generated, and that it is read
  back
-/

namespace TrigPainting

variable {α σ : Type}

namespace Generator

/-- **The draws of a tree**: `Grows odds source below p s e t` says that a tree `e` that may
reach `below` levels under its root is grown from the probability `p`, and that its draws
lead the source from the state `s` to the state `t`. -/
inductive Grows (odds : Odds α) (source : Source α σ) : Nat → α → σ → Expr → σ → Prop
  | leaf {below : Nat} {p u : α} {s t r : σ} {i : Fin 5} (chance : source.chance s = (u, t))
      (ends : below = 0 ∨ odds.lt u p = false) (pick : source.pick 5 (by decide) t = (i, r)) :
      Grows odds source below p s (leaf i) r
  | wave {below : Nat} {p u : α} {s t r q : σ} {i : Fin 8} {w : Wave} {arg : Expr}
      (chance : source.chance s = (u, t)) (goesOn : odds.lt u p = true)
      (pick : source.pick 8 (by decide) t = (i, r)) (drawn : shape i = .wave w)
      (child : Grows odds source below (odds.mul p p) r arg q) :
      Grows odds source (below + 1) p s (.wave w arg) q
  | piWave {below : Nat} {p u : α} {s t r q : σ} {i : Fin 8} {w : Wave} {arg : Expr}
      (chance : source.chance s = (u, t)) (goesOn : odds.lt u p = true)
      (pick : source.pick 8 (by decide) t = (i, r)) (drawn : shape i = .piWave w)
      (child : Grows odds source below (odds.mul p p) r arg q) :
      Grows odds source (below + 1) p s (.piWave w arg) q
  | times {below : Nat} {p u : α} {s t r q o : σ} {i : Fin 8} {lhs rhs : Expr}
      (chance : source.chance s = (u, t)) (goesOn : odds.lt u p = true)
      (pick : source.pick 8 (by decide) t = (i, r)) (drawn : shape i = .times)
      (left : Grows odds source below (odds.mul p p) r lhs q)
      (right : Grows odds source below (odds.mul p p) q rhs o) :
      Grows odds source (below + 1) p s (.times lhs rhs) o

theorem grows_grow (odds : Odds α) (source : Source α σ) (below : Nat) (p : α) (s : σ) :
    Grows odds source below p s (grow odds source below p s).1 (grow odds source below p s).2 := by
  induction below generalizing p s with
  | zero => exact .leaf rfl (.inl rfl) rfl
  | succ below ih =>
    by_cases hlt : odds.lt (source.chance s).1 p = true
    · simp only [grow, hlt, if_true]
      cases hshape : shape (source.pick 8 (by decide) (source.chance s).2).1 with
      | wave w => exact .wave rfl hlt rfl hshape (ih _ _)
      | piWave w => exact .piWave rfl hlt rfl hshape (ih _ _)
      | times => exact .times rfl hlt rfl hshape (ih _ _) (ih _ _)
    · simp only [grow, hlt]
      exact .leaf rfl (.inr (Bool.eq_false_iff.mpr hlt)) rfl

theorem depth_leaf (i : Fin 5) : (leaf i).depth = 1 := by
  revert i
  decide

theorem Grows.depth_le {odds : Odds α} {source : Source α σ} {below : Nat} {p : α} {s t : σ}
    {e : Expr} (h : Grows odds source below p s e t) : e.depth ≤ below + 1 := by
  induction h with
  | leaf _ _ _ =>
    rw [depth_leaf]
    omega
  | wave _ _ _ _ _ ih =>
    rw [Expr.depth]
    omega
  | piWave _ _ _ _ _ ih =>
    rw [Expr.depth]
    omega
  | times _ _ _ _ _ _ ihleft ihright =>
    rw [Expr.depth]
    omega

theorem depth_grow_le (odds : Odds α) (source : Source α σ) (below : Nat) (p : α) (s : σ) :
    (grow odds source below p s).1.depth ≤ below + 1 :=
  (grows_grow odds source below p s).depth_le

/-- A greatest depth of zero leaves a tree its root. -/
theorem depth_draw_le (odds : Odds α) (source : Source α σ) (settings : Settings α) (s : σ) :
    (draw odds source settings s).1.depth ≤ max 1 settings.cutoff := by
  have hdepth := depth_grow_le odds source (settings.cutoff - 1) settings.probability s
  rw [draw]
  omega

theorem cutoff_of_maxDepth {settings : Settings α} {d : Nat} (h : settings.maxDepth = some d) :
    settings.cutoff = d := by
  rw [Settings.cutoff, h]
  rfl

end Generator

namespace Palette

theorem depth_draw_le (odds : Odds α) (source : Source α σ) (settings : Generator.Settings α)
    (s : σ) (c : Channel) :
    ((draw odds source settings s).1.get c).depth ≤ max 1 settings.cutoff := by
  cases c <;> exact Generator.depth_draw_le odds source settings _

end Palette

namespace Generator

/-- **What is generated** is no deeper than the settings allow, whatever the source gives.
Without settings that is the usual depth, from any probability. A generated tree, alone or in
a palette, is read back from its text if the greatest depth is 257 at most, as the usual one
is. -/
theorem generated_within_cutoff (odds : Odds α) (source : Source α σ) (s : σ) :
    (∀ p, (unchecked odds source p s).1.depth ≤ 64 ∧ (unchecked odds source p s).1.ReadsBack) ∧
      (∀ (settings : Settings α) (d : Nat),
        settings.valid odds = true → settings.maxDepth = some d →
        (∃ e, (expression odds source settings s).1 = .ok e ∧ e.depth ≤ max 1 d ∧
          (d ≤ 257 → e.ReadsBack)) ∧
        ∃ palette, (Palette.random odds source settings s).1 = .ok palette ∧
          ∀ c, (palette.get c).depth ≤ max 1 d ∧ (d ≤ 257 → (palette.get c).ReadsBack)) ∧
      Settings.usual.valid .binary64 = true ∧ Settings.usual.maxDepth = some 64 := by
  refine ⟨fun p => ?_, fun settings d hvalid hmax => ⟨?_, ?_⟩, by decide +kernel, rfl⟩
  · have hdepth : (unchecked odds source p s).1.depth ≤ 64 := depth_grow_le odds source 63 p s
    exact ⟨hdepth, Expr.readsBack_of_depth_le (by omega)⟩
  · have hdepth := depth_draw_le odds source settings s
    rw [cutoff_of_maxDepth hmax] at hdepth
    refine ⟨(draw odds source settings s).1, ?_, hdepth, fun hd => ?_⟩
    · rw [expression, if_pos hvalid]
    · exact Expr.readsBack_of_depth_le (by omega)
  · refine ⟨(Palette.draw odds source settings s).1, ?_, fun c => ?_⟩
    · rw [Palette.random, if_pos hvalid]
    · have hdepth := Palette.depth_draw_le odds source settings s c
      rw [cutoff_of_maxDepth hmax] at hdepth
      exact ⟨hdepth, fun hd => Expr.readsBack_of_depth_le (by omega)⟩

/-- A tree of the machine source that may only be its root, and a palette of trees at the
last depth that the reader follows. -/
theorem generated_within_cutoff_of_zero :
    Settings.valid .binary64 ⟨usualProbability, some 0⟩ = true ∧
      (∃ e, (expression .binary64 Xoshiro.source ⟨usualProbability, some 0⟩ (.ofSeed 7)).1 =
        .ok e ∧ e.depth ≤ 1 ∧ e.ReadsBack) ∧
      ∃ palette, (Palette.random .binary64 Xoshiro.source ⟨usualProbability, some 257⟩
          (.ofSeed 7)).1 = .ok palette ∧
        ∀ c, (palette.get c).depth ≤ 257 ∧ (palette.get c).ReadsBack := by
  obtain ⟨-, hsettings, -⟩ := generated_within_cutoff .binary64 Xoshiro.source (.ofSeed 7)
  have hvalid : Settings.valid .binary64 ⟨usualProbability, some 0⟩ = true := by decide +kernel
  have hdeep : Settings.valid .binary64 ⟨usualProbability, some 257⟩ = true := by decide +kernel
  obtain ⟨⟨e, he, hdepth, hread⟩, -⟩ := hsettings _ 0 hvalid rfl
  obtain ⟨-, palette, hpalette, hchannels⟩ := hsettings _ 257 hdeep rfl
  exact ⟨hvalid, ⟨e, he, hdepth, hread (by decide)⟩, palette, hpalette,
    fun c => ⟨(hchannels c).1, (hchannels c).2 (by decide)⟩⟩

end Generator

end TrigPainting
