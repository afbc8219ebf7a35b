import TrigPainting.Proofs.Decimal.Product
import TrigPainting.Proofs.Generator.Growth

/-!
# The usual greatest depth is never seen

A child grows with the rounded square of the probability of its parent, and after 63 rounded
squares the probability is zero. No draw is below zero, so a node at the 64th level is a leaf in
every tree, whatever the source gives. A greatest depth of 64 or more, or none at all, makes no
difference to what is drawn.

Nothing is asked of the numbers but that they compare as their values and that products are
rounded to nearest; machine numbers do both.

## Main definitions

- `Odds.IsRounded` — numbers that round as machine numbers do
- `Source.InRange` — a source whose draws lie in their ranges
- `Odds.squared` — the probability some levels below the root

## Main statements

- `Odds.binary64_isRounded` — machine numbers round to nearest
- `Odds.IsRounded.squared_eq_zero` — 63 squares reach zero
- `Generator.grow_eq_grow` — levels below a probability of zero are not used
- `Generator.expression_independent_of_cutoff` — growing ends by itself
-/

namespace TrigPainting

open Decimal

variable {α σ : Type}

/-- **Numbers that round as machine numbers do**: they compare as their values, which are binary64
numbers, and a product of a size up to one is the binary64 number nearest to the exact product,
whichever way ties go. -/
structure Odds.IsRounded (odds : Odds α) (value : α → Option ℚ) : Prop where
  zero : value odds.zero = some 0
  one : value odds.one = some 1
  isBinary64 : ∀ {a q}, value a = some q → IsBinary64 q
  exists_value : ∀ {a}, odds.le odds.zero a = true → odds.lt a odds.one = true →
    ∃ q, value a = some q
  le_iff : ∀ {a b q r}, value a = some q → value b = some r → (odds.le a b = true ↔ q ≤ r)
  lt_iff : ∀ {a b q r}, value a = some q → value b = some r → (odds.lt a b = true ↔ q < r)
  mul : ∀ {a b q r}, value a = some q → value b = some r → |q * r| ≤ 1 →
    ∃ v, value (odds.mul a b) = some v ∧ IsNearest (q * r) v

/-- A source whose chances lie in `[0, 1)`. Its choices lie in their ranges by their type. -/
def Source.InRange (source : Source α σ) (value : α → Option ℚ) : Prop :=
  ∀ s, ∃ u, value (source.chance s).1 = some u ∧ 0 ≤ u ∧ u < 1

/-- The probability `n` levels below the root. -/
def Odds.squared (odds : Odds α) (n : ℕ) (p : α) : α :=
  (fun q => odds.mul q q)^[n] p

-- ════════════════════════════════════════════════════════════════════════
-- Probabilities
-- ════════════════════════════════════════════════════════════════════════

/-- **Machine numbers** round to nearest. -/
theorem Odds.binary64_isRounded : Odds.binary64.IsRounded floatValue? where
  zero := floatValue?_zero
  one := floatValue?_one
  isBinary64 := isBinary64_of_floatValue?
  exists_value hzero hone :=
    exists_floatValue?_of_between (of_decide_eq_true hzero) (of_decide_eq_true hone)
  le_iff ha hb := decide_eq_true_iff.trans (le_iff_of_floatValue? ha hb)
  lt_iff ha hb := decide_eq_true_iff.trans (lt_iff_of_floatValue? ha hb)
  mul ha hb hsize := floatValue?_mul ha hb hsize

namespace Odds.IsRounded

variable {odds : Odds α} {value : α → Option ℚ} {p : α} {q : ℚ}

theorem exists_value_of_valid (h : odds.IsRounded value) {maxDepth : Option ℕ}
    (hvalid : Generator.Settings.valid odds ⟨p, maxDepth⟩ = true) :
    ∃ q, value p = some q ∧ 0 ≤ q ∧ q < 1 := by
  rw [Generator.Settings.valid, Bool.and_eq_true] at hvalid
  obtain ⟨hzero, hone⟩ := hvalid
  obtain ⟨q, hq⟩ := h.exists_value hzero hone
  exact ⟨q, hq, (h.le_iff h.zero hq).mp hzero, (h.lt_iff hq h.one).mp hone⟩

theorem squared_of_value (h : odds.IsRounded value) (hp : value p = some q) (hnonneg : 0 ≤ q)
    (hlt : q < 1) (n : ℕ) :
    ∃ v, value (odds.squared n p) = some v ∧ 0 ≤ v ∧ v ≤ 1 ∧ Squared q n v := by
  induction n with
  | zero => exact ⟨q, hp, hnonneg, hlt.le, .zero⟩
  | succ n ih =>
    obtain ⟨v, hv, hv0, hv1, hsquared⟩ := ih
    have hsize : v * v ≤ 1 := mul_le_one₀ hv1 hv0 hv1
    have habs : |v * v| ≤ 1 := by rwa [abs_of_nonneg (mul_self_nonneg v)]
    obtain ⟨w, hw, hnearest⟩ := h.mul hv hv habs
    refine ⟨w, ?_, hnearest.nonneg (mul_self_nonneg v),
      hnearest.le_of_le (h.isBinary64 h.one) hsize, hsquared.succ hnearest⟩
    rw [Odds.squared, Function.iterate_succ_apply']
    exact hw

/-- **63 squares** of an accepted probability reach zero. -/
theorem squared_eq_zero (h : odds.IsRounded value) {maxDepth : Option ℕ}
    (hvalid : Generator.Settings.valid odds ⟨p, maxDepth⟩ = true) :
    value (odds.squared 63 p) = some 0 := by
  obtain ⟨q, hq, hnonneg, hlt⟩ := h.exists_value_of_valid hvalid
  obtain ⟨v, hv, -, -, hsquared⟩ := h.squared_of_value hq hnonneg hlt 63
  rw [hv, hsquared.eq_zero (h.isBinary64 hq) hnonneg hlt]

-- From the largest probability, one square less does not.
example : binary64.lt 0 (binary64.squared 62 (.ofBits 0x3FEFFFFFFFFFFFFF)) = true := by
  decide +kernel

theorem lt_eq_false_of_zero (h : odds.IsRounded value) {source : Source α σ}
    (hsource : source.InRange value) (hp : value p = some 0) (s : σ) :
    odds.lt (source.chance s).1 p = false := by
  obtain ⟨u, hu, hnonneg, -⟩ := hsource s
  rw [Bool.eq_false_iff]
  intro hlt
  exact absurd ((h.lt_iff hu hp).mp hlt) (not_lt.mpr hnonneg)

end Odds.IsRounded

-- ════════════════════════════════════════════════════════════════════════
-- Growing
-- ════════════════════════════════════════════════════════════════════════

namespace Generator

variable {odds : Odds α} {source : Source α σ}

theorem grow_of_lt_eq_false {p : α} (h : ∀ s, odds.lt (source.chance s).1 p = false) (below : ℕ)
    (s : σ) : grow odds source below p s = grow odds source 0 p s := by
  cases below with
  | zero => rfl
  | succ below => simp [grow, h s]

/-- **Levels that are not used** make no difference: where no chance goes on after `n` levels,
trees of `n` levels or more below the root are the same. -/
theorem grow_eq_grow {p : α} {n below : ℕ}
    (h : ∀ s, odds.lt (source.chance s).1 (odds.squared n p) = false) (hn : n ≤ below) (s : σ) :
    grow odds source below p s = grow odds source n p s := by
  induction n generalizing p below s with
  | zero => exact grow_of_lt_eq_false h below s
  | succ n ih =>
    obtain ⟨below, rfl⟩ : ∃ m, below = m + 1 := ⟨below - 1, by omega⟩
    have hchild : ∀ s, grow odds source below (odds.mul p p) s =
        grow odds source n (odds.mul p p) s := ih h (by omega)
    simp only [grow, hchild]

theorem draw_eq_grow {p : α} {n : ℕ} {maxDepth : Option ℕ}
    (h : ∀ s, odds.lt (source.chance s).1 (odds.squared n p) = false)
    (hn : n < Settings.cutoff ⟨p, maxDepth⟩) (s : σ) :
    draw odds source ⟨p, maxDepth⟩ s = grow odds source n p s :=
  grow_eq_grow h (by omega) s

theorem expression_eq_grow {p : α} {n : ℕ} {maxDepth : Option ℕ}
    (hvalid : Settings.valid odds ⟨p, maxDepth⟩ = true)
    (h : ∀ s, odds.lt (source.chance s).1 (odds.squared n p) = false)
    (hn : n < Settings.cutoff ⟨p, maxDepth⟩) (s : σ) :
    expression odds source ⟨p, maxDepth⟩ s =
      (.ok (grow odds source n p s).1, (grow odds source n p s).2) := by
  rw [expression, if_pos hvalid, draw_eq_grow h hn]

/-- **Growing ends by itself**: from an accepted probability, 63 squares reach zero, so trees are
no deeper than 64 without a greatest depth, and the same tree is drawn, to the same state of the
source, with every greatest depth from 64 on. This holds for machine numbers and for all numbers
that round as they do, with any source whose draws lie in their ranges. -/
theorem expression_independent_of_cutoff :
    Odds.binary64.IsRounded floatValue? ∧
    ∀ {α σ : Type} {odds : Odds α} {value : α → Option ℚ} {source : Source α σ} {p : α} (s : σ),
      odds.IsRounded value → source.InRange value → Settings.valid odds ⟨p, none⟩ = true →
        value (odds.squared 63 p) = some 0 ∧
        ∃ e t, expression odds source ⟨p, none⟩ s = (.ok e, t) ∧ e.depth ≤ 64 ∧
          ∀ d ≥ 64, expression odds source ⟨p, some d⟩ s = (.ok e, t) := by
  refine ⟨Odds.binary64_isRounded, ?_⟩
  intro α σ odds value source p s hodds hsource hvalid
  have hzero := hodds.squared_eq_zero hvalid
  have hends := hodds.lt_eq_false_of_zero hsource hzero
  have hnone : 63 < Settings.cutoff (⟨p, none⟩ : Settings α) := by
    show 63 < UInt64.size - 1
    decide
  refine ⟨hzero, _, _, expression_eq_grow hvalid hends hnone s, depth_grow_le odds source 63 p s,
    ?_⟩
  intro d hd
  exact @expression_eq_grow _ _ odds source p 63 (some d) hvalid hends hd s

/-- The largest probability and a source that always goes on. -/
theorem expression_independent_of_cutoff_of_largest :
    let source : Source Float Unit := ⟨fun _ => (0, ()), fun _ hn _ => (⟨0, hn⟩, ())⟩
    let p := Float.ofBits 0x3FEFFFFFFFFFFFFF
    floatValue? (Odds.binary64.squared 63 p) = some 0 ∧
      ∃ e t, expression .binary64 source ⟨p, none⟩ () = (.ok e, t) ∧ e.depth ≤ 64 ∧
        expression .binary64 source ⟨p, some usualDepth⟩ () = (.ok e, t) := by
  intro source p
  have hsource : source.InRange floatValue? := fun _ => ⟨0, floatValue?_zero, le_rfl, zero_lt_one⟩
  have hvalid : Settings.valid .binary64 ⟨p, none⟩ = true := by decide +kernel
  obtain ⟨hrounded, hexpression⟩ := expression_independent_of_cutoff
  obtain ⟨hzero, e, t, hnone, hdepth, hsome⟩ := hexpression () hrounded hsource hvalid
  exact ⟨hzero, e, t, hnone, hdepth, hsome usualDepth (by decide)⟩

end Generator

end TrigPainting
