import Mathlib.Algebra.Order.Field.Power
import Mathlib.Algebra.Order.Field.Rat
import Mathlib.Data.Rat.Cast.Order
import Mathlib.Tactic.FieldSimp
import Mathlib.Tactic.Linarith
import Mathlib.Tactic.NormNum
import Mathlib.Tactic.Positivity
import Mathlib.Tactic.Ring
import TrigPainting.Decimal.Binary64

/-!
# Rounded squares fall to zero

A number below one is squared and rounded to a binary64 number, again and again. Near one it is
rounded to the grid of step `2⁻⁵³`, so the distance to one doubles with every square, until after
26 squares the grid is finer than what a square takes away. From there on bounds that lie on the
grid themselves are squared: a number is never rounded past a bound that is on the grid. After 62
squares the number is so small that the next square is rounded to zero.

Which way ties are rounded does not matter for any of this.

## Main definitions

- `IsBinary64` — a binary64 number
- `IsNearest` — no binary64 number lies nearer
- `Squared` — rounded squares of a number
- `ceiling` — bounds of them

## Main statements

- `IsNearest.le_of_le` — bounds on the grid survive rounding
- `Squared.le_one_sub`, `Squared.le_ceiling` — how rounded squares fall
- `Squared.eq_zero` — 63 squares reach zero
-/

namespace TrigPainting.Decimal

/-- A binary64 number: an integer of at most 53 bits times a power of two. -/
def IsBinary64 (q : ℚ) : Prop :=
  ∃ m e : ℤ, |m| < 2 ^ 53 ∧ -1074 ≤ e ∧ e ≤ 971 ∧ q = m * 2 ^ e

/-- No binary64 number lies nearer to an exact value. -/
structure IsNearest (x q : ℚ) : Prop where
  isBinary64 : IsBinary64 q
  dist_le : ∀ r, IsBinary64 r → |q - x| ≤ |r - x|

/-- The `n`-th rounded square of a number. -/
inductive Squared (p : ℚ) : ℕ → ℚ → Prop
  | zero : Squared p 0 p
  | succ {n : ℕ} {v w : ℚ} (before : Squared p n v) (nearest : IsNearest (v * v) w) :
      Squared p (n + 1) w

variable {p q r v w x : ℚ} {n : ℕ}

-- ════════════════════════════════════════════════════════════════════════
-- Rounding and the grid
-- ════════════════════════════════════════════════════════════════════════

/-- Numbers whose denominator is a power of two and whose numerator is short are on the grid. -/
theorem isBinary64_div {m s : ℕ} (hm : m < 2 ^ 53) (hs : s ≤ 1074) :
    IsBinary64 (m / 2 ^ s) := by
  refine ⟨m, -s, ?_, by omega, by omega, ?_⟩
  · rw [abs_of_nonneg (by positivity)]
    exact_mod_cast hm
  · rw [zpow_neg, zpow_natCast, div_eq_mul_inv, Int.cast_natCast]

theorem isBinary64_zero : IsBinary64 0 := by
  have h := isBinary64_div (m := 0) (s := 0) (by decide) (by decide)
  simpa using h

/-- **Bounds on the grid survive rounding**: what is nearest to a number below a bound is not
above the bound. -/
theorem IsNearest.le_of_le (h : IsNearest x q) (hr : IsBinary64 r) (hle : x ≤ r) :
    q ≤ r := by
  by_contra hlt
  have hdist := h.dist_le r hr
  rw [abs_of_nonneg (by linarith), abs_of_nonneg (by linarith)] at hdist
  linarith

theorem IsNearest.nonneg (h : IsNearest x q) (hx : 0 ≤ x) : 0 ≤ q := by
  by_contra hlt
  have hdist := h.dist_le 0 isBinary64_zero
  rw [abs_of_nonpos (by linarith), abs_of_nonpos (by linarith)] at hdist
  linarith

/-- Above a half the grid has the step `2⁻⁵³`. -/
theorem IsBinary64.exists_eq_div (h : IsBinary64 q) (hhalf : 1 / 2 < q) :
    ∃ k : ℤ, q = k / 2 ^ 53 := by
  obtain ⟨m, e, hm, -, -, rfl⟩ := h
  have he : -53 ≤ e := by
    by_contra hlt
    have hpow : (2 : ℚ) ^ e ≤ 2 ^ (-54 : ℤ) := zpow_le_zpow_right₀ (by norm_num) (by omega)
    have hbound : (m : ℚ) < 2 ^ 53 := by exact_mod_cast (abs_lt.mp hm).2
    have hpos : (0 : ℚ) < 2 ^ e := by positivity
    have hprod : (m : ℚ) * 2 ^ e ≤ 2 ^ 53 * 2 ^ (-54 : ℤ) := by gcongr
    norm_num at hprod
    linarith
  obtain ⟨k, hk⟩ := Int.eq_ofNat_of_zero_le (show 0 ≤ e + 53 by omega)
  refine ⟨m * 2 ^ k, ?_⟩
  have hpow : (2 : ℚ) ^ e = 2 ^ k / 2 ^ 53 := by
    rw [show e = (k : ℤ) - (53 : ℕ) by omega, zpow_sub₀ (by norm_num), zpow_natCast, zpow_natCast]
  rw [hpow]
  push_cast
  ring

theorem IsBinary64.add_step_le (hq : IsBinary64 q) (hr : IsBinary64 r) (hhalf : 1 / 2 < r)
    (hlt : r < q) : r + 1 / 2 ^ 53 ≤ q := by
  obtain ⟨k, rfl⟩ := hq.exists_eq_div (hhalf.trans hlt)
  obtain ⟨j, rfl⟩ := hr.exists_eq_div hhalf
  rw [div_lt_div_iff_of_pos_right (by positivity)] at hlt
  have hstep : j + 1 ≤ k := by exact_mod_cast hlt
  rw [← add_div, div_le_div_iff_of_pos_right (by positivity)]
  exact_mod_cast hstep

/-- What is small enough is rounded to zero. -/
theorem IsNearest.eq_zero (h : IsNearest x q) (hx : 0 ≤ x)
    (hsmall : 2 * x < 2 ^ (-1074 : ℤ)) : q = 0 := by
  have hnonneg := h.nonneg hx
  have hdist := h.dist_le 0 isBinary64_zero
  by_contra hne
  have hpos : 0 < q := lt_of_le_of_ne hnonneg (Ne.symm hne)
  obtain ⟨m, e, -, he, -, hq⟩ := h.isBinary64
  have hm : 1 ≤ m := by
    have hpow : (0 : ℚ) < 2 ^ e := by positivity
    rw [hq] at hpos
    exact_mod_cast pos_of_mul_pos_left hpos hpow.le
  have hleast : (2 : ℚ) ^ (-1074 : ℤ) ≤ q := by
    have hcast : (1 : ℚ) ≤ m := by exact_mod_cast hm
    have hpow : (2 : ℚ) ^ (-1074 : ℤ) ≤ 2 ^ e := zpow_le_zpow_right₀ (by norm_num) he
    rw [hq]
    exact hpow.trans (le_mul_of_one_le_left (by positivity) hcast)
  rw [abs_of_nonneg (by linarith), abs_of_nonpos (by linarith)] at hdist
  linarith

-- ════════════════════════════════════════════════════════════════════════
-- Near one
-- ════════════════════════════════════════════════════════════════════════

theorem Squared.nonneg (hp : 0 ≤ p) (h : Squared p n v) : 0 ≤ v := by
  cases h with
  | zero => exact hp
  | succ _ hnearest => exact hnearest.nonneg (mul_self_nonneg _)

theorem isBinary64_one_sub {a : ℕ} (ha : a ≤ 53) (hpos : 0 < a) : IsBinary64 (1 - 1 / 2 ^ a) := by
  have hone : 1 ≤ 2 ^ a := Nat.one_le_two_pow
  have hle : 2 ^ a ≤ 2 ^ 53 := Nat.pow_le_pow_right (by decide) ha
  have hgrid : IsBinary64 (((2 ^ a - 1 : ℕ) : ℚ) / 2 ^ a) := isBinary64_div (by omega) (by omega)
  rw [Nat.cast_sub hone] at hgrid
  have heq : (1 : ℚ) - 1 / 2 ^ a = ((2 ^ a : ℕ) - (1 : ℕ)) / 2 ^ a := by
    push_cast
    field_simp
  rwa [heq]

/-- **One square near one**: the distance to one doubles, and what the square adds to that is
lost in rounding. -/
theorem IsNearest.le_one_sub {a : ℕ} (h : IsNearest (v * v) w) (hv : 0 ≤ v) (ha : 28 ≤ a)
    (ha' : a ≤ 53) (hle : v ≤ 1 - 1 / 2 ^ a) : w ≤ 1 - 1 / 2 ^ (a - 1) := by
  obtain ⟨b, rfl⟩ : ∃ b, a = b + 1 := ⟨a - 1, by omega⟩
  rw [Nat.add_sub_cancel]
  have hgrid : IsBinary64 (1 - 1 / 2 ^ b) := isBinary64_one_sub (by omega) (by omega)
  have hdouble : (1 : ℚ) / 2 ^ b = 2 * (1 / 2 ^ (b + 1)) := by
    field_simp
    ring
  have hsmall : (1 : ℚ) / 2 ^ (b + 1) ≤ 1 / 2 ^ 28 := by
    gcongr
    norm_num
  have hpos : (0 : ℚ) < 1 / 2 ^ (b + 1) := by positivity
  rw [hdouble] at hgrid ⊢
  generalize (1 : ℚ) / 2 ^ (b + 1) = d at *
  have hsquare : v * v ≤ 1 - 2 * d + 1 / 2 ^ 56 := by
    have hmul : v * v ≤ (1 - d) * (1 - d) := mul_self_le_mul_self hv hle
    have hd : d * d ≤ 1 / 2 ^ 28 * (1 / 2 ^ 28) := mul_self_le_mul_self hpos.le hsmall
    linarith
  by_contra hlt
  rw [not_le] at hlt
  rcases le_total (v * v) (1 - 2 * d) with hbelow | habove
  · exact absurd (h.le_of_le hgrid hbelow) (not_le.mpr hlt)
  · -- The bound is nearer than the next number of the grid.
    have hfar := h.isBinary64.add_step_le hgrid (by linarith) hlt
    have hdist := h.dist_le _ hgrid
    rw [abs_of_nonneg (by linarith), abs_of_nonpos (by linarith)] at hdist
    linarith

theorem IsBinary64.le_one_sub (h : IsBinary64 p) (hlt : p < 1) : p ≤ 1 - 1 / 2 ^ 53 := by
  have hone : IsBinary64 1 := by
    simpa using isBinary64_div (m := 1) (s := 0) (by decide) (by decide)
  by_cases hhalf : 1 / 2 < p
  · have hstep := hone.add_step_le h hhalf hlt
    linarith
  · norm_num at hhalf ⊢
    linarith

/-- The first 26 squares. -/
theorem Squared.le_one_sub (hp : IsBinary64 p) (hnonneg : 0 ≤ p) (hlt : p < 1)
    (h : Squared p n v) (hn : n ≤ 26) : v ≤ 1 - 1 / 2 ^ (53 - n) := by
  induction h with
  | zero => exact hp.le_one_sub hlt
  | @succ n v w before hnearest ih =>
    have hstep := hnearest.le_one_sub (before.nonneg hnonneg) (a := 53 - n) (by omega) (by omega)
      (ih (by omega))
    rwa [Nat.sub_sub] at hstep

-- ════════════════════════════════════════════════════════════════════════
-- Bounds on the grid
-- ════════════════════════════════════════════════════════════════════════

/-- Bounds of rounded squares, as numerators and binary logarithms of denominators. With
`d = 2⁻⁵³⁺ⁿ` they are `1 - d + d²`, whose square is not above `1 - 2d + 4d²`; the last ones
are read off. -/
def ceilingParts : ℕ → ℕ × ℕ
  | 51 => (51, 6)
  | 52 => (41, 6)
  | 53 => (27, 6)
  | 54 => (3, 4)
  | 55 => (9, 8)
  | n => if n ≤ 50 then (4 ^ (53 - n) - 2 ^ (53 - n) + 1, 2 * (53 - n)) else (1, 9 * 2 ^ (n - 56))

/-- A bound of the `n`-th rounded square, for `26 ≤ n ≤ 62`. -/
def ceiling (n : ℕ) : ℚ :=
  (ceilingParts n).1 / 2 ^ (ceilingParts n).2

/-- The bounds after the first are on the grid, and each of them is not below the square of the
one before. -/
theorem ceilingParts_succ : ∀ n < 62, 26 ≤ n →
    (ceilingParts (n + 1)).1 < 2 ^ 53 ∧ (ceilingParts (n + 1)).2 ≤ 1074 ∧
      (ceilingParts n).1 * (ceilingParts n).1 * 2 ^ (ceilingParts (n + 1)).2 ≤
        (ceilingParts (n + 1)).1 * 2 ^ (2 * (ceilingParts n).2) := by
  decide +kernel

theorem isBinary64_ceiling_succ (hn : 26 ≤ n) (hn' : n < 62) : IsBinary64 (ceiling (n + 1)) := by
  obtain ⟨hm, hs, -⟩ := ceilingParts_succ n hn' hn
  exact isBinary64_div hm hs

theorem ceiling_mul_self_le (hn : 26 ≤ n) (hn' : n < 62) :
    ceiling n * ceiling n ≤ ceiling (n + 1) := by
  obtain ⟨-, -, hle⟩ := ceilingParts_succ n hn' hn
  rw [ceiling, ceiling, div_mul_div_comm, ← pow_add, ← two_mul,
    div_le_div_iff₀ (by positivity) (by positivity)]
  exact_mod_cast hle

/-- The squares from the 26th to the 62nd. -/
theorem Squared.le_ceiling (hp : IsBinary64 p) (hnonneg : 0 ≤ p) (hlt : p < 1)
    (h : Squared p n v) (hn : 26 ≤ n) (hn' : n ≤ 62) : v ≤ ceiling n := by
  induction h with
  | zero => omega
  | @succ n v w before hnearest ih =>
    by_cases hfirst : n < 26
    · have hlast : n = 25 := by omega
      subst hlast
      have hone := (before.succ hnearest).le_one_sub hp hnonneg hlt (by omega)
      norm_num [ceiling, ceilingParts] at hone ⊢
      linarith
    · have hv := before.nonneg hnonneg
      refine hnearest.le_of_le (isBinary64_ceiling_succ (by omega) (by omega)) ?_
      exact (mul_self_le_mul_self hv (ih (by omega) (by omega))).trans
        (ceiling_mul_self_le (by omega) (by omega))

/-- **63 rounded squares** of a binary64 number below one reach zero. -/
theorem Squared.eq_zero (hp : IsBinary64 p) (hnonneg : 0 ≤ p) (hlt : p < 1)
    (h : Squared p 63 v) : v = 0 := by
  cases h with
  | @succ _ u _ before hnearest =>
    have hceiling := before.le_ceiling hp hnonneg hlt (by omega) (by omega)
    have hu := before.nonneg hnonneg
    refine hnearest.eq_zero (mul_self_nonneg u) ?_
    have hparts : ceilingParts 62 = (1, 576) := by decide
    have hlast : ceiling 62 = 2 ^ (-(576 : ℕ) : ℤ) := by
      rw [ceiling, hparts, zpow_neg, zpow_natCast, Nat.cast_one, one_div]
    have hsquare : u * u ≤ 2 ^ (-1152 : ℤ) := by
      rw [hlast] at hceiling
      have hmul := mul_self_le_mul_self hu hceiling
      rwa [← zpow_add₀ (by norm_num)] at hmul
    calc 2 * (u * u) ≤ 2 * 2 ^ (-1152 : ℤ) := by linarith
      _ = 2 ^ (-1151 : ℤ) := by rw [← zpow_one_add₀ (by norm_num)]; rfl
      _ < 2 ^ (-1074 : ℤ) := zpow_lt_zpow_right₀ (by norm_num) (by norm_num)

end TrigPainting.Decimal
