import TrigPainting.Proofs.Decimal.Machine

/-!
# Machine products are rounded products

A product of machine numbers multiplies their significands and adds their exponents, shifts the
product to 53 bits, and rounds by the bits that were shifted out. What comes of it is the binary64
number nearest to the exact product.

## Main definitions

- `Splits` — what a shift keeps of a number
- `Rounds` — an integer is nearest to a number over a power of two
- `roundedParts` — what rounding makes of that integer

## Main statements

- `Splits.roundedMantissa` — rounding errs by half a unit
- `isNearest_of_rounds` — so nothing on the grid is nearer
- `floatValue?_mul` — a product is nearest to the exact product
-/

namespace TrigPainting.Decimal

open Float.Model Float.Model.UnpackedFloat

variable {s : Sign} {m k r : ℕ} {e t : ℤ} {q v w : ℚ}

-- ════════════════════════════════════════════════════════════════════════
-- Shifting and rounding
-- ════════════════════════════════════════════════════════════════════════

/-- **What a shift by `k` bits keeps** of a number: the bits in front, and from the two bits
behind them how the rest compares to a half. -/
def Splits (m k : ℕ) (kept : ExtendedMantissa) : Prop :=
  ∃ rest, m = kept.mantissa * 2 ^ k + rest ∧
    match kept.roundBit, kept.stickyBit with
    | false, false => rest = 0
    | false, true => 0 < rest ∧ 2 * rest < 2 ^ k
    | true, false => 2 * rest = 2 ^ k
    | true, true => 2 ^ k < 2 * rest ∧ rest < 2 ^ k

theorem Splits.shiftRightOne {kept : ExtendedMantissa} (h : Splits m k kept) :
    Splits m (k + 1) kept.shiftRightOne := by
  obtain ⟨mantissa, roundBit, stickyBit⟩ := kept
  obtain ⟨rest, hm, hrest⟩ := h
  have hdivMod := Nat.div_add_mod mantissa 2
  refine ⟨mantissa % 2 * 2 ^ k + rest, ?_, ?_⟩
  · rw [hm, ExtendedMantissa.shiftRightOne, Nat.pow_succ]
    dsimp only
    calc mantissa * 2 ^ k + rest = (2 * (mantissa / 2) + mantissa % 2) * 2 ^ k + rest := by
          rw [hdivMod]
      _ = mantissa / 2 * (2 ^ k * 2) + (mantissa % 2 * 2 ^ k + rest) := by ring
  · have hpos : 0 < 2 ^ k := Nat.two_pow_pos k
    have hodd : mantissa % 2 = 0 ∨ mantissa % 2 = 1 := Nat.mod_two_eq_zero_or_one mantissa
    rw [Nat.pow_succ, ExtendedMantissa.shiftRightOne]
    rcases hodd with hodd | hodd <;> cases roundBit <;> cases stickyBit <;>
      simp only [hodd] at hrest ⊢ <;> simp <;> omega

theorem splits_shiftRight (m k : ℕ) :
    Splits m k ((⟨m, false, false⟩ : ExtendedMantissa) >>> k) := by
  induction k with
  | zero => exact ⟨0, by simp [HShiftRight.hShiftRight, Nat.repeat]⟩
  | succ k ih => exact ih.shiftRightOne

/-- An integer is nearest to a number over a power of two. -/
def Rounds (m k r : ℕ) : Prop :=
  2 * (r * 2 ^ k) ≤ 2 * m + 2 ^ k ∧ 2 * m ≤ 2 * (r * 2 ^ k) + 2 ^ k

/-- **Rounding errs by half a unit** at most. -/
theorem Splits.roundedMantissa {kept : ExtendedMantissa} (h : Splits m k kept) :
    Rounds m k kept.roundedMantissa := by
  obtain ⟨mantissa, roundBit, stickyBit⟩ := kept
  obtain ⟨rest, hm, hrest⟩ := h
  dsimp only at hm hrest
  have hdown : 2 * rest ≤ 2 ^ k → Rounds m k mantissa := by
    intro hle
    constructor <;> omega
  have hup : 2 ^ k ≤ 2 * rest → rest ≤ 2 ^ k → Rounds m k (mantissa + 1) := by
    intro hge hle
    rw [Rounds, Nat.add_mul]
    constructor <;> omega
  cases roundBit with
  | false =>
    cases stickyBit with
    | false =>
      obtain rfl : rest = 0 := hrest
      exact hdown (Nat.zero_le _)
    | true => exact hdown hrest.2.le
  | true =>
    cases stickyBit with
    | false =>
      -- A tie goes either way.
      show Rounds m k (mantissa + mantissa % 2)
      rcases Nat.mod_two_eq_zero_or_one mantissa with heven | hodd
      · rw [heven]
        exact hdown hrest.le
      · rw [hodd]
        exact hup hrest.ge (by omega)
    | true => exact hup hrest.1.le hrest.2.le

/-- The exponent that a number is shifted to: it leaves 53 bits, if it is not the least one. -/
def targetOf (m : ℕ) (e : ℤ) : ℤ :=
  max (m.log2 + e - 52) (-1074)

theorem shiftToTargetExponent_eq (m : ℕ) (e : ℤ) :
    shiftToTargetExponent .binary64 m e .exact =
      ((⟨m, false, false⟩ : ExtendedMantissa) >>> (targetOf m e - e).toNat,
        e + (targetOf m e - e).toNat) := by
  have htarget : Format.binary64.targetExponent (totalExponent m e) = targetOf m e := by
    rw [Format.targetExponent, totalExponent, targetOf,
      show Format.binary64.mantissaBits = 53 by rfl,
      show Format.binary64.minExponent = -1074 by decide]
    congr 1
    omega
  rw [shiftToTargetExponent, htarget]
  rfl

theorem targetOf_eq (hfine : 52 ≤ m.log2 ∨ e ≤ -1074) :
    ∃ k : ℕ, targetOf m e = e + k ∧ (targetOf m e - e).toNat = k ∧ m.log2 ≤ 52 + k := by
  refine ⟨(targetOf m e - e).toNat, ?_, rfl, ?_⟩ <;> rw [targetOf] <;> omega

theorem Rounds.le_of_log2_le (h : Rounds m k r) (hlog : m.log2 ≤ 52 + k) : r ≤ 2 ^ 53 := by
  have hm : m < 2 ^ 53 * 2 ^ k := by
    calc m < 2 ^ (m.log2 + 1) := Nat.lt_log2_self
      _ ≤ 2 ^ (53 + k) := Nat.pow_le_pow_right (by decide) (by omega)
      _ = 2 ^ 53 * 2 ^ k := Nat.pow_add ..
  have hpos : 0 < 2 ^ k := Nat.two_pow_pos k
  by_contra hlt
  have hmul : (2 ^ 53 + 1) * 2 ^ k ≤ r * 2 ^ k := Nat.mul_le_mul_right _ (by omega)
  have hle := h.1
  rw [Nat.add_mul] at hmul
  omega

theorem shiftToTargetExponent_of_lt (hr : r < 2 ^ 53) (ht : -1074 ≤ t) :
    shiftToTargetExponent .binary64 r t .exact = (⟨r, false, false⟩, t) := by
  have hlog : r.log2 ≤ 52 := by
    by_cases hzero : r = 0
    · simp [hzero]
    · have hlt := (Nat.log2_lt hzero).mpr hr
      omega
  have hshift : (targetOf r t - t).toNat = 0 := by
    rw [targetOf]
    omega
  rw [shiftToTargetExponent_eq, hshift]
  simp [HShiftRight.hShiftRight, Nat.repeat]

theorem shiftToTargetExponent_of_eq (ht : -1074 ≤ t) :
    shiftToTargetExponent .binary64 (2 ^ 53) t .exact = (⟨2 ^ 52, false, false⟩, t + 1) := by
  have hshift : (targetOf (2 ^ 53) t - t).toNat = 1 := by
    rw [targetOf, Nat.log2_two_pow]
    omega
  rw [shiftToTargetExponent_eq, hshift]
  rfl

/-- The parts of a number that was rounded to `r` units of `2 ^ t`. A significand of 54 bits is a
power of two and loses its last bit. -/
def roundedParts (s : Sign) (r : ℕ) (t : ℤ) : UnpackedFloat :=
  if h : r = 0 then .zero s
  else if r < 2 ^ 53 then .finite s r t (Nat.pos_of_ne_zero h)
  else .finite s (2 ^ 52) (t + 1) (Nat.two_pow_pos 52)

/-- **Rounding to 53 bits.** -/
theorem roundWithAccuracy_eq (s : Sign) (m : ℕ) (e : ℤ) (hfine : 52 ≤ m.log2 ∨ e ≤ -1074) :
    ∃ k r : ℕ, targetOf m e = e + k ∧ Rounds m k r ∧ r ≤ 2 ^ 53 ∧
      roundWithAccuracy .binary64 s m e .exact = roundedParts s r (e + k) := by
  obtain ⟨k, htarget, hk, hlog⟩ := targetOf_eq hfine
  have hmin : -1074 ≤ e + k := by
    rw [← htarget, targetOf]
    omega
  have hrounds := (splits_shiftRight m k).roundedMantissa
  have hle := hrounds.le_of_log2_le hlog
  refine ⟨k, _, htarget, hrounds, hle, ?_⟩
  rw [roundWithAccuracy, roundedParts, shiftToTargetExponent_eq, hk]
  dsimp only
  generalize ExtendedMantissa.roundedMantissa _ = r at hle ⊢
  by_cases hshort : r < 2 ^ 53
  · simp only [shiftToTargetExponent_of_lt hshort hmin, if_pos hshort]
  · obtain rfl : r = 2 ^ 53 := by omega
    simp only [shiftToTargetExponent_of_eq hmin]
    rw [dif_neg (by positivity), dif_neg (by positivity), if_neg (by omega)]

-- ════════════════════════════════════════════════════════════════════════
-- Rounded values are nearest
-- ════════════════════════════════════════════════════════════════════════

theorem Rounds.abs_sub_le (h : Rounds m k r) : |(r : ℚ) - m / 2 ^ k| ≤ 1 / 2 := by
  have hpow : (0 : ℚ) < 2 ^ k := by positivity
  have hlow : 2 * ((r : ℚ) * 2 ^ k) ≤ 2 * m + 2 ^ k := by exact_mod_cast h.1
  have hhigh : 2 * (m : ℚ) ≤ 2 * (r * 2 ^ k) + 2 ^ k := by exact_mod_cast h.2
  have heq : (r : ℚ) - m / 2 ^ k = (r * 2 ^ k - m) / 2 ^ k := by field_simp
  rw [heq, abs_le, le_div_iff₀ hpow, div_le_iff₀ hpow]
  constructor <;> linarith

/-- No integer is nearer to a number than one that is half a unit away. -/
theorem abs_sub_le_of_abs_sub_le_half {x : ℚ} (h : |(r : ℚ) - x| ≤ 1 / 2) (n : ℤ) :
    |(r : ℚ) - x| ≤ |n - x| := by
  by_cases heq : n = r
  · rw [heq, Int.cast_natCast]
  · have hone : (1 : ℤ) ≤ |n - r| := Int.one_le_abs (sub_ne_zero.mpr heq)
    have hcast : (1 : ℚ) ≤ |(n : ℚ) - r| := by exact_mod_cast hone
    have htriangle : |(n : ℚ) - r| ≤ |n - x| + |(r : ℚ) - x| := by
      rw [abs_sub_comm (r : ℚ) x]
      exact abs_sub_le _ _ _
    linarith

theorem isBinary64_of_le (hr : r ≤ 2 ^ 53) (hmin : -1074 ≤ t) (hmax : t ≤ 970) :
    IsBinary64 (r * 2 ^ t) := by
  by_cases hshort : r < 2 ^ 53
  · refine ⟨r, t, ?_, hmin, by omega, by rw [Int.cast_natCast]⟩
    rw [abs_of_nonneg (by positivity)]
    exact_mod_cast hshort
  · obtain rfl : r = 2 ^ 53 := by omega
    refine ⟨2 ^ 52, t + 1, by norm_num, by omega, by omega, ?_⟩
    rw [zpow_add_one₀ (by norm_num)]
    push_cast
    ring

/-- A number of a coarser grid is one of the grid at hand. -/
theorem exists_eq_mul_of_le {f : ℤ} (n : ℤ) (hf : t ≤ f) :
    ∃ n' : ℤ, (n : ℚ) * 2 ^ f = n' * 2 ^ t := by
  obtain ⟨j, hj⟩ := Int.eq_ofNat_of_zero_le (sub_nonneg.mpr hf)
  refine ⟨n * 2 ^ j, ?_⟩
  rw [show f = j + t by omega, zpow_add₀ (by norm_num), zpow_natCast]
  push_cast
  ring

/-- A number of a finer grid is smaller than all that need the grid at hand. -/
theorem mul_le_of_lt {n f : ℤ} (hn : |n| < 2 ^ 53) (hf : f < t) :
    (n : ℚ) * 2 ^ f ≤ 2 ^ 52 * 2 ^ t := by
  have hcast : (n : ℚ) ≤ 2 ^ 53 := by exact_mod_cast (abs_lt.mp hn).2.le
  have hstep : (2 : ℚ) ^ (f + 1) ≤ 2 ^ t := zpow_le_zpow_right₀ (by norm_num) (by omega)
  calc (n : ℚ) * 2 ^ f ≤ 2 ^ 53 * 2 ^ f := by gcongr
    _ = 2 ^ 52 * 2 ^ (f + 1) := by
        rw [zpow_add_one₀ (by norm_num)]
        ring
    _ ≤ 2 ^ 52 * 2 ^ t := by gcongr

/-- **Nothing on the grid is nearer** than what a number is rounded to. -/
theorem isNearest_of_rounds (h : Rounds m k r) (hr : r ≤ 2 ^ 53) (hmin : -1074 ≤ e + k)
    (hmax : e + k ≤ 970) (hfull : 2 ^ 52 * 2 ^ k ≤ m ∨ e + k = -1074) :
    IsNearest (m * 2 ^ e) (r * 2 ^ (e + k)) := by
  have hexact : (m : ℚ) * 2 ^ e = m / 2 ^ k * 2 ^ (e + k) := by
    rw [zpow_add₀ (by norm_num), zpow_natCast]
    field_simp
  have hgrid : ∀ n : ℤ,
      |(r : ℚ) * 2 ^ (e + k) - m * 2 ^ e| ≤ |(n : ℚ) * 2 ^ (e + k) - m * 2 ^ e| := by
    intro n
    rw [hexact, ← sub_mul, ← sub_mul, abs_mul, abs_mul]
    exact mul_le_mul_of_nonneg_right (abs_sub_le_of_abs_sub_le_half h.abs_sub_le n) (abs_nonneg _)
  refine ⟨isBinary64_of_le hr hmin hmax, ?_⟩
  rintro _ ⟨n, f, hn, hf, -, rfl⟩
  by_cases hcoarse : e + k ≤ f
  · obtain ⟨n', hn'⟩ := exists_eq_mul_of_le n hcoarse
    rw [hn']
    exact hgrid n'
  · have hlarge : (2 ^ 52 : ℚ) * 2 ^ (e + k) ≤ m * 2 ^ e := by
      have hm : 2 ^ 52 * 2 ^ k ≤ m := hfull.resolve_right (by omega)
      have hcast : (2 ^ 52 * 2 ^ k : ℚ) ≤ m := by exact_mod_cast hm
      rw [hexact]
      gcongr
      rwa [le_div_iff₀ (by positivity)]
    have hsmall := mul_le_of_lt hn (not_le.mp hcoarse)
    have hleast := hgrid (2 ^ 52)
    push_cast at hleast
    refine hleast.trans ?_
    rw [abs_of_nonpos (by linarith), abs_of_nonpos (by linarith)]
    linarith

theorem IsBinary64.neg (h : IsBinary64 q) : IsBinary64 (-q) := by
  obtain ⟨m, e, hm, hmin, hmax, rfl⟩ := h
  exact ⟨-m, e, by rwa [abs_neg], hmin, hmax, by push_cast; ring⟩

theorem IsNearest.neg (h : IsNearest q v) : IsNearest (-q) (-v) := by
  refine ⟨h.isBinary64.neg, fun r hr => ?_⟩
  have hdist := h.dist_le (-r) hr.neg
  have hleft : -v - -q = -(v - q) := by ring
  have hright : r - -q = -(-r - q) := by ring
  rwa [hleft, hright, abs_neg, abs_neg]

theorem partsValue?_roundedParts (s : Sign) (hr : r ≤ 2 ^ 53) (hmin : -1074 ≤ t) (hmax : t ≤ 970)
    (hfull : 2 ^ 52 ≤ r ∨ t = -1074) :
    partsValue? (Float.Model.pack (roundedParts s r t)).unpack =
      some (((s.apply r : ℤ) : ℚ) * 2 ^ t) := by
  rw [roundedParts]
  by_cases hzero : r = 0
  · subst hzero
    rw [dif_pos rfl, unpack_pack_zero]
    cases s <;> simp [partsValue?, Sign.apply]
  · rw [dif_neg hzero]
    by_cases hshort : r < 2 ^ 53
    · rw [if_pos hshort, unpack_pack_finite _ _ ⟨hshort, hmin, by omega, hfull⟩]
      rfl
    · obtain rfl : r = 2 ^ 53 := by omega
      rw [if_neg hshort, unpack_pack_finite _ _ ⟨by norm_num, by omega, by omega, .inl le_rfl⟩]
      rw [partsValue?, zpow_add_one₀ (by norm_num)]
      cases s <;> simp only [Sign.apply] <;> push_cast <;> ring_nf

/-- **Rounding a positive number** that has a machine number near it. -/
theorem exists_isNearest_round (s : Sign) (hm : 0 < m) (hfine : 52 ≤ m.log2 ∨ e ≤ -1074)
    (hmax : targetOf m e ≤ 970) :
    ∃ v, partsValue? (Float.Model.pack (roundWithAccuracy .binary64 s m e .exact)).unpack = some v ∧
      IsNearest (((s.apply m : ℤ) : ℚ) * 2 ^ e) v := by
  obtain ⟨k, r, htarget, hrounds, hr, hround⟩ := roundWithAccuracy_eq s m e hfine
  have hmin : -1074 ≤ e + k := by
    rw [← htarget, targetOf]
    omega
  have hfull : 2 ^ 52 * 2 ^ k ≤ m ∨ e + k = -1074 := by
    by_cases hleast : e + k = -1074
    · exact .inr hleast
    · have hlog : m.log2 = 52 + k := by
        rw [targetOf] at htarget
        omega
      rw [← Nat.pow_add, ← hlog]
      exact .inl (Nat.log2_self_le (by omega))
  have hlong : 2 ^ 52 ≤ r ∨ e + k = -1074 := by
    refine hfull.imp_left fun hm => ?_
    have hpos : 0 < 2 ^ k := Nat.two_pow_pos k
    by_contra hlt
    have hmul : r * 2 ^ k ≤ (2 ^ 52 - 1) * 2 ^ k := Nat.mul_le_mul_right _ (by omega)
    have hle := hrounds.2
    rw [Nat.sub_mul] at hmul
    omega
  refine ⟨_, hround ▸ partsValue?_roundedParts s hr hmin (by omega) hlong, ?_⟩
  have hnearest := isNearest_of_rounds hrounds hr hmin (by omega) hfull
  cases s with
  | positive => simpa [Sign.apply] using hnearest
  | negative => simpa [Sign.apply] using hnearest.neg

-- ════════════════════════════════════════════════════════════════════════
-- Machine products
-- ════════════════════════════════════════════════════════════════════════

theorem apply_mul (s s' : Sign) (a b : ℕ) :
    (s * s').apply ((a * b : ℕ) : ℤ) = s.apply a * s'.apply b := by
  cases s with
  | negative =>
    cases s' with
    | negative => exact (Int.natCast_mul a b).trans (Int.neg_mul_neg a b).symm
    | positive => exact (congrArg Neg.neg (Int.natCast_mul a b)).trans (Int.neg_mul a b).symm
  | positive =>
    cases s' with
    | negative => exact (congrArg Neg.neg (Int.natCast_mul a b)).trans (Int.mul_neg a b).symm
    | positive => exact Int.natCast_mul a b

theorem IsBinary64.isNearest_self (h : IsBinary64 q) : IsNearest q q := by
  refine ⟨h, fun r _ => ?_⟩
  rw [sub_self, abs_zero]
  exact abs_nonneg _

theorem isNearest_zero : IsNearest 0 0 :=
  isBinary64_zero.isNearest_self

/-- A product of significands has 53 bits, or both exponents are the least. -/
theorem IsCanonical.fine_mul {m' : ℕ} {e' : ℤ} (h : IsCanonical m e) (h' : IsCanonical m' e')
    (hm : 0 < m) (hm' : 0 < m') : 52 ≤ (m * m').log2 ∨ e + e' ≤ -1074 := by
  have hpos : m * m' ≠ 0 := (Nat.mul_pos hm hm').ne'
  rw [Nat.le_log2 hpos]
  rcases h.full with hfull | hleast
  · exact .inl (hfull.trans (Nat.le_mul_of_pos_right m hm'))
  · rcases h'.full with hfull' | hleast'
    · exact .inl (hfull'.trans (Nat.le_mul_of_pos_left m' hm))
    · omega

/-- Numbers up to one in size are far from the greatest exponent. -/
theorem targetOf_le_of_mul_le_one (hm : 0 < m) (h : (m : ℚ) * 2 ^ e ≤ 1) : targetOf m e ≤ 970 := by
  have hlow : (2 : ℚ) ^ (m.log2 + e : ℤ) ≤ 2 ^ (0 : ℤ) := by
    have hlog : ((2 ^ m.log2 : ℕ) : ℚ) ≤ m := by exact_mod_cast Nat.log2_self_le hm.ne'
    have hpow : (0 : ℚ) < 2 ^ e := by positivity
    rw [zpow_add₀ (by norm_num), zpow_natCast, zpow_zero]
    push_cast at hlog
    exact (mul_le_mul_of_nonneg_right hlog hpow.le).trans h
  have hle := (zpow_le_zpow_iff_right₀ (by norm_num : (1 : ℚ) < 2)).mp hlow
  rw [targetOf]
  omega

theorem exists_isNearest_mul {x y : UnpackedFloat} (hx : partsValue? x = some q)
    (hy : partsValue? y = some w) (hcx : HasCanonicalParts x) (hcy : HasCanonicalParts y)
    (hsize : |q * w| ≤ 1) :
    ∃ v, partsValue? (Float.Model.pack (UnpackedFloat.mul .binary64 x y)).unpack = some v ∧
      IsNearest (q * w) v := by
  have hzero : ∀ s : Sign, ∃ v,
      partsValue? (Float.Model.pack (.zero s)).unpack = some v ∧ IsNearest 0 v := by
    intro s
    rw [unpack_pack_zero]
    exact ⟨0, rfl, isNearest_zero⟩
  cases x with
  | infinity _ => cases hx
  | notANumber => cases hx
  | zero s =>
    cases hx
    rw [zero_mul]
    cases y with
    | infinity _ => cases hy
    | notANumber => cases hy
    | zero s' => exact hzero (s * s')
    | finite s' _ _ _ => exact hzero (s * s')
  | finite s m e hm =>
    cases hx
    cases y with
    | infinity _ => cases hy
    | notANumber => cases hy
    | zero s' =>
      cases hy
      rw [mul_zero]
      exact hzero (s * s')
    | finite s' m' e' hm' =>
      cases hy
      have hproduct : ((s.apply m : ℤ) : ℚ) * 2 ^ e * (((s'.apply m' : ℤ) : ℚ) * 2 ^ e') =
          (((s * s').apply ((m * m' : ℕ) : ℤ) : ℤ) : ℚ) * 2 ^ (e + e') := by
        rw [apply_mul, zpow_add₀ (by norm_num)]
        push_cast
        ring
      rw [hproduct] at hsize ⊢
      have hpos := Nat.mul_pos hm hm'
      refine exists_isNearest_round (s * s') hpos (hcx.fine_mul hcy hm hm') ?_
      refine targetOf_le_of_mul_le_one hpos ?_
      rwa [abs_mul, ← Int.cast_abs, abs_apply, Int.cast_natCast, abs_of_pos (by positivity)] at hsize

/-- **A machine product** of a size up to one is nearest to the exact product. -/
theorem floatValue?_mul {a b : Float} (ha : floatValue? a = some q) (hb : floatValue? b = some w)
    (hsize : |q * w| ≤ 1) : ∃ v, floatValue? (a * b) = some v ∧ IsNearest (q * w) v :=
  exists_isNearest_mul ha hb (hasCanonicalParts_unpack _) (hasCanonicalParts_unpack _) hsize

end TrigPainting.Decimal
