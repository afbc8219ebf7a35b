import Mathlib
import TrigPainting.Proofs.Decimal.Squares

/-!
# Values of machine numbers

The value of a machine number is read off its parts: sign, significand and exponent. A machine
number has the parts that it was packed from, and machine numbers compare as their values.

## Main definitions

- `floatValue?` — the value of a machine number, unless it has none
- `IsCanonical` — significand and exponent as a machine number has them

## Main statements

- `unpack_eq` — the parts of a machine number, by its bits
- `unpack_pack_finite`, `isCanonical_of_unpack` — which parts can be packed and read again
- `lt_iff_of_floatValue?`, `le_iff_of_floatValue?` — machine numbers compare as their values
-/

namespace TrigPainting.Decimal

open Float.Model Float.Model.UnpackedFloat

/-- The value of the parts of a machine number, unless it is infinite or none. -/
def partsValue? : UnpackedFloat → Option ℚ
  | .zero _ => some 0
  | .finite s m e _ => some (((s.apply m : ℤ) : ℚ) * 2 ^ e)
  | .infinity _ => none
  | .notANumber => none

/-- The exact value of a machine number, unless it is infinite or none. -/
def floatValue? (x : Float) : Option ℚ :=
  partsValue? x.toModel.unpack

/-- A significand and an exponent as a machine number has them: only the numbers of the least
exponent have a short significand. -/
structure IsCanonical (m : ℕ) (e : ℤ) : Prop where
  lt : m < 2 ^ 53
  min_le : -1074 ≤ e
  le_max : e ≤ 971
  full : 2 ^ 52 ≤ m ∨ e = -1074

variable {s : Sign} {m : ℕ} {e : ℤ} {q w : ℚ}

-- ════════════════════════════════════════════════════════════════════════
-- Parts of machine numbers
-- ════════════════════════════════════════════════════════════════════════

/-- The leading bit of a significand stands in front of the 52 bits that are kept. -/
theorem toNat_one_append (fraction : BitVec 52) :
    (1#1 ++ fraction).toNat = 2 ^ 52 + fraction.toNat := by
  rw [BitVec.toNat_append, ← Nat.shiftLeft_add_eq_or_of_lt fraction.isLt]
  rfl

/-- **The parts of a machine number**, by the numbers in its three fields. -/
theorem unpack_eq (b : BitVec Format.binary64.numBits) :
    UnpackedFloat.unpack .binary64 b =
      let sign := Sign.ofBitVec (unpackSign b)
      let field : ℕ := (unpackExponent b).toNat
      let fraction : ℕ := (unpackMantissa b).toNat
      if field = 2047 then (if fraction = 0 then .infinity sign else .notANumber)
      else if field = 0 then
        if h : 0 < fraction then .finite sign fraction (-1074) h else .zero sign
      else .finite sign (2 ^ 52 + fraction) (field - 1075)
        (Nat.add_pos_left (Nat.two_pow_pos 52) fraction) := by
  have hfield : unpackExponent b = -1#11 ↔ (unpackExponent b).toNat = 2047 :=
    BitVec.toNat_inj.symm
  have hzero : unpackExponent b = 0#11 ↔ (unpackExponent b).toNat = 0 := BitVec.toNat_inj.symm
  have hfraction : unpackMantissa b = 0#52 ↔ (unpackMantissa b).toNat = 0 := BitVec.toNat_inj.symm
  have hfull : (1#1 ++ unpackMantissa b).toNat = 2 ^ 52 + (unpackMantissa b).toNat :=
    toNat_one_append _
  simp only [UnpackedFloat.unpack]
  by_cases hinfinite : (unpackExponent b).toNat = 2047
  · rw [if_pos (hfield.mpr hinfinite), if_pos hinfinite]
    simp only [hfraction]
  · rw [if_neg (mt hfield.mp hinfinite), if_neg hinfinite]
    by_cases hsmall : (unpackExponent b).toNat = 0
    · rw [if_pos (hzero.mpr hsmall), if_pos hsmall]
      by_cases hnone : (unpackMantissa b).toNat = 0
      · rw [dif_pos (hfraction.mpr hnone), dif_neg (by omega)]
      · rw [dif_neg (mt hfraction.mp hnone), dif_pos (by omega), hsmall]
        rfl
    · rw [if_neg (mt hzero.mp hsmall), if_neg hsmall]
      simp only [hfull]
      rfl

theorem unpack_pack_zero (s : Sign) : (Float.Model.pack (.zero s)).unpack = .zero s :=
  unpack_packedZero

theorem fields_lt (b : BitVec Format.binary64.numBits) :
    (unpackExponent b).toNat < 2 ^ 11 ∧ (unpackMantissa b).toNat < 2 ^ 52 :=
  ⟨(unpackExponent b).isLt, (unpackMantissa b).isLt⟩

theorem isCanonical_of_unpack {x : Float.Model} {hm : 0 < m} (h : x.unpack = .finite s m e hm) :
    IsCanonical m e := by
  obtain ⟨hfield, hfraction⟩ := fields_lt x.toBits.toBitVec
  rw [Float.Model.unpack, unpack_eq] at h
  dsimp only at h
  split at h
  · split at h <;> cases h
  · split at h
    · split at h
      · cases h
        exact ⟨by omega, by omega, by omega, by omega⟩
      · cases h
    · cases h
      exact ⟨by omega, by omega, by omega, by omega⟩

theorem log2_add_one_eq_iff (hm : 0 < m) (hlt : m < 2 ^ 53) :
    m.log2 + 1 = Format.binary64.mantissaBits ↔ 2 ^ 52 ≤ m := by
  show m.log2 + 1 = 53 ↔ 2 ^ 52 ≤ m
  constructor
  · intro h
    have hlog : m.log2 = 52 := by omega
    exact ((Nat.log2_eq_iff (by omega)).mp hlog).1
  · intro hfull
    rw [(Nat.log2_eq_iff (by omega)).mpr ⟨hfull, hlt⟩]

theorem pack_finite (s : Sign) (hm : 0 < m) (h : IsCanonical m e) :
    UnpackedFloat.pack .binary64 (.finite s m e hm) =
      packComponents .binary64 s (BitVec.ofNat 11 (if 2 ^ 52 ≤ m then (e + 1075).toNat else 0))
        (BitVec.ofNat 52 m) := by
  obtain ⟨hlt, hmin, hmax, -⟩ := h
  have hbias : e + (Format.binary64.exponentBias : ℤ) + (52 : ℕ) = e + 1075 := by
    rw [show Format.binary64.exponentBias = 1023 by rfl]
    omega
  have hfinite : ¬ 2 ^ 11 ≤ (e + 1075).toNat + 1 := by omega
  simp only [UnpackedFloat.pack]
  rw [hbias, if_neg hfinite]
  by_cases hfull : 2 ^ 52 ≤ m
  · rw [if_pos ((log2_add_one_eq_iff hm hlt).mpr hfull), if_pos hfull]
  · rw [if_neg (mt (log2_add_one_eq_iff hm hlt).mp hfull), if_neg hfull]

/-- The parts that a machine number is packed from are those that it has. -/
theorem unpack_pack_finite (s : Sign) (hm : 0 < m) (h : IsCanonical m e) :
    (Float.Model.pack (.finite s m e hm)).unpack = .finite s m e hm := by
  have hpack : (Float.Model.pack (.finite s m e hm)).unpack =
      UnpackedFloat.unpack .binary64 (UnpackedFloat.pack .binary64 (.finite s m e hm)) := rfl
  rw [hpack, pack_finite s hm h, unpack_eq]
  simp only [unpackExponent_packComponents, unpackMantissa_packComponents,
    unpackSign_packComponents, Sign.ofBitVec_toBitVec]
  obtain ⟨hlt, hmin, hmax, hfull⟩ := h
  by_cases hleast : 2 ^ 52 ≤ m
  · have hfield : (BitVec.ofNat 11 (e + 1075).toNat).toNat = (e + 1075).toNat :=
      Nat.mod_eq_of_lt (by omega)
    have hfraction : 2 ^ 52 + (BitVec.ofNat 52 m).toNat = m := by
      rw [BitVec.toNat_ofNat]
      omega
    have hexponent : ((e + 1075).toNat : ℤ) - 1075 = e := by omega
    simp only [if_pos hleast, hfield, hfraction, hexponent]
    rw [if_neg (by omega), if_neg (by omega)]
  · have hexponent : e = -1074 := by omega
    have hfraction : (BitVec.ofNat 52 m).toNat = m := Nat.mod_eq_of_lt (by omega)
    simp only [if_neg hleast, hfraction, hexponent]
    rw [if_neg (by decide), if_pos (by decide), dif_pos hm]

/-- Parts as a machine number has them. -/
def HasCanonicalParts : UnpackedFloat → Prop
  | .finite _ m e _ => IsCanonical m e
  | _ => True

theorem hasCanonicalParts_unpack (x : Float.Model) : HasCanonicalParts x.unpack := by
  cases hx : x.unpack with
  | finite s m e hm => exact isCanonical_of_unpack hx
  | _ => trivial

theorem abs_apply (s : Sign) (m : ℕ) : |s.apply m| = m := by
  cases s <;> simp [Sign.apply]

theorem isBinary64_of_floatValue? {a : Float} (ha : floatValue? a = some q) : IsBinary64 q := by
  have hcanonical := hasCanonicalParts_unpack a.toModel
  rw [floatValue?] at ha
  cases hx : a.toModel.unpack with
  | infinity _ => simp [hx, partsValue?] at ha
  | notANumber => simp [hx, partsValue?] at ha
  | zero s =>
    rw [hx] at ha
    cases ha
    exact isBinary64_zero
  | finite s m e hm =>
    rw [hx] at ha hcanonical
    cases ha
    refine ⟨s.apply m, e, ?_, hcanonical.min_le, hcanonical.le_max, rfl⟩
    rw [abs_apply]
    exact_mod_cast hcanonical.lt

-- ════════════════════════════════════════════════════════════════════════
-- Comparing
-- ════════════════════════════════════════════════════════════════════════

/-- A larger exponent wins, since only the least one has short significands. -/
theorem IsCanonical.lt_of_lt {m' : ℕ} {e' : ℤ} (h : IsCanonical m e) (h' : IsCanonical m' e')
    (hlt : e < e') : (m : ℚ) * 2 ^ e < m' * 2 ^ e' := by
  have hfull : 2 ^ 52 ≤ m' := h'.full.resolve_right (by have := h.min_le; omega)
  have hm : (m : ℚ) < 2 ^ 53 := by exact_mod_cast h.lt
  have hm' : (2 ^ 52 : ℚ) ≤ m' := by exact_mod_cast hfull
  have hunit : (0 : ℚ) < 2 ^ e := by positivity
  have hstep : (2 : ℚ) ^ (e + 1) ≤ 2 ^ e' := zpow_le_zpow_right₀ (by norm_num) (by omega)
  calc (m : ℚ) * 2 ^ e < 2 ^ 53 * 2 ^ e := mul_lt_mul_of_pos_right hm hunit
    _ = 2 ^ 52 * 2 ^ (e + 1) := by
        rw [zpow_add_one₀ (by norm_num)]
        ring
    _ ≤ m' * 2 ^ e' := by gcongr

theorem IsCanonical.compare_eq {m' : ℕ} {e' : ℤ} (h : IsCanonical m e) (h' : IsCanonical m' e') :
    (compare e e').then (compare m m') = compare ((m : ℚ) * 2 ^ e) (m' * 2 ^ e') := by
  rcases lt_trichotomy e e' with hlt | rfl | hgt
  · rw [compare_lt_iff_lt.mpr hlt, compare_lt_iff_lt.mpr (h.lt_of_lt h' hlt)]
    rfl
  · have hunit : (0 : ℚ) < 2 ^ e := by positivity
    rw [compare_eq_iff_eq.mpr rfl, Ordering.then]
    rcases lt_trichotomy m m' with hlt | rfl | hgt
    · have hcast : (m : ℚ) < m' := by exact_mod_cast hlt
      rw [compare_lt_iff_lt.mpr hlt, compare_lt_iff_lt.mpr (mul_lt_mul_of_pos_right hcast hunit)]
    · rw [compare_eq_iff_eq.mpr rfl, compare_eq_iff_eq.mpr rfl]
    · have hcast : (m' : ℚ) < m := by exact_mod_cast hgt
      rw [compare_gt_iff_gt.mpr hgt, compare_gt_iff_gt.mpr (mul_lt_mul_of_pos_right hcast hunit)]
  · rw [compare_gt_iff_gt.mpr hgt, compare_gt_iff_gt.mpr (h'.lt_of_lt h hgt)]
    rfl

theorem compare_neg_neg (a b : ℚ) : compare (-a) (-b) = (compare a b).swap := by
  rcases lt_trichotomy a b with hlt | rfl | hgt
  · rw [compare_lt_iff_lt.mpr hlt, compare_gt_iff_gt.mpr (neg_lt_neg hlt)]
    rfl
  · rw [compare_eq_iff_eq.mpr rfl, compare_eq_iff_eq.mpr rfl]
    rfl
  · rw [compare_gt_iff_gt.mpr hgt, compare_lt_iff_lt.mpr (neg_lt_neg hgt)]
    rfl

theorem apply_positive_pos (e : ℤ) (hm : 0 < m) :
    (0 : ℚ) < ((Sign.positive.apply m : ℤ) : ℚ) * 2 ^ e := by
  rw [Sign.apply, Int.cast_natCast]
  positivity

theorem apply_negative_neg (e : ℤ) (hm : 0 < m) :
    ((Sign.negative.apply m : ℤ) : ℚ) * 2 ^ e < 0 := by
  rw [Sign.apply, Int.cast_neg, neg_mul]
  exact neg_lt_zero.mpr (apply_positive_pos e hm)

theorem compare_finite {s' : Sign} {m' : ℕ} {e' : ℤ} (hm : 0 < m) (hm' : 0 < m')
    (h : IsCanonical m e) (h' : IsCanonical m' e') :
    (UnpackedFloat.finite s m e hm).compare (.finite s' m' e' hm') =
      some (compare (((s.apply m : ℤ) : ℚ) * 2 ^ e) (((s'.apply m' : ℤ) : ℚ) * 2 ^ e')) := by
  have hsame := h.compare_eq h'
  cases s with
  | negative =>
    cases s' with
    | negative =>
      show some ((compare e e').then (compare m m')).swap = _
      rw [hsame, ← compare_neg_neg]
      simp [Sign.apply]
    | positive =>
      have hlt := (apply_negative_neg e hm).trans (apply_positive_pos e' hm')
      exact congrArg some (compare_lt_iff_lt.mpr hlt).symm
  | positive =>
    cases s' with
    | negative =>
      have hgt := (apply_negative_neg e' hm').trans (apply_positive_pos e hm)
      exact congrArg some (compare_gt_iff_gt.mpr hgt).symm
    | positive =>
      show some ((compare e e').then (compare m m')) = _
      rw [hsame]
      simp [Sign.apply]

/-- **Parts compare as their values.** -/
theorem compare_eq_some {x y : UnpackedFloat} (hx : partsValue? x = some q)
    (hy : partsValue? y = some w) (hcx : HasCanonicalParts x) (hcy : HasCanonicalParts y) :
    x.compare y = some (compare q w) := by
  cases x with
  | infinity _ => cases hx
  | notANumber => cases hx
  | zero s =>
    cases hx
    cases y with
    | infinity _ => cases hy
    | notANumber => cases hy
    | zero s' =>
      cases hy
      rw [compare_eq_iff_eq.mpr rfl]
      rfl
    | finite s' m' e' hm' =>
      cases hy
      cases s' with
      | negative => exact congrArg some (compare_gt_iff_gt.mpr (apply_negative_neg e' hm')).symm
      | positive => exact congrArg some (compare_lt_iff_lt.mpr (apply_positive_pos e' hm')).symm
  | finite s m e hm =>
    cases hx
    cases y with
    | infinity _ => cases hy
    | notANumber => cases hy
    | zero s' =>
      cases hy
      cases s with
      | negative => exact congrArg some (compare_lt_iff_lt.mpr (apply_negative_neg e hm)).symm
      | positive => exact congrArg some (compare_gt_iff_gt.mpr (apply_positive_pos e hm)).symm
    | finite s' m' e' hm' =>
      cases hy
      exact compare_finite hm hm' hcx hcy

theorem compare_unpack {a b : Float} (ha : floatValue? a = some q) (hb : floatValue? b = some w) :
    a.toModel.unpack.compare b.toModel.unpack = some (compare q w) :=
  compare_eq_some ha hb (hasCanonicalParts_unpack _) (hasCanonicalParts_unpack _)

theorem lt_iff_of_floatValue? {a b : Float} (ha : floatValue? a = some q)
    (hb : floatValue? b = some w) : a < b ↔ q < w := by
  have hlt : a < b ↔ (a.toModel.unpack.compare b.toModel.unpack == some .lt) = true := by
    show Float.lt a b = true ↔ _
    rw [Float.lt, decide_eq_true_iff]
    rfl
  rw [hlt, compare_unpack ha hb, ← compare_lt_iff_lt]
  simp

theorem le_iff_of_floatValue? {a b : Float} (ha : floatValue? a = some q)
    (hb : floatValue? b = some w) : a ≤ b ↔ q ≤ w := by
  have hle : a ≤ b ↔ (a.toModel.unpack.compare b.toModel.unpack).any Ordering.isLE = true := by
    show Float.le a b = true ↔ _
    rw [Float.le, decide_eq_true_iff]
    rfl
  rw [hle, compare_unpack ha hb, ← compare_le_iff_le]
  cases compare q w <;> simp

-- ════════════════════════════════════════════════════════════════════════
-- Zero, one and what lies between
-- ════════════════════════════════════════════════════════════════════════

theorem floatValue?_zero : floatValue? 0 = some 0 := rfl

theorem floatValue?_one : floatValue? 1 = some 1 := by
  have hparts : (1 : Float).toModel.unpack = .finite .positive (2 ^ 52) (-52) (by decide) := by rfl
  rw [floatValue?, hparts]
  norm_num [partsValue?, Sign.apply]

theorem exists_floatValue?_of_between {a : Float} (hzero : 0 ≤ a) (hone : a < 1) :
    ∃ q, floatValue? a = some q := by
  rw [floatValue?]
  have hle : Float.le 0 a = true := hzero
  have hlt : Float.lt a 1 = true := hone
  rw [Float.le, decide_eq_true_iff] at hle
  rw [Float.lt, decide_eq_true_iff] at hlt
  have hle' : ((0 : Float).toModel.unpack.compare a.toModel.unpack).any Ordering.isLE = true := hle
  have hlt' : (a.toModel.unpack.compare (1 : Float).toModel.unpack == some .lt) = true := hlt
  cases ha : a.toModel.unpack with
  | zero s => exact ⟨_, rfl⟩
  | finite s m e hm => exact ⟨_, rfl⟩
  | notANumber =>
    rw [ha] at hle'
    cases hle'
  | infinity s =>
    cases s with
    | negative =>
      rw [ha] at hle'
      cases hle'
    | positive =>
      rw [ha] at hlt'
      cases hlt'

end TrigPainting.Decimal
