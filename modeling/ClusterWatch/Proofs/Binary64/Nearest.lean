import ClusterWatch.Proofs.Binary64.Rounding
import Mathlib.Algebra.Order.Field.Power
import Mathlib.Tactic.NormNum
import Mathlib.Tactic.Positivity

/-!
# Nearest numbers of the format

A number of the format has 53 significant bits and no place below 2 ^ -1074 (`IsNumber`).  `nearest`
gives such a number (`isNumber_nearest`), and none is nearer (`abs_sub_nearest_le`).  So it leaves
the numbers of the format as they are (`nearest_eq_self`) and is monotone (`nearest_mono`).  It
moves a number by at most half a unit in its last place (`abs_sub_nearest_le_zpow`).

Bits denote a number unless their exponent field is all ones, as that of an infinity or a NaN is
(`ofBits_eq_none_iff`).
-/

namespace ClusterWatch.Binary64

theorem pow2_eq_zpow (k : Int) : pow2 k = (2 : ℚ) ^ k := by
  cases k with
  | ofNat n => simp [pow2]
  | negSucc n => simp [pow2, zpow_negSucc]

theorem magnitude_eq_abs (x : ℚ) : magnitude x = |x| := by
  rw [magnitude]
  split_ifs with h
  · rw [abs_of_neg h]
  · rw [abs_of_nonneg (not_lt.1 h)]

theorem zpow_lt_zpow_iff_two {j k : ℤ} : (2 : ℚ) ^ j < 2 ^ k ↔ j < k :=
  zpow_lt_zpow_iff_right₀ one_lt_two

/-! ### The exponent -/

/-- The exponent stands between the two that the lengths of the parts of a fraction leave open. -/
theorem zpow_log2_bounds {x : ℚ} (hx : x ≠ 0) :
    (2 : ℚ) ^ ((Nat.log2 x.num.natAbs : ℤ) - Nat.log2 x.den - 1) < |x| ∧
      |x| < (2 : ℚ) ^ ((Nat.log2 x.num.natAbs : ℤ) - Nat.log2 x.den + 1) := by
  have hnum : x.num.natAbs ≠ 0 := Int.natAbs_ne_zero.2 (Rat.num_ne_zero.2 hx)
  have habs : |x| = (x.num.natAbs : ℚ) / x.den := by
    conv_lhs => rw [← Rat.num_div_den x, abs_div, Nat.abs_cast]
    rw [Nat.cast_natAbs, Int.cast_abs]
  have hden : (0 : ℚ) < x.den := by exact_mod_cast x.den_pos
  have hnum_le : (2 : ℚ) ^ Nat.log2 x.num.natAbs ≤ x.num.natAbs := by
    exact_mod_cast Nat.log2_self_le hnum
  have hnum_lt : (x.num.natAbs : ℚ) < 2 ^ (Nat.log2 x.num.natAbs + 1) := by
    exact_mod_cast Nat.lt_log2_self
  have hden_le : (2 : ℚ) ^ Nat.log2 x.den ≤ x.den := by
    exact_mod_cast Nat.log2_self_le x.den_nz
  have hden_lt : (x.den : ℚ) < 2 ^ (Nat.log2 x.den + 1) := by
    exact_mod_cast Nat.lt_log2_self
  rw [habs, lt_div_iff₀ hden, div_lt_iff₀ hden]
  constructor
  · calc (2 : ℚ) ^ ((Nat.log2 x.num.natAbs : ℤ) - Nat.log2 x.den - 1) * x.den
        < 2 ^ ((Nat.log2 x.num.natAbs : ℤ) - Nat.log2 x.den - 1) * 2 ^ (Nat.log2 x.den + 1) :=
          mul_lt_mul_of_pos_left hden_lt (by positivity)
      _ = 2 ^ Nat.log2 x.num.natAbs := by
          rw [← zpow_natCast, ← zpow_natCast, ← zpow_add₀ two_ne_zero]
          congr 1
          push_cast
          ring
      _ ≤ x.num.natAbs := hnum_le
  · calc (x.num.natAbs : ℚ) < 2 ^ (Nat.log2 x.num.natAbs + 1) := hnum_lt
      _ = 2 ^ ((Nat.log2 x.num.natAbs : ℤ) - Nat.log2 x.den + 1) * 2 ^ Nat.log2 x.den := by
          rw [← zpow_natCast, ← zpow_natCast, ← zpow_add₀ two_ne_zero]
          congr 1
          push_cast
          ring
      _ ≤ 2 ^ ((Nat.log2 x.num.natAbs : ℤ) - Nat.log2 x.den + 1) * x.den :=
          mul_le_mul_of_nonneg_left hden_le (by positivity)

/-- The size of a number is at least the power of two at its exponent. -/
theorem zpow_exponent_le {x : ℚ} (hx : x ≠ 0) : (2 : ℚ) ^ exponent x ≤ |x| := by
  simp only [exponent, pow2_eq_zpow, magnitude_eq_abs]
  split_ifs with h
  · exact h
  · exact (zpow_log2_bounds hx).1.le

/-- The size of a number is below the power of two behind its exponent. -/
theorem lt_zpow_exponent {x : ℚ} (hx : x ≠ 0) : |x| < (2 : ℚ) ^ (exponent x + 1) := by
  simp only [exponent, pow2_eq_zpow, magnitude_eq_abs]
  split_ifs with h
  · exact (zpow_log2_bounds hx).2
  · rw [sub_add_cancel]
    exact not_le.1 h

theorem le_exponent {x : ℚ} {k : ℤ} (hx : x ≠ 0) (h : (2 : ℚ) ^ k ≤ |x|) : k ≤ exponent x :=
  Int.lt_add_one_iff.1 (zpow_lt_zpow_iff_two.1 (h.trans_lt (lt_zpow_exponent hx)))

theorem exponent_lt {x : ℚ} {k : ℤ} (hx : x ≠ 0) (h : |x| < (2 : ℚ) ^ k) : exponent x < k :=
  zpow_lt_zpow_iff_two.1 ((zpow_exponent_le hx).trans_lt h)

/-! ### The numbers of the format -/

/-- `x` has 53 significant bits and no place below 2 ^ -1074. -/
def IsNumber (x : ℚ) : Prop := ∃ m k : ℤ, |m| ≤ 2 ^ 53 ∧ -1074 ≤ k ∧ x = m * (2 : ℚ) ^ k

theorem isNumber_intCast {n : ℤ} (h : |n| ≤ 2 ^ 53) : IsNumber n :=
  ⟨n, 0, h, by norm_num, by simp⟩

/-- Powers of two are numbers of the format, down to the last place that it has. -/
theorem isNumber_zpow {k : ℤ} (h : -1074 ≤ k) : IsNumber ((2 : ℚ) ^ k) :=
  ⟨1, k, by norm_num, h, by simp⟩

/-- A number is rounded to a multiple of its last place. -/
theorem nearest_eq (x : ℚ) :
    nearest x = roundEven (x / (2 : ℚ) ^ lastPlace x) * (2 : ℚ) ^ lastPlace x := by
  simp only [nearest, pow2_eq_zpow]

@[simp]
theorem nearest_zero : nearest 0 = 0 := by
  have hround : roundEven 0 = 0 := roundEven_intCast 0
  rw [nearest_eq, zero_div, hround, Int.cast_zero, zero_mul]

/-- A number is below 2 ^ 53 units of its last place. -/
theorem abs_lt_zpow_lastPlace (x : ℚ) : |x| < (2 : ℚ) ^ 53 * 2 ^ lastPlace x := by
  rw [← zpow_natCast, ← zpow_add₀ two_ne_zero]
  rcases eq_or_ne x 0 with rfl | hx
  · rw [abs_zero]
    positivity
  · refine (lt_zpow_exponent hx).trans_le (zpow_le_zpow_right₀ one_le_two ?_)
    have : exponent x - 52 ≤ lastPlace x := le_max_left _ _
    push_cast
    omega

/-- **Rounding gives a number of the format.** -/
theorem isNumber_nearest (x : ℚ) : IsNumber (nearest x) := by
  refine ⟨roundEven (x / 2 ^ lastPlace x), lastPlace x, ?_, le_max_right _ _, nearest_eq x⟩
  have hlt : |x / 2 ^ lastPlace x| < 2 ^ 53 := by
    rw [abs_div, abs_of_pos (by positivity : (0 : ℚ) < 2 ^ lastPlace x),
      div_lt_iff₀ (by positivity)]
    exact abs_lt_zpow_lastPlace x
  rw [abs_lt] at hlt
  rw [abs_le]
  constructor
  · have h := roundEven_mono (a := ((-2 ^ 53 : ℤ) : ℚ)) (by push_cast; exact hlt.1.le)
    rwa [roundEven_intCast] at h
  · have h := roundEven_mono (b := ((2 ^ 53 : ℤ) : ℚ)) (by push_cast; exact hlt.2.le)
    rwa [roundEven_intCast] at h

/-! ### Nothing is nearer -/

/-- Distances in units of the last place. -/
theorem abs_sub_mul_zpow (x n : ℚ) (k : ℤ) :
    |x - n * (2 : ℚ) ^ k| = |x / (2 : ℚ) ^ k - n| * (2 : ℚ) ^ k := by
  have hpos : (0 : ℚ) < 2 ^ k := by positivity
  rw [← abs_of_pos hpos, ← abs_mul, abs_of_pos hpos, sub_mul, div_mul_cancel₀ _ hpos.ne']

/-- No multiple of the last place is nearer. -/
theorem abs_sub_nearest_le_multiple (x : ℚ) (n : ℤ) :
    |x - nearest x| ≤ |x - n * (2 : ℚ) ^ lastPlace x| := by
  rw [nearest_eq, abs_sub_mul_zpow, abs_sub_mul_zpow]
  exact mul_le_mul_of_nonneg_right (closest_of_abs_sub_le (abs_sub_roundEven_le _) n)
    (by positivity)

/-- Above the lowest place of all, a number has 53 places. -/
theorem le_abs_of_lastPlace {x : ℚ} (hx : x ≠ 0) (h : -1074 < lastPlace x) :
    (2 : ℚ) ^ 52 * 2 ^ lastPlace x ≤ |x| := by
  have hlast : ((52 : ℕ) : ℤ) + lastPlace x = exponent x := by
    rw [lastPlace] at h ⊢
    push_cast
    omega
  rw [← zpow_natCast, ← zpow_add₀ two_ne_zero, hlast]
  exact zpow_exponent_le hx

/-- A number of the format is rather small when its last place is below another. -/
theorem abs_le_of_lt_lastPlace {m j k : ℤ} (hm : |m| ≤ 2 ^ 53) (hk : k < j) :
    |(m : ℚ) * 2 ^ k| ≤ 2 ^ 52 * 2 ^ j := by
  have hm' : |(m : ℚ)| ≤ 2 ^ 53 := by exact_mod_cast hm
  have hk' : (2 : ℚ) ^ (k + 1) ≤ 2 ^ j := zpow_le_zpow_right₀ one_le_two hk
  rw [zpow_add_one₀ two_ne_zero] at hk'
  rw [abs_mul, abs_of_pos (by positivity : (0 : ℚ) < 2 ^ k)]
  calc |(m : ℚ)| * 2 ^ k ≤ 2 ^ 53 * 2 ^ k := mul_le_mul_of_nonneg_right hm' (by positivity)
    _ = 2 ^ 52 * (2 ^ k * 2) := by ring
    _ ≤ 2 ^ 52 * 2 ^ j := mul_le_mul_of_nonneg_left hk' (by positivity)

/-- The power of two at the exponent of a number is a multiple of its last place. -/
theorem abs_sub_nearest_le_abs_sub {x : ℚ} (h : (2 : ℚ) ^ 52 * 2 ^ lastPlace x ≤ |x|) :
    |x - nearest x| ≤ |x| - 2 ^ 52 * 2 ^ lastPlace x := by
  rcases le_total 0 x with hx | hx
  · rw [abs_of_nonneg hx] at h
    calc |x - nearest x| ≤ |x - ((2 ^ 52 : ℤ) : ℚ) * 2 ^ lastPlace x| :=
          abs_sub_nearest_le_multiple x _
      _ = |x| - 2 ^ 52 * 2 ^ lastPlace x := by
          rw [Int.cast_pow, Int.cast_ofNat, abs_of_nonneg (sub_nonneg.2 h), abs_of_nonneg hx]
  · rw [abs_of_nonpos hx] at h
    calc |x - nearest x| ≤ |x - ((-2 ^ 52 : ℤ) : ℚ) * 2 ^ lastPlace x| :=
          abs_sub_nearest_le_multiple x _
      _ = |x| - 2 ^ 52 * 2 ^ lastPlace x := by
          rw [Int.cast_neg, Int.cast_pow, Int.cast_ofNat, neg_mul, sub_neg_eq_add,
            abs_of_nonpos (by linarith), abs_of_nonpos hx]
          ring

/-- **No number of the format is nearer.** -/
theorem abs_sub_nearest_le (x : ℚ) {g : ℚ} (hg : IsNumber g) : |x - nearest x| ≤ |x - g| := by
  rcases eq_or_ne x 0 with rfl | hx
  · rw [nearest_zero, sub_zero, abs_zero]
    exact abs_nonneg _
  obtain ⟨m, k, hm, hk, rfl⟩ := hg
  rcases le_or_gt (lastPlace x) k with hplace | hplace
  · -- the last place of `g` is no lower, so `g` is a multiple of that of `x`
    obtain ⟨d, rfl⟩ := Int.le.dest hplace
    have hmultiple : (m : ℚ) * 2 ^ (lastPlace x + d) = ((m * 2 ^ d : ℤ) : ℚ) * 2 ^ lastPlace x := by
      rw [zpow_add₀ two_ne_zero, zpow_natCast]
      push_cast
      ring
    rw [hmultiple]
    exact abs_sub_nearest_le_multiple x _
  · -- otherwise `g` is no larger than the power of two at the exponent of `x`
    calc |x - nearest x| ≤ |x| - 2 ^ 52 * 2 ^ lastPlace x :=
          abs_sub_nearest_le_abs_sub (le_abs_of_lastPlace hx (hk.trans_lt hplace))
      _ ≤ |x| - |(m : ℚ) * 2 ^ k| := sub_le_sub_left (abs_le_of_lt_lastPlace hm hplace) _
      _ ≤ |x - m * 2 ^ k| := abs_sub_abs_le_abs_sub _ _

/-- A number of the format stays as it is. -/
theorem nearest_eq_self {x : ℚ} (hx : IsNumber x) : nearest x = x := by
  have h := abs_sub_nearest_le x hx
  rw [sub_self, abs_zero] at h
  exact (sub_eq_zero.1 (abs_nonpos_iff.1 h)).symm

theorem nearest_intCast {n : ℤ} (h : |n| ≤ 2 ^ 53) : nearest n = n :=
  nearest_eq_self (isNumber_intCast h)

/-- Whole numbers up to 2 ^ 53 are not changed by rounding. -/
theorem nearest_natCast {n : ℕ} (h : n ≤ 2 ^ 53) : nearest n = n := by
  have habs : |(n : ℤ)| ≤ 2 ^ 53 := by
    rw [Nat.abs_cast]
    exact_mod_cast h
  exact_mod_cast nearest_intCast habs

/-- **Rounding is monotone.** -/
theorem nearest_mono : Monotone nearest := by
  intro x y hxy
  rcases hxy.eq_or_lt with rfl | hlt
  · exact le_rfl
  · exact le_of_closest hlt (abs_sub_nearest_le x (isNumber_nearest y))
      (abs_sub_nearest_le y (isNumber_nearest x))

theorem nearest_nonneg {x : ℚ} (h : 0 ≤ x) : 0 ≤ nearest x := by
  have hmono := nearest_mono h
  rwa [nearest_zero] at hmono

/-! ### The error -/

/-- **Rounding moves a number by at most half a unit in its last place.** -/
theorem abs_sub_nearest_le_zpow {x : ℚ} {e : ℤ} (he : -1022 ≤ e) (hx : |x| < (2 : ℚ) ^ (e + 1)) :
    |x - nearest x| ≤ (2 : ℚ) ^ (e - 53) := by
  rcases eq_or_ne x 0 with rfl | hne
  · rw [nearest_zero, sub_zero, abs_zero]
    positivity
  have hlast : lastPlace x - 1 ≤ e - 53 := by
    have := exponent_lt hne hx
    rw [lastPlace]
    omega
  rw [nearest_eq, abs_sub_mul_zpow]
  calc |x / 2 ^ lastPlace x - roundEven (x / 2 ^ lastPlace x)| * 2 ^ lastPlace x
      ≤ 1 / 2 * 2 ^ lastPlace x :=
        mul_le_mul_of_nonneg_right (abs_sub_roundEven_le _) (by positivity)
    _ = 2 ^ (lastPlace x - 1) := by rw [zpow_sub_one₀ two_ne_zero]; ring
    _ ≤ 2 ^ (e - 53) := zpow_le_zpow_right₀ one_le_two hlast

/-! ### Bits -/

/-- **Bits denote no number just when their exponent field is all ones.** -/
theorem ofBits_eq_none_iff {bits : UInt64} :
    ofBits bits = none ↔ bits.toNat / 2 ^ 52 % 2048 = 2047 := by
  rw [← Nat.pow_eq]
  unfold ofBits
  dsimp only
  split_ifs with hfield hsign
  · exact iff_of_true rfl hfield
  · exact iff_of_false not_false hfield
  · exact iff_of_false not_false hfield

end ClusterWatch.Binary64
