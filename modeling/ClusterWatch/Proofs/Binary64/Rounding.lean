import ClusterWatch.Binary64
import Mathlib.Data.Int.ConditionallyCompleteOrder
import Mathlib.Data.Rat.Floor
import Mathlib.Tactic.Linarith

/-!
# Rounding to integers

Both ways of rounding give an integer at most one half away (`abs_sub_roundEven_le`,
`abs_sub_roundAway_le`), which is an integer nearest to the number (`closest_of_abs_sub_le`).  They
differ at the halves only: there the one gives the even integer (`roundEven_eq_of_even`) and the
other the integer away from zero (`abs_lt_roundAway`).

What picks a nearest point of some set is monotone, whatever the set is and however it breaks ties
(`le_of_closest`).  So both are monotone (`monotone_of_abs_sub_le`).
-/

namespace ClusterWatch.Binary64

/-! ### Nearest points -/

/-- **Nearest points are in the order of what they are nearest to.** -/
theorem le_of_closest {x y p q : ℚ} (hxy : x < y) (hp : |x - p| ≤ |x - q|)
    (hq : |y - q| ≤ |y - p|) : p ≤ q := by
  by_contra h
  -- otherwise `x` lies at or above the middle of `q < p`, and `y` at or below it
  have hmiddle : p + q ≤ 2 * x := by
    rw [← sq_le_sq] at hp
    nlinarith
  have hmiddle' : 2 * y ≤ p + q := by
    rw [← sq_le_sq] at hq
    nlinarith
  linarith

/-- Two integers are at least one apart, and so is the way from one to the other. -/
theorem one_le_abs_sub_add {n k : ℤ} (x : ℚ) (h : n ≠ k) : 1 ≤ |x - n| + |x - k| := by
  have hone : (1 : ℤ) ≤ |n - k| := Int.one_le_abs (sub_ne_zero.2 h)
  calc (1 : ℚ) ≤ |(n : ℚ) - k| := by exact_mod_cast hone
    _ ≤ |(n : ℚ) - x| + |x - k| := abs_sub_le _ _ _
    _ = |x - n| + |x - k| := by rw [abs_sub_comm (n : ℚ) x]

/-- An integer at most one half away is a nearest integer. -/
theorem closest_of_abs_sub_le {x : ℚ} {n : ℤ} (h : |x - n| ≤ 1 / 2) (k : ℤ) :
    |x - n| ≤ |x - k| := by
  by_cases hk : n = k
  · rw [hk]
  · have := one_le_abs_sub_add x hk
    linarith

/-- An integer less than one half away is the only one that is at most one half away. -/
theorem eq_of_abs_sub_lt {x : ℚ} {n k : ℤ} (hn : |x - n| < 1 / 2) (hk : |x - k| ≤ 1 / 2) :
    n = k := by
  by_contra h
  have := one_le_abs_sub_add x h
  linarith

/-- **A rounding by at most one half is monotone.** -/
theorem monotone_of_abs_sub_le {f : ℚ → ℤ} (hf : ∀ x, |x - f x| ≤ 1 / 2) : Monotone f := by
  intro x y hxy
  rcases hxy.eq_or_lt with rfl | hlt
  · exact le_rfl
  · exact_mod_cast le_of_closest hlt (closest_of_abs_sub_le (hf x) _)
      (closest_of_abs_sub_le (hf y) _)

/-! ### Ties to even -/

theorem abs_sub_roundEven_le (x : ℚ) : |x - roundEven x| ≤ 1 / 2 := by
  have hlow := Rat.floor_le x
  have hhigh := Rat.lt_floor_add_one x
  push_cast at hhigh
  rw [abs_le]
  unfold roundEven
  dsimp only
  split_ifs <;> push_cast <;> constructor <;> linarith

/-- A half is rounded to the even integer. -/
theorem even_roundEven {x : ℚ} (h : |x - roundEven x| = 1 / 2) : roundEven x % 2 = 0 := by
  revert h
  unfold roundEven
  dsimp only
  have hlow := Rat.floor_le x
  have hhigh := Rat.lt_floor_add_one x
  push_cast at hhigh
  split_ifs with hbelow habove heven
  · intro h
    rw [abs_of_nonneg (by linarith)] at h
    linarith
  · intro h
    push_cast at h
    rw [abs_of_nonpos (by linarith)] at h
    linarith
  · exact fun _ => heven
  · intro _
    omega

theorem roundEven_mono : Monotone roundEven := monotone_of_abs_sub_le abs_sub_roundEven_le

/-- An integer less than one half away is what a number is rounded to. -/
theorem roundEven_eq_of_lt {x : ℚ} {n : ℤ} (h : |x - n| < 1 / 2) : roundEven x = n :=
  (eq_of_abs_sub_lt h (abs_sub_roundEven_le x)).symm

theorem roundEven_intCast (n : ℤ) : roundEven n = n :=
  roundEven_eq_of_lt (by rw [sub_self, abs_zero]; norm_num)

/-- An even integer at most one half away is what a number is rounded to. -/
theorem roundEven_eq_of_even {x : ℚ} {n : ℤ} (h : |x - n| ≤ 1 / 2) (hn : n % 2 = 0) :
    roundEven x = n := by
  have hround := abs_sub_roundEven_le x
  rcases hround.lt_or_eq with hlt | htie
  · exact eq_of_abs_sub_lt hlt h
  · -- two even integers that are at most one apart
    have heven := even_roundEven htie
    have htriangle := abs_sub_le (roundEven x : ℚ) x n
    rw [abs_sub_comm (roundEven x : ℚ) x] at htriangle
    have hone : |(roundEven x : ℚ) - n| ≤ 1 := by linarith
    have hint : |roundEven x - n| ≤ 1 := by exact_mod_cast hone
    rw [abs_le] at hint
    omega

/-! ### Ties away from zero -/

theorem abs_sub_roundAway_le (x : ℚ) : |x - roundAway x| ≤ 1 / 2 := by
  rw [abs_le]
  unfold roundAway
  split_ifs
  · have hlow := Rat.floor_le (1 / 2 - x)
    have hhigh := Rat.lt_floor_add_one (1 / 2 - x)
    push_cast at hhigh ⊢
    constructor <;> linarith
  · have hlow := Rat.floor_le (x + 1 / 2)
    have hhigh := Rat.lt_floor_add_one (x + 1 / 2)
    push_cast at hhigh
    constructor <;> linarith

/-- A half is rounded away from zero. -/
theorem abs_lt_roundAway {x : ℚ} (h : |x - roundAway x| = 1 / 2) :
    |x| < |(roundAway x : ℚ)| := by
  have hcases := abs_choice (x - roundAway x)
  revert h hcases
  unfold roundAway
  split_ifs with hneg
  · have hhigh := Rat.lt_floor_add_one (1 / 2 - x)
    push_cast at hhigh ⊢
    rintro h (heq | heq)
    · rw [abs_of_neg hneg, abs_neg, abs_of_pos] <;> linarith
    · linarith
  · have hhigh := Rat.lt_floor_add_one (x + 1 / 2)
    push_cast at hhigh
    rintro h (heq | heq)
    · linarith
    · rw [abs_of_nonneg (not_lt.1 hneg), abs_of_pos] <;> linarith

theorem roundAway_mono : Monotone roundAway := monotone_of_abs_sub_le abs_sub_roundAway_le

theorem roundAway_intCast (n : ℤ) : roundAway n = n :=
  (eq_of_abs_sub_lt (by rw [sub_self, abs_zero]; norm_num) (abs_sub_roundAway_le _)).symm

/-- A number that is not negative goes up from the half on. -/
theorem roundAway_eq_iff {x : ℚ} (hx : 0 ≤ x) {n : ℤ} :
    roundAway x = n ↔ n - 1 / 2 ≤ x ∧ x < n + 1 / 2 := by
  rw [roundAway, if_neg (not_lt.2 hx)]
  change ⌊x + 1 / 2⌋ = n ↔ _
  rw [Int.floor_eq_iff]
  constructor <;> rintro ⟨h, h'⟩ <;> constructor <;> linarith

end ClusterWatch.Binary64
