import ClusterWatch.Proofs.Binary64.Nearest

/-!
# A tenth, ten times

A number of 52 significant bits comes back when its tenth is taken ten times, though both operations
are rounded (`nearest_nearest_div_ten_mul_ten`).  Such a number is a multiple of sixteen of the last
place of its tenth, where the error of the tenth comes to at most four tenths
(`exists_nearest_div_ten`).  Ten times that is half a unit in the last place of the number or less,
and the tie goes to the number, whose last bit is zero (`nearest_mul_ten`).
-/

namespace ClusterWatch.Binary64

/-! ### What a number is rounded to -/

/-- An integer at most half a unit away is what a number is rounded to, if it is even. -/
theorem nearest_eq_of_even {x : ℚ} {n : ℤ} (hn : n % 2 = 0)
    (h : |x - n * 2 ^ lastPlace x| ≤ 1 / 2 * 2 ^ lastPlace x) :
    nearest x = n * 2 ^ lastPlace x := by
  rw [abs_sub_mul_zpow] at h
  rw [nearest_eq, roundEven_eq_of_even (le_of_mul_le_mul_right h (by positivity)) hn]

theorem nearest_eq_of_lt {x : ℚ} {n : ℤ}
    (h : |x - n * 2 ^ lastPlace x| < 1 / 2 * 2 ^ lastPlace x) :
    nearest x = n * 2 ^ lastPlace x := by
  rw [abs_sub_mul_zpow] at h
  rw [nearest_eq, roundEven_eq_of_lt (lt_of_mul_lt_mul_right h (by positivity))]

theorem lastPlace_eq {x : ℚ} {e : ℤ} (he : -1022 ≤ e) (hlow : (2 : ℚ) ^ e ≤ |x|)
    (hhigh : |x| < (2 : ℚ) ^ (e + 1)) : lastPlace x = e - 52 := by
  have hx : x ≠ 0 := by
    rintro rfl
    rw [abs_zero] at hlow
    exact absurd hlow (not_le.2 (by positivity))
  have hle := le_exponent hx hlow
  have hlt := exponent_lt hx hhigh
  rw [lastPlace]
  omega

/-! ### A multiple of sixteen -/

/-- The tenth of a multiple of sixteen is rounded by at most four tenths, for ten times the
rounded tenth is even. -/
theorem exists_nearest_div_ten {n p : ℤ} (h : lastPlace (16 * n * 2 ^ p / 10) = p) :
    ∃ t : ℤ, nearest (16 * n * 2 ^ p / 10) = t * 2 ^ p ∧ |8 * n - 5 * t| ≤ 2 := by
  have hround := abs_sub_roundEven_le (16 * n / 10)
  have hunits : 16 * (n : ℚ) * 2 ^ p / 10 / 2 ^ p = 16 * n / 10 := by
    rw [div_right_comm, mul_div_cancel_right₀ _ (by positivity)]
  refine ⟨roundEven (16 * n / 10), by rw [nearest_eq, h, hunits], ?_⟩
  generalize roundEven (16 * n / 10) = t at hround
  have hfive : |((16 * n - 10 * t : ℤ) : ℚ)| ≤ (5 : ℤ) := by
    have hten : ((16 * n - 10 * t : ℤ) : ℚ) = 10 * (16 * n / 10 - t) := by push_cast; ring
    rw [hten, abs_mul, abs_of_pos (by norm_num)]
    push_cast
    linarith
  have hfive' : |16 * n - 10 * t| ≤ 5 := by exact_mod_cast hfive
  rw [abs_le] at hfive' ⊢
  omega

/-- Ten times the rounded tenth is rounded to the multiple of sixteen, whichever of the two places
that it may have is its last: to the lower one it is a tie. -/
theorem nearest_mul_ten {n t p : ℤ} (ht : |8 * n - 5 * t| ≤ 2)
    (h : lastPlace (t * 2 ^ p * 10) = p + 3 ∨ lastPlace (t * 2 ^ p * 10) = p + 4) :
    nearest (t * 2 ^ p * 10) = 16 * n * 2 ^ p := by
  have hpos : (0 : ℚ) < 2 ^ p := by positivity
  have hfour : |((10 * t - 16 * n : ℤ) : ℚ)| ≤ 4 := by
    have : |10 * t - 16 * n| ≤ 4 := by
      rw [abs_le] at ht ⊢
      omega
    exact_mod_cast this
  have hdistance : |(t : ℚ) * 2 ^ p * 10 - 16 * n * 2 ^ p| ≤ 4 * 2 ^ p := by
    have hfactor : (t : ℚ) * 2 ^ p * 10 - 16 * n * 2 ^ p = ((10 * t - 16 * n : ℤ) : ℚ) * 2 ^ p := by
      push_cast
      ring
    rw [hfactor, abs_mul, abs_of_pos hpos]
    exact mul_le_mul_of_nonneg_right hfour hpos.le
  rcases h with h | h
  · have hunits : (16 : ℚ) * n * 2 ^ p = ((2 * n : ℤ) : ℚ) * 2 ^ lastPlace (t * 2 ^ p * 10) := by
      rw [h, zpow_add₀ two_ne_zero]
      push_cast
      ring
    rw [hunits] at hdistance ⊢
    refine nearest_eq_of_even (by omega) (hdistance.trans_eq ?_)
    rw [h, zpow_add₀ two_ne_zero]
    ring
  · have hunits : (16 : ℚ) * n * 2 ^ p = (n : ℚ) * 2 ^ lastPlace (t * 2 ^ p * 10) := by
      rw [h, zpow_add₀ two_ne_zero]
      ring
    rw [hunits] at hdistance ⊢
    refine nearest_eq_of_lt (hdistance.trans_lt ?_)
    rw [h, zpow_add₀ two_ne_zero]
    linarith

/-! ### The number itself -/

/-- The last place of ten times a number that is rounded from `2 ^ e` to `2 ^ (e + 1)`. -/
theorem lastPlace_mul_ten {x : ℚ} {e : ℤ} (he : -1022 ≤ e) (hlow : (2 : ℚ) ^ e ≤ x)
    (hhigh : x ≤ (2 : ℚ) ^ (e + 1)) :
    lastPlace (x * 10) = e - 52 + 3 ∨ lastPlace (x * 10) = e - 52 + 4 := by
  have hpos : (0 : ℚ) < 2 ^ e := by positivity
  have habs : |x * 10| = x * 10 := abs_of_pos (by linarith)
  have hthree : (2 : ℚ) ^ (e + 3) = 2 ^ e * 8 := by rw [zpow_add₀ two_ne_zero]; norm_num
  have hfour : (2 : ℚ) ^ (e + 3 + 1) = 2 ^ e * 16 := by rw [zpow_add_one₀ two_ne_zero]; linarith
  have hfive : (2 : ℚ) ^ (e + 4 + 1) = 2 ^ e * 32 := by
    rw [zpow_add_one₀ two_ne_zero, zpow_add₀ two_ne_zero]
    norm_num
    ring
  rw [zpow_add_one₀ two_ne_zero] at hhigh
  rcases lt_or_ge (x * 10) (2 ^ (e + 3 + 1)) with h | h
  · have hlast := lastPlace_eq (x := x * 10) (e := e + 3) (by omega) (by rw [habs]; linarith)
      (by rwa [habs])
    omega
  · rw [add_assoc] at h
    have hlast := lastPlace_eq (x := x * 10) (e := e + 4) (by omega) (by rwa [habs])
      (by rw [habs]; linarith)
    omega

/-- **The tenth of a number of 52 significant bits, taken ten times, is the number**, though both
operations are rounded. -/
theorem nearest_nearest_div_ten_mul_ten {m k : ℤ} (hm : m ≤ 2 ^ 52) (h : 1 ≤ (m : ℚ) * 2 ^ k) :
    nearest (nearest (m * 2 ^ k / 10) * 10) = m * 2 ^ k := by
  have hpos : 0 < (m : ℚ) * 2 ^ k / 10 := by positivity
  have hlow := zpow_exponent_le hpos.ne'
  have hhigh := lt_zpow_exponent hpos.ne'
  generalize exponent (m * 2 ^ k / 10) = e at hlow hhigh
  have hlow' := hlow
  have hhigh' := hhigh
  rw [abs_of_pos hpos] at hlow' hhigh'
  have he : -5 < e := by
    have hfour : (2 : ℚ) ^ (-4 : ℤ) < 2 ^ (e + 1) := by
      refine lt_trans ?_ hhigh'
      norm_num
      linarith
    have := zpow_lt_zpow_iff_two.1 hfour
    omega
  -- the last place of the number is at least sixteen times that of its tenth
  have hk : e - 48 ≤ k := by
    have hm' : (m : ℚ) ≤ 2 ^ (52 : ℤ) := by exact_mod_cast hm
    have hlt : (2 : ℚ) ^ (e + 3) < 2 ^ (52 + k) := by
      rw [zpow_add₀ two_ne_zero, zpow_add₀ two_ne_zero]
      calc (2 : ℚ) ^ e * 2 ^ (3 : ℤ) < m * 2 ^ k := by norm_num; linarith
        _ ≤ 2 ^ (52 : ℤ) * 2 ^ k := mul_le_mul_of_nonneg_right hm' (by positivity)
    have := zpow_lt_zpow_iff_two.1 hlt
    omega
  obtain ⟨d, hd⟩ := Int.le.dest hk
  have hsixteen : (m : ℚ) * 2 ^ k = 16 * ((m * 2 ^ d : ℤ) : ℚ) * 2 ^ (e - 52) := by
    have : k = 4 + d + (e - 52) := by omega
    rw [this, zpow_add₀ two_ne_zero, zpow_add₀ two_ne_zero, zpow_natCast]
    push_cast
    ring
  have hlast := lastPlace_eq (by omega) hlow hhigh
  rw [hsixteen] at hlast hlow' hhigh' ⊢
  obtain ⟨t, ht, hdistance⟩ := exists_nearest_div_ten hlast
  have htlow := nearest_mono hlow'
  have hthigh := nearest_mono hhigh'.le
  rw [nearest_eq_self (isNumber_zpow (by omega)), ht] at htlow hthigh
  rw [ht]
  exact nearest_mul_ten hdistance (lastPlace_mul_ten (by omega) htlow hthigh)

end ClusterWatch.Binary64
