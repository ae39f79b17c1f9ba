import ClusterWatch.Proofs.Binary64.Tenth
import ClusterWatch.Proofs.ByteSize.Shape

/-!
# Counts — how exactly they are shown

The tenths of a unit that a count of bytes comes to go through three roundings before they are
rounded to a whole number.  They still come to the exact number, halves up (`exactTenths`), as long
as the count is at most 6449999999999998, and to one of its neighbours beyond
(`count_rounded_exactly`).

A half is never missed from below, for a half is a number of few bits (`le_tenfold_of_half_le`).
From above, the count lies off the next half by at least one byte, and the roundings move it by less
(`tenfold_lt`): by the unit of the last place of the tenths, which is small against a byte in all
units but the largest.
-/

namespace ClusterWatch.ByteSize
open Binary64

/-! ### The unit -/

/-- No unit but the largest has a bound above the largest. -/
theorem Unit.scale_mul_thousand_le_peta {u : Unit} (h : u ≠ .peta) :
    u.scale * 1000 ≤ 1000 ^ 5 := by
  cases u with
  | peta => exact absurd rfl h
  | _ => decide

/-- **The unit for a count is the one for the nearest number**, for the bounds of the units are
numbers of the format, and so are the counts below the last of them. -/
theorem Unit.IsFor.nearest {u : Unit} {n : ℕ} (h : u.IsFor n) : u.IsFor (nearest n) := by
  refine ⟨?_, fun v hv => ?_⟩
  · by_cases hu : u = .peta
    · exact .inr hu
    · have hlt : n < u.scale * 1000 := by exact_mod_cast h.exceeds.resolve_right hu
      have hbound := Unit.scale_mul_thousand_le_peta hu
      rw [nearest_natCast (by omega)]
      exact h.exceeds
  · have hv' : v ≠ .peta := fun hp => by
      rw [hp] at hv
      exact absurd hv (not_lt.2 u.rank_le_peta)
    have hbound := Unit.scale_mul_thousand_le_peta hv'
    have hthousand : Binary64.nearest (v.scale * 1000) = v.scale * 1000 := by
      exact_mod_cast nearest_natCast (n := v.scale * 1000) (by omega)
    rw [← hthousand]
    exact nearest_mono (h.least v hv)

/-! ### The exact tenths -/

/-- The tenths of a unit that are nearest to a count, halves up. -/
def exactTenths (u : Unit) (n : ℕ) : ℕ := (10 * n + u.scale / 2) / u.scale

/-- The exact tenths are at most half a tenth above the count, and less than half a tenth below it,
by ten bytes in tenths at least. -/
theorem exactTenths_bounds {u : Unit} (hu : u ≠ .byte) (n : ℕ) :
    (exactTenths u n : ℚ) - 1 / 2 ≤ n / u.scale * 10 ∧
      (n / u.scale * 10 + 10 / u.scale : ℚ) ≤ exactTenths u n + 1 / 2 := by
  have hnat : 2 * exactTenths u n * u.scale ≤ 20 * n + u.scale ∧
      20 * n + 20 ≤ 2 * exactTenths u n * u.scale + u.scale := by
    cases u with
    | byte => exact absurd rfl hu
    | _ =>
        simp only [exactTenths, Unit.scale, Unit.rank, Nat.pow_eq]
        omega
  have hpos := u.scale_pos
  have hlow : (2 * exactTenths u n * u.scale : ℚ) ≤ 20 * n + u.scale := by exact_mod_cast hnat.1
  have hhigh : (20 * n + 20 : ℚ) ≤ 2 * exactTenths u n * u.scale + u.scale := by
    exact_mod_cast hnat.2
  rw [div_mul_eq_mul_div, ← add_div, le_div_iff₀ hpos, div_le_iff₀ hpos]
  constructor <;> linarith

/-! ### The roundings -/

/-- The tenths of a number of units before they are rounded to a whole number. -/
def tenfold (x : ℚ) : ℚ := nearest (nearest x * 10)

theorem tenths_eq (u : Unit) (size : ℚ) : tenths u size = roundAway (tenfold (size / u.scale)) :=
  rfl

/-- **A half is not missed from below**: rounding is monotone, and gives the half for the half. -/
theorem le_tenfold_of_half_le {x : ℚ} {t : ℕ} (ht : 2 ≤ t) (ht' : t ≤ 2 ^ 51)
    (h : (t : ℚ) - 1 / 2 ≤ x * 10) : (t : ℚ) - 1 / 2 ≤ tenfold x := by
  have hhalf : (t : ℚ) - 1 / 2 = ((2 * t - 1 : ℤ) : ℚ) * 2 ^ (-1 : ℤ) := by
    push_cast
    norm_num
    ring
  have ht₂ : (2 : ℚ) ≤ t := by exact_mod_cast ht
  have hexact := nearest_nearest_div_ten_mul_ten (m := 2 * t - 1) (k := -1) (by omega)
    (by rw [← hhalf]; linarith)
  rw [← hhalf] at hexact
  rw [← hexact]
  refine nearest_mono (mul_le_mul_of_nonneg_right (nearest_mono ?_) (by norm_num))
  rw [div_le_iff₀ (by norm_num)]
  exact h

/-- The two roundings move the tenths by half a unit in their last place, and ten halves in the last
place of the number of units. -/
theorem abs_tenfold_sub_le {x : ℚ} {e f : ℤ} (hx : 0 ≤ x) (he : -1022 ≤ e) (hf : -1022 ≤ f)
    (hxe : x < 2 ^ (e + 1)) (hxf : x * 10 + 10 * 2 ^ (e - 53) < 2 ^ (f + 1)) :
    |tenfold x - x * 10| ≤ 10 * 2 ^ (e - 53) + 2 ^ (f - 53) := by
  have hone := abs_sub_nearest_le_zpow he (by rwa [abs_of_nonneg hx])
  have hnonneg := nearest_nonneg hx
  rw [abs_le] at hone
  have htwo := abs_sub_nearest_le_zpow (x := nearest x * 10) hf (by
    rw [abs_of_nonneg (by positivity)]
    linarith)
  rw [abs_le] at htwo ⊢
  rw [tenfold]
  constructor <;> linarith

/-- So they move the tenths up by less than whatever is more than these errors. -/
theorem tenfold_lt_add {x d : ℚ} {e f : ℤ} (hx : 0 ≤ x) (he : -1022 ≤ e) (hf : -1022 ≤ f)
    (hxe : x < 2 ^ (e + 1)) (hxf : x * 10 + 10 * 2 ^ (e - 53) < 2 ^ (f + 1))
    (hd : 10 * 2 ^ (e - 53) + 2 ^ (f - 53) < d) : tenfold x < x * 10 + d := by
  have herror := abs_tenfold_sub_le hx he hf hxe hxf
  rw [abs_le] at herror
  linarith

/-- Below a thousand units, the next half is off by at least a byte in the last unit but one. -/
theorem tenfold_lt_of_ne_peta {u : Unit} {n : ℕ} (hu : u ≠ .byte) (hpeta : u ≠ .peta)
    (hfor : u.IsFor n) : tenfold (n / u.scale) < exactTenths u n + 1 / 2 := by
  have hpos := u.scale_pos
  have hthousand : (n : ℚ) / u.scale < 1000 := by
    rw [div_lt_iff₀ hpos, mul_comm]
    exact hfor.exceeds.resolve_right hpeta
  have hscale : (u.scale : ℚ) ≤ 1000 ^ 4 := by
    have hbound := Unit.scale_mul_thousand_le_peta hpeta
    have hle : u.scale ≤ 1000 ^ 4 := by omega
    exact_mod_cast hle
  have hbyte : (10 : ℚ) / 1000 ^ 4 ≤ 10 / u.scale :=
    div_le_div_of_nonneg_left (by norm_num) hpos hscale
  have hnext := tenfold_lt_add (e := 9) (f := 13) (d := 10 / 1000 ^ 4)
    (by positivity : (0 : ℚ) ≤ n / u.scale) (by norm_num) (by norm_num) (by norm_num; linarith)
    (by norm_num; linarith) (by norm_num)
  have hhigh := (exactTenths_bounds hu n).2
  linarith

/-- In the largest unit, the next half is off by one byte up to six and a third of it, and by two
bytes up to the bound: where the tenths are 64, and so have one bit more. -/
theorem tenfold_lt_of_le {n : ℕ} (hn : n ≤ 6449999999999998) :
    tenfold (n / Unit.peta.scale) < exactTenths .peta n + 1 / 2 := by
  have hhigh := (exactTenths_bounds (u := .peta) (by decide) n).2
  have hscale : (Unit.peta.scale : ℚ) = 1000 ^ 5 := by norm_num [Unit.scale, Unit.rank]
  rw [hscale] at hhigh ⊢
  have hx : (0 : ℚ) ≤ n / 1000 ^ 5 := by positivity
  have hn' : (n : ℚ) ≤ 6449999999999998 := by exact_mod_cast hn
  have hmost : (n : ℚ) / 1000 ^ 5 * 10 ≤ 64 + 1 / 2 - 20 / 1000 ^ 5 := by
    rw [div_mul_eq_mul_div, div_le_iff₀ (by norm_num)]
    norm_num
    linarith
  rcases Nat.lt_or_ge (exactTenths .peta n) 64 with ht | ht
  · have ht' : (exactTenths .peta n : ℚ) ≤ 63 := by exact_mod_cast Nat.le_of_lt_succ ht
    have hnext := tenfold_lt_add (e := 2) (f := 5) (d := 10 / 1000 ^ 5) hx (by norm_num)
      (by norm_num) (by norm_num; linarith) (by norm_num at hhigh ⊢; linarith) (by norm_num)
    linarith
  · have ht' : (64 : ℚ) ≤ exactTenths .peta n := by exact_mod_cast ht
    have hnext := tenfold_lt_add (e := 2) (f := 6) (d := 20 / 1000 ^ 5) hx (by norm_num)
      (by norm_num) (by norm_num; linarith) (by norm_num at hmost ⊢; linarith) (by norm_num)
    linarith

/-- **The next half is not reached from below** by counts up to a bound. -/
theorem tenfold_lt {u : Unit} {n : ℕ} (hu : u ≠ .byte) (hfor : u.IsFor n)
    (hn : n ≤ 6449999999999998) : tenfold (n / u.scale) < exactTenths u n + 1 / 2 := by
  by_cases hpeta : u = .peta
  · subst hpeta
    exact tenfold_lt_of_le hn
  · exact tenfold_lt_of_ne_peta hu hpeta hfor

/-! ### The tenths that are shown -/

section
variable {u : Unit} {n : ℕ}

/-- The largest count comes to less than 18447 of the largest unit. -/
theorem div_scale_lt (hfor : u.IsFor n) (hn : n < 2 ^ 64) : (n / u.scale : ℚ) < 18447 := by
  rw [div_lt_iff₀ u.scale_pos]
  rcases hfor.exceeds with h | rfl
  · have := u.scale_pos
    linarith
  · have hn' : (n : ℚ) < 2 ^ 64 := by exact_mod_cast hn
    norm_num [Unit.scale, Unit.rank] at hn' ⊢
    linarith

theorem exactTenths_lt (hu : u ≠ .byte) (hfor : u.IsFor n) (hn : n < 2 ^ 64) :
    exactTenths u n < 2 ^ 18 := by
  have hlow := (exactTenths_bounds hu n).1
  have hlt := div_scale_lt hfor hn
  have hrat : (exactTenths u n : ℚ) < 184471 := by linarith
  have hnat : exactTenths u n < 184471 := by exact_mod_cast hrat
  omega

/-- **Up to a bound, the tenths of a count are exact.** -/
theorem tenths_eq_exactTenths (hu : u ≠ .byte) (hfor : u.IsFor n) (hn : n ≤ 6449999999999998) :
    tenths u (nearest n) = exactTenths u n := by
  obtain ⟨hlow, hhigh⟩ := exactTenths_bounds hu n
  have hone : (1 : ℚ) ≤ n / u.scale := by
    rw [le_div_iff₀ u.scale_pos, one_mul]
    exact hfor.scale_le hu
  have hbyte : (0 : ℚ) ≤ 10 / u.scale := div_nonneg (by norm_num) u.scale_pos.le
  have ht : 2 ≤ exactTenths u n := by
    have : (2 : ℚ) ≤ exactTenths u n := by linarith
    exact_mod_cast this
  have ht' := exactTenths_lt hu hfor (by omega)
  have hhalf := le_tenfold_of_half_le ht (by omega) hlow
  have htwo : (2 : ℚ) ≤ exactTenths u n := by exact_mod_cast ht
  -- the half below the exact tenths is reached, and the half above them is not
  rw [tenths_eq, nearest_natCast (by omega), roundAway_eq_iff (by linarith)]
  exact ⟨by push_cast; linarith, by push_cast; exact tenfold_lt hu hfor hn⟩

/-- The three roundings move the tenths of a count in the largest unit by less than half a tenth. -/
theorem abs_tenfold_sub_lt_half (hn : n < 2 ^ 64) :
    |tenfold (nearest n / Unit.peta.scale) - n / Unit.peta.scale * 10| < 1 / 2 := by
  have hscale : (Unit.peta.scale : ℚ) = 1000 ^ 5 := by norm_num [Unit.scale, Unit.rank]
  have hn' : (n : ℚ) < 2 ^ 64 := by exact_mod_cast hn
  have hcount := abs_sub_nearest_le_zpow (x := n) (e := 63) (by norm_num)
    (by rw [Nat.abs_cast]; exact hn'.trans_eq (by norm_num))
  have hnonneg := nearest_nonneg (by positivity : (0 : ℚ) ≤ n)
  rw [abs_le] at hcount
  norm_num at hcount
  have hlt : (nearest n : ℚ) / 1000 ^ 5 < 18447 := by
    rw [div_lt_iff₀ (by norm_num)]
    linarith
  have herror := abs_tenfold_sub_le (e := 14) (f := 17) (by positivity : 0 ≤ nearest n / 1000 ^ 5)
    (by norm_num) (by norm_num) (by norm_num; linarith) (by norm_num; linarith)
  rw [abs_le] at herror
  rw [hscale, abs_lt]
  norm_num at herror ⊢
  constructor <;> linarith

/-- **The tenths of a count are exact, or next to it.** -/
theorem abs_tenths_sub_le_one (hu : u ≠ .byte) (hfor : u.IsFor n) (hn : n < 2 ^ 64) :
    |tenths u (nearest n) - exactTenths u n| ≤ 1 := by
  rcases Nat.lt_or_ge 6449999999999998 n with hlarge | hsmall
  · have hpeta : u = .peta := by
      by_contra hu
      have hlt : n < u.scale * 1000 := by exact_mod_cast hfor.exceeds.resolve_right hu
      have hbound := Unit.scale_mul_thousand_le_peta hu
      omega
    subst hpeta
    obtain ⟨hlow, hhigh⟩ := exactTenths_bounds hu n
    have hdistance := abs_tenfold_sub_lt_half hn
    have hround := abs_sub_roundAway_le (tenfold (nearest n / Unit.peta.scale))
    have hbyte : (0 : ℚ) ≤ 10 / Unit.peta.scale := div_nonneg (by norm_num) (Unit.scale_pos _).le
    rw [tenths_eq]
    generalize roundAway (tenfold (nearest n / Unit.peta.scale)) = t at hround
    rw [abs_lt] at hdistance
    rw [abs_le] at hround
    have htwo : |((t - exactTenths .peta n : ℤ) : ℚ)| < 2 := by
      rw [abs_lt]
      push_cast
      constructor <;> linarith
    have htwo' : |t - exactTenths .peta n| < 2 := by exact_mod_cast htwo
    omega
  · rw [tenths_eq_exactTenths hu hfor hsmall, sub_self, abs_zero]
    exact zero_le_one

/-- The tenth of a whole number of tenths is shown as that number. -/
theorem shownTenths_eq_tenths {size : ℚ} (h : |tenths u size| ≤ 2 ^ 19) :
    shownTenths u size = tenths u size := by
  rw [shownTenths]
  generalize tenths u size = t at h
  have ht : |(t : ℚ)| ≤ 2 ^ 19 := by exact_mod_cast h
  have htenth : |(t : ℚ) / 10| < 2 ^ ((19 : ℤ) + 1) := by
    rw [abs_div]
    norm_num
    linarith
  have herror := abs_sub_nearest_le_zpow (e := 19) (by norm_num) htenth
  refine roundEven_eq_of_lt ?_
  rw [abs_le] at herror
  norm_num at herror
  rw [abs_lt]
  constructor <;> linarith

end

/-! ### The text of a count -/

theorem oneDecimal_natCast (t : ℕ) :
    oneDecimal t = Decimal.text (t / 10) ++ "." ++ Decimal.text (t % 10) := by
  simp [oneDecimal]

theorem textOfCount_of_lt {count : UInt64} (h : count.toNat < 1000) :
    textOfCount count = Decimal.text count.toNat ++ " B" := by
  have hbyte : Unit.of count.toNat = .byte := Unit.of_eq_byte_iff.2 (by exact_mod_cast h)
  have hround : roundAway (count.toNat : ℚ) = count.toNat := by
    exact_mod_cast roundAway_intCast count.toNat
  rw [textOfCount, nearest_natCast (by omega), text_of_byte hbyte, wholeBytes, hround,
    Decimal.signed]
  simp

/-- The text of a larger count shows its tenths. -/
theorem exists_textOfCount {count : UInt64} {u : Unit} (hu : u ≠ .byte)
    (hfor : u.IsFor count.toNat) : ∃ t : ℕ, tenths u (nearest count.toNat) = t ∧
      textOfCount count =
        Decimal.text (t / 10) ++ "." ++ Decimal.text (t % 10) ++ " " ++ u.symbol := by
  have hof : Unit.of (nearest count.toNat) = u := Unit.of_eq hfor.nearest
  have hclose := abs_tenths_sub_le_one hu hfor count.toNat_lt
  have hlt := exactTenths_lt hu hfor count.toNat_lt
  have hshown : shownTenths u (nearest count.toNat) = tenths u (nearest count.toNat) := by
    refine shownTenths_eq_tenths ?_
    rw [abs_le] at hclose ⊢
    omega
  have hne : Unit.of (nearest count.toNat) ≠ .byte := by rwa [hof]
  have hten := ten_le_shownTenths hne
  rw [hof, hshown] at hten
  obtain ⟨t, ht⟩ := Int.eq_ofNat_of_zero_le (le_trans (by norm_num) hten)
  refine ⟨t, ht, ?_⟩
  rw [textOfCount, text_of_ne hne, hof, hshown, ht, oneDecimal_natCast]

/-- **Counts of bytes are shown exactly rounded.**  The unit is the one for the count itself, a
count below a thousand is shown as it is, and the tenths shown of any other count are the exact
ones, halves up, up to a bound, and next to them beyond it. -/
theorem count_rounded_exactly (count : UInt64) :
    ∃ u : Unit, u.IsFor count.toNat ∧
      (count.toNat < 1000 → textOfCount count = Decimal.text count.toNat ++ " B") ∧
      (1000 ≤ count.toNat → ∃ t : ℕ,
        textOfCount count =
          Decimal.text (t / 10) ++ "." ++ Decimal.text (t % 10) ++ " " ++ u.symbol ∧
        (count.toNat ≤ 6449999999999998 → t = exactTenths u count.toNat) ∧
        |(t : ℤ) - exactTenths u count.toNat| ≤ 1) := by
  have hfor := Unit.isFor_of count.toNat
  refine ⟨Unit.of count.toNat, hfor, textOfCount_of_lt, fun h => ?_⟩
  have hu : Unit.of count.toNat ≠ .byte := fun hbyte =>
    absurd (Unit.of_eq_byte_iff.1 hbyte) (not_lt.2 (by exact_mod_cast h))
  obtain ⟨t, ht, htext⟩ := exists_textOfCount hu hfor
  refine ⟨t, htext, fun hsmall => ?_, ?_⟩
  · rw [tenths_eq_exactTenths hu hfor hsmall] at ht
    exact_mod_cast ht.symm
  · rw [← ht]
    exact abs_tenths_sub_le_one hu hfor count.toNat_lt

/-- The last count below the bound; the count behind the bound, whose tenths are those of the next
half; and a count that is a half. -/
theorem count_rounded_exactly_bound :
    (∃ u t, u.IsFor (6449999999999998 : UInt64).toNat ∧
      textOfCount 6449999999999998 =
        Decimal.text (t / 10) ++ "." ++ Decimal.text (t % 10) ++ " " ++ u.symbol ∧
      t = exactTenths u 6449999999999998 ∧ textOfCount 6449999999999998 = "6.4 PB") ∧
    (∃ u t, u.IsFor (6449999999999999 : UInt64).toNat ∧
      textOfCount 6449999999999999 =
        Decimal.text (t / 10) ++ "." ++ Decimal.text (t % 10) ++ " " ++ u.symbol ∧
      |(t : ℤ) - exactTenths u 6449999999999999| ≤ 1 ∧ exactTenths .peta 6449999999999999 = 64 ∧
      textOfCount 6449999999999999 = "6.5 PB") ∧
    (∃ u t, u.IsFor (7250000000000 : UInt64).toNat ∧
      textOfCount 7250000000000 =
        Decimal.text (t / 10) ++ "." ++ Decimal.text (t % 10) ++ " " ++ u.symbol ∧
      t = exactTenths u 7250000000000 ∧ textOfCount 7250000000000 = "7.3 TB") ∧
    (999 : UInt64).toNat < 1000 ∧ textOfCount 999 = Decimal.text 999 ++ " B" := by
  obtain ⟨u, hu, -, h⟩ := count_rounded_exactly 6449999999999998
  obtain ⟨v, hv, -, h'⟩ := count_rounded_exactly 6449999999999999
  obtain ⟨w, hw, -, h''⟩ := count_rounded_exactly 7250000000000
  obtain ⟨-, -, hwhole, -⟩ := count_rounded_exactly 999
  obtain ⟨t, ht, hexact, -⟩ := h (by decide)
  obtain ⟨t', ht', -, hclose⟩ := h' (by decide)
  obtain ⟨t'', ht'', hexact'', -⟩ := h'' (by decide)
  exact ⟨⟨u, t, hu, ht, hexact (by decide), by decide +kernel⟩,
    ⟨v, t', hv, ht', hclose, by decide, by decide +kernel⟩,
    ⟨w, t'', hw, ht'', hexact'' (by decide), by decide +kernel⟩, by decide, hwhole (by decide)⟩

end ClusterWatch.ByteSize
