import ClusterWatch.Proofs.ByteSize.Reading
import ClusterWatch.Proofs.Text.Lines

/-!
# Width — how long the text of a size is

In front of its unit the text of a size has as many digits as its amount needs
(`length_text_le_iff`), which is at most four unless the text is huge: unless it says at least
10000.0 of the largest unit (`IsHuge`).  So the text of a count has at most nine characters just
when it is not huge (`length_textOfCount_le_nine_iff`), and at most ten in any case
(`length_textOfCount_le_ten`).
-/

namespace ClusterWatch.ByteSize
open Binary64 Decimal

/-- `IsHuge s`: the text `s` says at least 10000.0 of the largest unit. -/
def IsHuge (s : String) : Prop := ∃ r, read? s = some r ∧ r.unit = .peta ∧ 10000 ≤ r.number

section
variable {size : ℚ}

theorem isHuge_text_iff :
    IsHuge (text size) ↔ Unit.of size = .peta ∧ 10000 ≤ (Unit.of size).amount size := by
  rw [IsHuge, read?_text]
  constructor
  · rintro ⟨_, ⟨⟩, hunit, hnumber⟩
    exact ⟨hunit, hnumber⟩
  · rintro ⟨hunit, hnumber⟩
    exact ⟨_, rfl, hunit, hnumber⟩

/-! ### Lengths -/

/-- Less than a thousand bytes are shown in up to four digits, for they may be rounded up. -/
theorem length_text_of_byte (h₀ : 0 ≤ size) (h : Unit.of size = .byte) :
    (text size).length ≤ 6 := by
  have hthousand := (Unit.isFor_of size).amount_le_thousand (by rw [h]; decide)
  rw [h, Unit.amount_byte] at hthousand
  have hle : wholeBytes size ≤ 1000 := by exact_mod_cast hthousand
  have hnonneg : 0 ≤ wholeBytes size := by
    have hzero := roundAway_mono h₀
    rwa [← Int.cast_zero, roundAway_intCast] at hzero
  have hdigits := (length_numeral_le_iff (n := (wholeBytes size).natAbs) (k := 4) (by decide)).2
    (by omega)
  rw [← String.length_toList, toList_text_of_byte h, if_neg (not_lt.2 hnonneg)]
  simp only [List.nil_append, List.length_append, List.length_cons, List.length_nil]
  omega

theorem length_symbol {u : Unit} (h : u ≠ .byte) : u.symbol.toList.length = 2 := by
  cases u with
  | byte => exact absurd rfl h
  | _ => rfl

/-- **The digits in front of the point are as many as the amount needs**; behind them stand the
point, a digit, a space and two characters for the unit. -/
theorem length_text_le_iff (h : Unit.of size ≠ .byte) {k : ℕ} (hk : 0 < k) :
    (text size).length ≤ k + 5 ↔ (Unit.of size).amount size < 10 ^ k := by
  have hlength : (text size).length =
      (numeral ((shownTenths (Unit.of size) size).toNat / 10)).length + 5 := by
    rw [← String.length_toList, toList_text_of_ne h, List.length_append]
    simp only [List.length_cons, length_symbol h]
  have hten := ten_le_shownTenths h
  rw [hlength, Nat.add_le_add_iff_right, length_numeral_le_iff hk,
    Nat.div_lt_iff_lt_mul (by decide), Unit.amount_of_ne h, div_lt_iff₀ (by norm_num)]
  generalize shownTenths (Unit.of size) size = t at hten
  obtain ⟨n, rfl⟩ := Int.eq_ofNat_of_zero_le (by omega : 0 ≤ t)
  rw [Int.toNat_natCast]
  exact_mod_cast Iff.rfl

theorem length_text_le_nine_iff (h₀ : 0 ≤ size) :
    (text size).length ≤ 9 ↔ ¬ IsHuge (text size) := by
  rw [isHuge_text_iff]
  by_cases hbyte : Unit.of size = .byte
  · -- bytes and all units but the largest come to too little to be huge
    have hlength := length_text_of_byte h₀ hbyte
    exact iff_of_true (by omega) fun h => by rw [hbyte] at h; cases h.1
  · rw [length_text_le_iff hbyte (k := 4) (by decide)]
    by_cases hpeta : Unit.of size = .peta
    · rw [not_and, not_le]
      exact ⟨fun h _ => h.trans_eq (by norm_num), fun h => (h hpeta).trans_eq (by norm_num)⟩
    · have hthousand := (Unit.isFor_of size).amount_le_thousand hpeta
      exact iff_of_true (by linarith) fun h => hpeta h.1

theorem length_text_le_ten (h₀ : 0 ≤ size) (h : size ≤ 99999 * Unit.peta.scale) :
    (text size).length ≤ 10 := by
  by_cases hbyte : Unit.of size = .byte
  · have hlength := length_text_of_byte h₀ hbyte
    omega
  · rw [length_text_le_iff hbyte (k := 5) (by decide)]
    by_cases hpeta : Unit.of size = .peta
    · have hmost := Unit.peta.amount_mul_scale (n := 99999) (by norm_num)
      have hle := Unit.peta.amount_mono (by exact_mod_cast h : size ≤ (99999 : ℤ) * Unit.peta.scale)
      rw [hmost] at hle
      rw [hpeta]
      exact hle.trans_lt (by norm_num)
    · have hthousand := (Unit.isFor_of size).amount_le_thousand hpeta
      linarith

/-! ### Characters -/

/-- A text of a size is one line. -/
theorem oneLine_text : Text.OneLine (text size).toList := by
  by_cases hbyte : Unit.of size = .byte
  · rw [text_of_byte hbyte]
    refine .append_string (fun h => ?_) (by decide)
    rcases mem_signed h with h | h <;> exact absurd h (by decide)
  · have hten := ten_le_shownTenths hbyte
    have hsymbol : ∀ u : Unit, Text.OneLine u.symbol.toList := fun u => by cases u <;> decide
    rw [text_of_ne hbyte]
    refine .append_string (.append_string (fun h => ?_) (by decide)) (hsymbol _)
    rcases mem_oneDecimal (by omega) h with h | h <;> exact absurd h (by decide)

end

/-! ### Counts -/

section
variable (count : UInt64)

theorem nearest_count_nonneg : 0 ≤ Binary64.nearest count.toNat :=
  nearest_nonneg (Nat.cast_nonneg _)

/-- **The text of a count has at most nine characters just when it is not huge.** -/
theorem length_textOfCount_le_nine_iff :
    (textOfCount count).length ≤ 9 ↔ ¬ IsHuge (textOfCount count) :=
  length_text_le_nine_iff (nearest_count_nonneg count)

/-- **The text of a count has at most ten characters.** -/
theorem length_textOfCount_le_ten : (textOfCount count).length ≤ 10 := by
  have hlt : (count.toNat : ℚ) < 2 ^ 64 := by exact_mod_cast count.toNat_lt
  have herror := abs_sub_nearest_le_zpow (x := count.toNat) (e := 63) (by norm_num)
    (by rw [Nat.abs_cast]; exact hlt.trans_eq (by norm_num))
  refine length_text_le_ten (nearest_count_nonneg count) ?_
  rw [abs_le] at herror
  norm_num [Unit.scale, Unit.rank] at herror ⊢
  linarith

theorem oneLine_textOfCount : Text.OneLine (textOfCount count).toList := oneLine_text

end

end ClusterWatch.ByteSize
