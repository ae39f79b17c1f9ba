import ClusterWatch.ByteSize
import ClusterWatch.Proofs.Binary64.Nearest

/-!
# Amounts — what a size comes to in its unit

`Unit.IsFor u size` says which unit a size is shown in, and `Unit.of` gives that one
(`Unit.isFor_of`).  In a unit a size comes to an amount, which is monotone in the size
(`Unit.amount_mono`), for each of the roundings that it goes through is, and which is exact for a
small multiple of the unit (`Unit.amount_mul_scale`).

So an amount lies between one of its unit and a thousand of it (`Unit.IsFor.one_le_amount`,
`Unit.IsFor.amount_le_thousand`), which is where the next unit begins.  Hence what is shown is
monotone across the units as well (`shown_mono`).
-/

namespace ClusterWatch.ByteSize
open Binary64

namespace Unit

/-! ### The unit of a size -/

/-- `u` is the smallest unit whose thousandfold exceeds the size, or the largest unit when there is
none. -/
structure IsFor (u : Unit) (size : ℚ) : Prop where
  exceeds : size < u.scale * 1000 ∨ u = peta
  least : ∀ v : Unit, v.rank < u.rank → v.scale * 1000 ≤ size

theorem mem_all (u : Unit) : u ∈ all := by
  cases u <;> decide

theorem all_ascending : all.Pairwise fun u v => u.rank < v.rank := by decide

theorem rank_le_peta (u : Unit) : u.rank ≤ peta.rank := by
  cases u <;> decide

theorem all_getElem?_rank (u : Unit) : all[u.rank]? = some u := by
  cases u <;> rfl

theorem rank_injective : Function.Injective rank := by
  intro u v h
  have hu := all_getElem?_rank u
  rw [h, all_getElem?_rank v] at hu
  exact (Option.some.inj hu).symm

/-- **Each size is shown in the unit for it.** -/
theorem isFor_of (size : ℚ) : (of size).IsFor size := by
  rw [of]
  cases h : all.find? fun u => size < u.scale * 1000 with
  | none =>
      refine ⟨.inr rfl, fun v _ => ?_⟩
      have hv := List.find?_eq_none.1 h v (mem_all v)
      exact not_lt.1 (by simpa using hv)
  | some u =>
      obtain ⟨hu, before, behind, hall, hbefore⟩ := List.find?_eq_some_iff_append.1 h
      refine ⟨.inl (of_decide_eq_true hu), fun v hv => ?_⟩
      have hmem := mem_all v
      have hascending := all_ascending
      rw [hall] at hmem hascending
      -- a unit of lower rank stands before the one that was found
      rcases List.mem_append.1 hmem with hmem | hmem
      · exact not_lt.1 (by simpa using hbefore v hmem)
      · rcases List.mem_cons.1 hmem with rfl | hmem
        · exact absurd hv (lt_irrefl _)
        · have hafter := (List.pairwise_cons.1 (List.pairwise_append.1 hascending).2.1).1 v hmem
          exact absurd hafter (Nat.lt_asymm hv)

/-- A larger size has no smaller unit. -/
theorem IsFor.rank_le {u v : Unit} {a b : ℚ} (hu : u.IsFor a) (hv : v.IsFor b) (hab : a ≤ b) :
    u.rank ≤ v.rank := by
  by_contra h
  rcases hv.exceeds with hlt | rfl
  · have := hu.least v (not_le.1 h)
    linarith
  · exact h u.rank_le_peta

theorem IsFor.unique {u v : Unit} {size : ℚ} (hu : u.IsFor size) (hv : v.IsFor size) : u = v :=
  rank_injective (le_antisymm (hu.rank_le hv le_rfl) (hv.rank_le hu le_rfl))

theorem of_eq {u : Unit} {size : ℚ} (h : u.IsFor size) : of size = u :=
  (isFor_of size).unique h

/-- Bytes are shown below a thousand. -/
theorem of_eq_byte_iff {size : ℚ} : of size = byte ↔ size < 1000 := by
  constructor
  · intro h
    have hfor := (isFor_of size).exceeds
    rw [h] at hfor
    simpa [scale, rank] using hfor
  · intro h
    refine of_eq ⟨.inl (by simpa [scale, rank] using h), fun v hv => ?_⟩
    exact absurd hv (Nat.not_lt_zero _)

theorem scale_pos (u : Unit) : (0 : ℚ) < u.scale := by
  cases u <;> norm_num [scale, rank]

/-- A unit is at least a thousand of any smaller one. -/
theorem scale_mul_thousand_le {u v : Unit} (h : u.rank < v.rank) :
    (u.scale : ℚ) * 1000 ≤ v.scale := by
  have hpow : u.scale * 1000 ≤ v.scale := by
    rw [scale, scale, Nat.pow_eq, Nat.pow_eq, ← pow_succ]
    exact Nat.pow_le_pow_right (by norm_num) h
  exact_mod_cast hpow

/-- Every unit is a thousand of another, bytes apart. -/
theorem exists_scale_mul_thousand {u : Unit} (h : u ≠ byte) :
    ∃ v : Unit, v.rank < u.rank ∧ v.scale * 1000 = u.scale := by
  cases u with
  | byte => exact absurd rfl h
  | kilo => exact ⟨byte, by decide⟩
  | mega => exact ⟨kilo, by decide⟩
  | giga => exact ⟨mega, by decide⟩
  | tera => exact ⟨giga, by decide⟩
  | peta => exact ⟨tera, by decide⟩

/-- A size is at least one of its unit, bytes apart. -/
theorem IsFor.scale_le {u : Unit} {size : ℚ} (h : u.IsFor size) (hu : u ≠ byte) :
    u.scale ≤ size := by
  obtain ⟨v, hv, hscale⟩ := exists_scale_mul_thousand hu
  have hle := h.least v hv
  rw [← hscale]
  exact_mod_cast hle

/-! ### The amount of a unit -/

theorem shownTenths_mono (u : Unit) : Monotone (shownTenths u) := by
  intro a b hab
  have hunits : a / u.scale ≤ b / u.scale := div_le_div_of_nonneg_right hab u.scale_pos.le
  have htimes : nearest (a / u.scale) * 10 ≤ nearest (b / u.scale) * 10 :=
    mul_le_mul_of_nonneg_right (nearest_mono hunits) (by norm_num)
  have htenths : (tenths u a : ℚ) ≤ tenths u b := by
    exact_mod_cast roundAway_mono (nearest_mono htimes)
  have hshown : nearest (tenths u a / 10) ≤ nearest (tenths u b / 10) :=
    nearest_mono (div_le_div_of_nonneg_right htenths (by norm_num))
  exact roundEven_mono (mul_le_mul_of_nonneg_right hshown (by norm_num))

theorem tenths_mul_scale (u : Unit) {n : ℤ} (hn : |n| ≤ 2 ^ 49) :
    tenths u (n * u.scale) = n * 10 := by
  have hten : (n : ℚ) * 10 = ((n * 10 : ℤ) : ℚ) := by push_cast; rfl
  rw [abs_le] at hn
  rw [tenths, mul_div_cancel_right₀ _ u.scale_pos.ne',
    nearest_intCast (abs_le.2 (by constructor <;> omega)), hten,
    nearest_intCast (abs_le.2 (by constructor <;> omega)), roundAway_intCast]

theorem shownTenths_mul_scale (u : Unit) {n : ℤ} (hn : |n| ≤ 2 ^ 49) :
    shownTenths u (n * u.scale) = n * 10 := by
  have hten : (n : ℚ) * 10 = ((n * 10 : ℤ) : ℚ) := by push_cast; rfl
  rw [shownTenths, tenths_mul_scale u hn, ← hten, mul_div_cancel_right₀ _ (by norm_num),
    nearest_intCast (hn.trans (by norm_num)), hten, roundEven_intCast]

/-- The amount that is shown of a size in a unit. -/
def amount (u : Unit) (size : ℚ) : ℚ :=
  if u = byte then wholeBytes size else shownTenths u size / 10

theorem amount_byte (size : ℚ) : byte.amount size = wholeBytes size := if_pos rfl

theorem amount_of_ne {u : Unit} (h : u ≠ byte) (size : ℚ) :
    u.amount size = shownTenths u size / 10 := if_neg h

/-- **A larger size comes to no smaller amount of a unit.** -/
theorem amount_mono (u : Unit) : Monotone u.amount := by
  intro a b hab
  by_cases hu : u = byte
  · subst hu
    rw [amount_byte, amount_byte]
    exact_mod_cast roundAway_mono hab
  · rw [amount_of_ne hu, amount_of_ne hu]
    have hle : (shownTenths u a : ℚ) ≤ shownTenths u b := by exact_mod_cast shownTenths_mono u hab
    exact div_le_div_of_nonneg_right hle (by norm_num)

/-- A whole number of units is shown as it is. -/
theorem amount_mul_scale (u : Unit) {n : ℤ} (hn : |n| ≤ 2 ^ 49) :
    u.amount (n * u.scale) = n := by
  by_cases hu : u = byte
  · subst hu
    have hscale : (byte.scale : ℚ) = 1 := by norm_num [scale, rank]
    rw [amount_byte, hscale, mul_one, wholeBytes, roundAway_intCast]
  · rw [amount_of_ne hu, shownTenths_mul_scale u hn]
    push_cast
    exact mul_div_cancel_right₀ _ (by norm_num)

/-- **No amount is below one of its unit**, bytes apart. -/
theorem IsFor.one_le_amount {u : Unit} {size : ℚ} (h : u.IsFor size) (hu : u ≠ byte) :
    1 ≤ u.amount size := by
  have hone := u.amount_mul_scale (n := 1) (by norm_num)
  rw [Int.cast_one, one_mul] at hone
  exact hone.symm.le.trans (u.amount_mono (h.scale_le hu))

/-- **No amount is above a thousand of its unit**, the largest unit apart. -/
theorem IsFor.amount_le_thousand {u : Unit} {size : ℚ} (h : u.IsFor size) (hu : u ≠ peta) :
    u.amount size ≤ 1000 := by
  have hthousand := u.amount_mul_scale (n := 1000) (by norm_num)
  have hle : size ≤ ((1000 : ℤ) : ℚ) * u.scale := by
    have := h.exceeds.resolve_right hu
    push_cast
    linarith
  exact (u.amount_mono hle).trans_eq (by rw [hthousand]; norm_num)

end Unit

/-! ### What is shown -/

/-- The bytes that the amount shown of a size comes to. -/
def shown (size : ℚ) : ℚ := (Unit.of size).amount size * (Unit.of size).scale

/-- **What is shown of a larger size is no smaller**, be it in the same unit or not. -/
theorem shown_mono : Monotone shown := by
  intro a b hab
  have ha := Unit.isFor_of a
  have hb := Unit.isFor_of b
  rcases (ha.rank_le hb hab).eq_or_lt with hrank | hrank
  · rw [shown, shown, Unit.rank_injective hrank]
    exact mul_le_mul_of_nonneg_right (Unit.amount_mono _ hab) (Unit.scale_pos _).le
  · -- at most a thousand of the lower unit, and at least one of the higher
    have hpeta : Unit.of a ≠ .peta := fun h => by
      rw [h] at hrank
      exact absurd hrank (not_lt.2 (Unit.rank_le_peta _))
    have hbyte : Unit.of b ≠ .byte := fun h => by
      rw [h] at hrank
      exact absurd hrank (Nat.not_lt_zero _)
    calc shown a ≤ 1000 * (Unit.of a).scale :=
          mul_le_mul_of_nonneg_right (ha.amount_le_thousand hpeta) (Unit.scale_pos _).le
      _ = (Unit.of a).scale * 1000 := mul_comm _ _
      _ ≤ (Unit.of b).scale := Unit.scale_mul_thousand_le hrank
      _ = 1 * (Unit.of b).scale := (one_mul _).symm
      _ ≤ shown b := mul_le_mul_of_nonneg_right (hb.one_le_amount hbyte) (Unit.scale_pos _).le

end ClusterWatch.ByteSize
