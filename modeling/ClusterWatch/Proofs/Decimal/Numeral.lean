import ClusterWatch.Decimal
import Mathlib.Algebra.Group.Nat.Defs
import Mathlib.Data.List.Basic

/-!
# Numerals — what is printed of a number

`IsNumeral n ds` says that the digits `ds`, without leading zeros, have the value `n`; the numeral
of `n` is such digits (`isNumeral_numeral`).  It has no more than `k` digits just when `n` is below
the `k`-th power of ten (`length_numeral_le_iff`).
-/

namespace ClusterWatch.Decimal

/-! ### The digits -/

theorem isDigit_digitChar {d : Nat} (h : d < 10) : (digitChar d).isDigit = true := by
  have all : ∀ d ∈ List.range 10, (digitChar d).isDigit = true := by decide
  exact all d (List.mem_range.2 h)

/-- A numeral is made of digits. -/
theorem isDigit_of_mem_numeral {n : Nat} {c : Char} (h : c ∈ numeral n) : c.isDigit = true := by
  induction n using numeral.induct with
  | case1 n hn =>
      rw [numeral, if_pos hn] at h
      rw [List.mem_singleton.1 h]
      exact isDigit_digitChar hn
  | case2 n hn ih =>
      rw [numeral, if_neg hn] at h
      rcases List.mem_append.1 h with h | h
      · exact ih h
      · rw [List.mem_singleton.1 h]
        exact isDigit_digitChar (Nat.mod_lt n (by decide))

/-- A numeral stands on one line. -/
theorem newline_notMem_numeral (n : Nat) : '\n' ∉ numeral n := fun h =>
  absurd (isDigit_of_mem_numeral h) (by decide)

/-- Only the numeral of zero begins with a zero. -/
theorem numeral_of_head?_zero {n : Nat} (h : (numeral n).head? = some '0') : numeral n = ['0'] := by
  induction n using numeral.induct with
  | case1 n hn =>
      rw [numeral, if_pos hn] at h ⊢
      exact congrArg (· :: []) (Option.some.inj h)
  | case2 n hn ih =>
      rw [numeral, if_neg hn, List.head?_append_of_ne_nil _ (numeral_ne_nil _)] at h
      have hvalue := congrArg value (ih h)
      rw [value_numeral] at hvalue
      have hzero : n / 10 = 0 := hvalue
      omega

/-- `IsNumeral n ds`: the digits `ds`, without leading zeros, have the value `n`. -/
structure IsNumeral (n : Nat) (ds : List Char) : Prop where
  ne_nil : ds ≠ []
  digits : ∀ c ∈ ds, c.isDigit = true
  leading : ds.head? = some '0' → ds = ['0']
  value : value ds = n

/-- **A numeral is digits without leading zeros whose value is the number.** -/
theorem isNumeral_numeral (n : Nat) : IsNumeral n (numeral n) :=
  ⟨numeral_ne_nil n, fun _ => isDigit_of_mem_numeral, numeral_of_head?_zero, value_numeral n⟩

/-! ### How many there are -/

theorem length_numeral_pos (n : Nat) : 0 < (numeral n).length :=
  List.length_pos_iff.2 (numeral_ne_nil n)

/-- **A numeral has no more digits than a power of ten above the number has zeros.** -/
theorem length_numeral_le_iff {n k : Nat} (hk : 0 < k) : (numeral n).length ≤ k ↔ n < 10 ^ k := by
  induction n using numeral.induct generalizing k with
  | case1 n hn =>
      rw [numeral, if_pos hn]
      exact iff_of_true hk (Nat.lt_of_lt_of_le hn (Nat.le_self_pow (Nat.ne_of_gt hk) 10))
  | case2 n hn ih =>
      rw [numeral, if_neg hn, List.length_append, List.length_singleton]
      obtain ⟨j, rfl⟩ := Nat.exists_eq_succ_of_ne_zero (Nat.ne_of_gt hk)
      rw [Nat.succ_eq_add_one, Nat.add_le_add_iff_right]
      rcases Nat.eq_zero_or_pos j with rfl | hj
      · have := length_numeral_pos (n / 10)
        exact iff_of_false (by omega) (by omega)
      · rw [ih hj, Nat.div_lt_iff_lt_mul (by decide), Nat.pow_succ]

end ClusterWatch.Decimal
