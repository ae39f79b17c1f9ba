/-!
# Decimal — numerals in base ten

A natural number has one decimal numeral without leading zeros (`Decimal.numeral`), and a run of
digits has one value (`Decimal.value`).  Everything the program prints in digits is printed by
`numeral`; a number that it reads in digits is the `value` of them.  The value of a numeral is the
number it was made of (`value_numeral`).
-/

namespace ClusterWatch.Decimal

/-- The digit `d`, for `d < 10`. -/
def digitChar (d : Nat) : Char := Char.ofNat (48 + d)

/-- The value of a digit. -/
def digitValue (c : Char) : Nat := c.toNat - 48

/-- The numeral of `n`: its digits, the most significant first, without leading zeros. -/
def numeral (n : Nat) : List Char :=
  if n < 10 then [digitChar n] else numeral (n / 10) ++ [digitChar (n % 10)]
termination_by n

/-- The value of a run of digits: each digit moves those before it up one place. -/
def value (ds : List Char) : Nat := ds.foldl (fun v c => 10 * v + digitValue c) 0

/-- The numeral of `n`, as text. -/
def text (n : Nat) : String := String.ofList (numeral n)

/-- The numeral of `n` behind zeros that fill it up to `width` digits. -/
def padded (width n : Nat) : List Char :=
  List.replicate (width - (numeral n).length) '0' ++ numeral n

/-- The numeral of an integer: a minus sign stands before a negative one. -/
def signed (i : Int) : String :=
  if i < 0 then "-" ++ text i.natAbs else text i.natAbs

/-! ### A numeral and its value -/

/-- A digit stands `d` places behind zero. -/
theorem toNat_digitChar {d : Nat} (h : d < 10) : (digitChar d).toNat = 48 + d := by
  rw [digitChar, Char.ofNat, dif_pos (Or.inl (by omega))]
  rfl

theorem digitValue_digitChar {d : Nat} (h : d < 10) : digitValue (digitChar d) = d := by
  rw [digitValue, toNat_digitChar h, Nat.add_sub_cancel_left]

/-- One digit more moves the others up one place. -/
theorem value_append_singleton (ds : List Char) (c : Char) :
    value (ds ++ [c]) = 10 * value ds + digitValue c := by
  simp [value]

/-- **The value of a numeral is the number it was made of.** -/
theorem value_numeral (n : Nat) : value (numeral n) = n := by
  induction n using numeral.induct with
  | case1 n h =>
    rw [numeral, if_pos h]
    simpa [value] using digitValue_digitChar h
  | case2 n h ih =>
    rw [numeral, if_neg h, value_append_singleton, ih, digitValue_digitChar (by omega)]
    omega

/-- A numeral has a digit. -/
theorem numeral_ne_nil (n : Nat) : numeral n ≠ [] := by
  rw [numeral]
  split <;> simp

end ClusterWatch.Decimal
