/-!
# Hex — hexadecimal digits

A digit stands for a number below sixteen.  Its letters are read in both cases, and written in the
case that the format asks for.  A lower-case digit is read as the number it was made of
(`hexValue?_hexDigit`).
-/

namespace ClusterWatch.Text

/-- The lower-case hexadecimal digit `d`, for `d < 16`. -/
def hexDigit (d : Nat) : Char := if d < 10 then Char.ofNat (48 + d) else Char.ofNat (87 + d)

/-- The upper-case hexadecimal digit `d`, for `d < 16`. -/
def upperHexDigit (d : Nat) : Char := if d < 10 then Char.ofNat (48 + d) else Char.ofNat (55 + d)

/-- The value of a hexadecimal digit. -/
def hexValue? (c : Char) : Option Nat :=
  if '0' ≤ c ∧ c ≤ '9' then some (c.toNat - 48)
  else if 'a' ≤ c ∧ c ≤ 'f' then some (c.toNat - 87)
  else if 'A' ≤ c ∧ c ≤ 'F' then some (c.toNat - 55)
  else none

/-- The hexadecimal numeral of `n`, without leading zeros. -/
def hexNumeral (n : Nat) : List Char :=
  if n < 16 then [hexDigit n] else hexNumeral (n / 16) ++ [hexDigit (n % 16)]
termination_by n

theorem hexValue?_hexDigit {d : Nat} (h : d < 16) : hexValue? (hexDigit d) = some d := by
  have all : ∀ d ∈ List.range 16, hexValue? (hexDigit d) = some d := by decide
  exact all d (List.mem_range.2 h)

theorem hexValue?_upperHexDigit {d : Nat} (h : d < 16) : hexValue? (upperHexDigit d) = some d := by
  have all : ∀ d ∈ List.range 16, hexValue? (upperHexDigit d) = some d := by decide
  exact all d (List.mem_range.2 h)

end ClusterWatch.Text
