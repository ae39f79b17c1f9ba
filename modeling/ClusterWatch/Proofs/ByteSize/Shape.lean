import ClusterWatch.Proofs.ByteSize.Amount
import ClusterWatch.Proofs.Decimal.Numeral

/-!
# Shape — the texts that sizes have

A size below a thousand is shown in whole bytes (`ShowsWhole`): the nearest integer, and of two the
one away from zero, as a numeral with a sign if it is negative.  Any other size is shown with one
decimal in a larger unit (`ShowsTenths`), and the number in front of the unit is at least one, and
at most a thousand unless the unit is the largest.

`shape_of_text` says so of the text of any bits, which is empty just when they denote no number.
-/

namespace ClusterWatch.ByteSize
open Binary64 Decimal

/-! ### The characters of a text -/

/-- The characters of an integer: a minus sign if it is negative, and the numeral of its size. -/
theorem toList_signed (i : ℤ) :
    (signed i).toList = (if i < 0 then ['-'] else []) ++ numeral i.natAbs := by
  rw [signed]
  split_ifs <;> simp [Decimal.text]

/-- The characters of a number of tenths: the wholes, a point and one digit. -/
theorem toList_oneDecimal {t : ℤ} (ht : 0 ≤ t) :
    (oneDecimal t).toList = numeral (t.toNat / 10) ++ ['.', digitChar (t.toNat % 10)] := by
  have habs : t.natAbs = t.toNat := by omega
  have hdigit : numeral (t.toNat % 10) = [digitChar (t.toNat % 10)] := by
    rw [numeral, if_pos (Nat.mod_lt _ (by norm_num))]
  simp [oneDecimal, not_lt.2 ht, Decimal.text, habs, hdigit]

theorem mem_signed {i : ℤ} {c : Char} (h : c ∈ (signed i).toList) : c.isDigit = true ∨ c = '-' := by
  rw [toList_signed] at h
  rcases List.mem_append.1 h with h | h
  · split_ifs at h
    · exact .inr (List.mem_singleton.1 h)
    · cases h
  · exact .inl (isDigit_of_mem_numeral h)

theorem mem_oneDecimal {t : ℤ} (ht : 0 ≤ t) {c : Char} (h : c ∈ (oneDecimal t).toList) :
    c.isDigit = true ∨ c = '.' := by
  rw [toList_oneDecimal ht] at h
  rcases List.mem_append.1 h with h | h
  · exact .inl (isDigit_of_mem_numeral h)
  · rcases List.mem_cons.1 h with h | h
    · exact .inr h
    · rw [List.mem_singleton.1 h]
      exact .inl (isDigit_digitChar (Nat.mod_lt _ (by norm_num)))

/-- What is shown in bytes is shown in whole ones. -/
theorem text_of_byte {size : ℚ} (h : Unit.of size = .byte) :
    text size = signed (wholeBytes size) ++ " B" := by
  rw [text, h]

/-- What is shown in a larger unit is shown in tenths of it. -/
theorem text_of_ne {size : ℚ} (h : Unit.of size ≠ .byte) :
    text size =
      oneDecimal (shownTenths (Unit.of size) size) ++ " " ++ (Unit.of size).symbol := by
  rw [text]
  split
  next hbyte => exact absurd hbyte h
  next => rfl

/-- The tenths that are shown are those of at least one unit. -/
theorem ten_le_shownTenths {size : ℚ} (h : Unit.of size ≠ .byte) :
    10 ≤ shownTenths (Unit.of size) size := by
  have hone := (Unit.isFor_of size).one_le_amount h
  rw [Unit.amount_of_ne h, le_div_iff₀ (by norm_num), one_mul] at hone
  exact_mod_cast hone

theorem toList_text_of_byte {size : ℚ} (h : Unit.of size = .byte) :
    (text size).toList = (if wholeBytes size < 0 then ['-'] else []) ++
      numeral (wholeBytes size).natAbs ++ [' ', 'B'] := by
  rw [text_of_byte h, String.toList_append, toList_signed]
  rfl

theorem toList_text_of_ne {size : ℚ} (h : Unit.of size ≠ .byte) :
    (text size).toList =
      numeral ((shownTenths (Unit.of size) size).toNat / 10) ++
        '.' :: digitChar ((shownTenths (Unit.of size) size).toNat % 10) :: ' ' ::
          (Unit.of size).symbol.toList := by
  have hten := ten_le_shownTenths h
  rw [text_of_ne h, String.toList_append, String.toList_append, toList_oneDecimal (by omega)]
  simp

/-! ### Whole bytes -/

/-- `ShowsWhole size s`: the text `s` shows a size in whole bytes. -/
def ShowsWhole (size : ℚ) (s : List Char) : Prop :=
  ∃ (i : ℤ) (ds : List Char), |size - i| ≤ 1 / 2 ∧ (|size - i| = 1 / 2 → |size| < |(i : ℚ)|) ∧
    IsNumeral i.natAbs ds ∧ s = (if i < 0 then ['-'] else []) ++ ds ++ [' ', 'B']

/-- **A size below a thousand is shown in whole bytes.** -/
theorem showsWhole_text {size : ℚ} (h : size < 1000) : ShowsWhole size (text size).toList :=
  ⟨wholeBytes size, numeral (wholeBytes size).natAbs, abs_sub_roundAway_le size, abs_lt_roundAway,
    isNumeral_numeral _, toList_text_of_byte (Unit.of_eq_byte_iff.2 h)⟩

/-- There is no negative zero. -/
theorem ShowsWhole.ne_negative_zero {size : ℚ} {s : List Char} (h : ShowsWhole size s) :
    s ≠ ['-', '0', ' ', 'B'] := by
  obtain ⟨i, ds, -, -, hds, rfl⟩ := h
  intro heq
  split_ifs at heq with hi
  · -- the digits of a negative integer are not those of zero
    have htail : ds ++ [' ', 'B'] = ['0'] ++ [' ', 'B'] := (List.cons.inj heq).2
    obtain rfl := List.append_cancel_right htail
    have hvalue : 0 = i.natAbs := hds.value
    omega
  · -- a numeral does not begin with a sign
    obtain ⟨c, ds, rfl⟩ := List.exists_cons_of_ne_nil hds.ne_nil
    obtain ⟨rfl, -⟩ := List.cons.inj heq
    exact absurd (hds.digits '-' (List.mem_cons_self ..)) (by decide)

/-! ### Tenths of a unit -/

/-- `ShowsTenths size s`: the text `s` shows a size with one decimal in the unit for it. -/
def ShowsTenths (size : ℚ) (s : List Char) : Prop :=
  ∃ (u : Unit) (whole : ℕ) (ds : List Char) (d : Char), u ≠ .byte ∧ u.IsFor size ∧
    IsNumeral whole ds ∧ d.isDigit = true ∧ s = ds ++ '.' :: d :: ' ' :: u.symbol.toList ∧
    1 ≤ (whole + digitValue d / 10 : ℚ) ∧ (u ≠ .peta → (whole + digitValue d / 10 : ℚ) ≤ 1000)

/-- The digits in front of the unit and behind the point denote the amount. -/
theorem amount_eq_digits {size : ℚ} (h : Unit.of size ≠ .byte) :
    (Unit.of size).amount size = ((shownTenths (Unit.of size) size).toNat / 10 : ℕ) +
      digitValue (digitChar ((shownTenths (Unit.of size) size).toNat % 10)) / 10 := by
  have hten := ten_le_shownTenths h
  rw [Unit.amount_of_ne h, digitValue_digitChar (Nat.mod_lt _ (by norm_num))]
  generalize shownTenths (Unit.of size) size = t at hten
  obtain ⟨n, rfl⟩ := Int.eq_ofNat_of_zero_le (by omega : 0 ≤ t)
  have hsum : (n : ℚ) = ((10 * (n / 10) + n % 10 : ℕ) : ℚ) := by rw [Nat.div_add_mod]
  push_cast at hsum ⊢
  rw [Int.toNat_natCast]
  linarith

/-- **A size from a thousand on is shown in tenths of a larger unit.** -/
theorem showsTenths_text {size : ℚ} (h : 1000 ≤ size) : ShowsTenths size (text size).toList := by
  have hbyte : Unit.of size ≠ .byte := fun hb => not_lt.2 h (Unit.of_eq_byte_iff.1 hb)
  have hfor := Unit.isFor_of size
  have hone := hfor.one_le_amount hbyte
  have hthousand := hfor.amount_le_thousand
  rw [amount_eq_digits hbyte] at hone hthousand
  exact ⟨Unit.of size, _, _, _, hbyte, hfor, isNumeral_numeral _,
    isDigit_digitChar (Nat.mod_lt _ (by norm_num)), toList_text_of_ne hbyte, hone, hthousand⟩

/-! ### All bits -/

theorem text_ne_empty (size : ℚ) : text size ≠ "" := by
  intro h
  have hnil : (text size).toList = [] := by rw [h]; rfl
  by_cases hbyte : Unit.of size = .byte
  · rw [toList_text_of_byte hbyte] at hnil
    simp at hnil
  · rw [toList_text_of_ne hbyte] at hnil
    simp at hnil

theorem textOfBits_of_some {bits : Option UInt64} {size : ℚ} (h : bits.bind ofBits = some size) :
    textOfBits bits = text size := by
  rw [textOfBits, h]

/-- Nothing is shown just for bits that denote no number. -/
theorem textOfBits_eq_empty_iff {bits : Option UInt64} :
    textOfBits bits = "" ↔ bits.bind ofBits = none := by
  cases h : bits.bind ofBits with
  | none => exact iff_of_true (by rw [textOfBits, h]) rfl
  | some size =>
      rw [textOfBits_of_some h]
      exact iff_of_false (text_ne_empty size) (Option.some_ne_none size)

/-- **The shape of every text.**  It is empty just when there are no bits or their exponent field is
all ones.  It shows a size below a thousand in whole bytes, and never a negative zero; and any other
size with one decimal in a larger unit. -/
theorem shape_of_text (bits : Option UInt64) :
    (textOfBits bits = "" ↔ ∀ b, bits = some b → b.toNat / 2 ^ 52 % 2048 = 2047) ∧
      ∀ size, bits.bind ofBits = some size →
        (size < 1000 → ShowsWhole size (textOfBits bits).toList ∧ textOfBits bits ≠ "-0 B") ∧
        (1000 ≤ size → ShowsTenths size (textOfBits bits).toList) := by
  refine ⟨?_, fun size hsize => ?_⟩
  · rw [textOfBits_eq_empty_iff]
    cases bits with
    | none => exact iff_of_true rfl fun b hb => nomatch hb
    | some bits =>
        rw [Option.bind_some, ofBits_eq_none_iff]
        exact ⟨fun h b hb => Option.some.inj hb ▸ h, fun h => h bits rfl⟩
  · rw [textOfBits_of_some hsize]
    refine ⟨fun h => ⟨showsWhole_text h, fun heq => ?_⟩, showsTenths_text⟩
    exact (showsWhole_text h).ne_negative_zero (by rw [heq]; rfl)

/-- A size just below a million; a negative size that is rounded to zero; and a NaN. -/
theorem shape_of_text_boundaries :
    (∃ bits size, bits = some 0x412E841C00000000 ∧ bits.bind ofBits = some size ∧ size = 999950 ∧
      1000 ≤ size ∧ ShowsTenths size (textOfBits bits).toList ∧ textOfBits bits = "1000.0 KB") ∧
    (∃ bits size, bits = some 0xBFD0000000000000 ∧ bits.bind ofBits = some size ∧ size = -1 / 4 ∧
      size < 1000 ∧ ShowsWhole size (textOfBits bits).toList ∧ textOfBits bits = "0 B") ∧
    textOfBits (some 0x7FF8000000000001) = "" := by
  have hmega : ofBits 0x412E841C00000000 = some 999950 := by decide +kernel
  have hquarter : ofBits 0xBFD0000000000000 = some (-1 / 4) := by decide +kernel
  refine ⟨⟨some 0x412E841C00000000, 999950, rfl, hmega, rfl, by norm_num, ?_, by decide +kernel⟩,
    ⟨some 0xBFD0000000000000, -1 / 4, rfl, hquarter, rfl, by norm_num, ?_, by decide +kernel⟩, ?_⟩
  · exact ((shape_of_text (some 0x412E841C00000000)).2 _ hmega).2 (by norm_num)
  · exact (((shape_of_text (some 0xBFD0000000000000)).2 _ hquarter).1 (by norm_num)).1
  · exact (shape_of_text _).1.2 fun b hb => by cases hb; decide

end ClusterWatch.ByteSize
