import ClusterWatch.Proofs.ByteSize.Shape
import ClusterWatch.Text.Pieces
import Mathlib.Data.List.TakeWhile

/-!
# Reading — texts of sizes are in the order of the sizes

`read?` reads the text of a size as a number and the unit behind it.  What it reads in the text of a
size is the amount in the unit for the size (`read?_text`), so a text denotes what is shown of the
size (`Reading.quantity`), which is monotone.

Hence no text of a larger size denotes less or has a smaller unit: for the sizes that bits denote
and for counts of bytes alike (`texts_never_go_down`).
-/

namespace ClusterWatch.ByteSize
open Binary64 Decimal

/-! ### Numbers in texts -/

/-- The value of a text of digits. -/
def digits? (s : List Char) : Option ℕ :=
  if s ≠ [] ∧ s.all Char.isDigit then some (value s) else none

/-- The number that digits denote, with or without a point and digits behind it. -/
def unsigned? (s : List Char) : Option ℚ :=
  match Text.splitAt (· = '.') s with
  | (whole, []) => (digits? whole).map (↑)
  | (whole, _ :: decimals) => do
      let n ← digits? whole
      let d ← digits? decimals
      return n + d / 10 ^ decimals.length

/-- The number that a text denotes, with or without a minus sign. -/
def number? (s : List Char) : Option ℚ :=
  match Text.after? ['-'] s with
  | some t => (unsigned? t).map (- ·)
  | none => unsigned? s

/-- A numeral is read as its number. -/
theorem digits?_of_isNumeral {n : ℕ} {ds : List Char} (h : IsNumeral n ds) :
    digits? ds = some n := by
  rw [digits?, if_pos ⟨h.ne_nil, List.all_eq_true.2 h.digits⟩, h.value]

theorem digits?_digitChar {d : ℕ} (h : d < 10) : digits? [digitChar d] = some d := by
  have hd := digits?_of_isNumeral (isNumeral_numeral d)
  rwa [numeral, if_pos h] at hd

/-- A character that is no digit is not in a numeral. -/
theorem not_of_mem_numeral {p : Char → Bool} (hp : ∀ c, c.isDigit = true → p c = false) (n : ℕ) :
    ∀ c ∈ numeral n, p c = false := fun c hc => hp c (isDigit_of_mem_numeral hc)

theorem isDigit_ne {c d : Char} (hd : d.isDigit = false) (hc : c.isDigit = true) :
    decide (c = d) = false :=
  decide_eq_false fun h => by
    rw [h, hd] at hc
    cases hc

theorem splitAt_of_not {p : Char → Bool} {s : List Char} (hs : ∀ c ∈ s, p c = false) :
    Text.splitAt p s = (s, []) := by
  have hs' : ∀ c ∈ s, (!p c) = true := fun c hc => by rw [hs c hc]; rfl
  rw [Text.splitAt, List.takeWhile_eq_self_iff.2 hs', List.dropWhile_eq_nil_iff.2 hs']

theorem unsigned?_numeral (n : ℕ) : unsigned? (numeral n) = some (n : ℚ) := by
  have hsplit := splitAt_of_not (not_of_mem_numeral (p := (· = '.')) (fun _ => isDigit_ne rfl) n)
  rw [unsigned?, hsplit]
  simp only [digits?_of_isNumeral (isNumeral_numeral n), Option.map_some]

/-- Wholes with one digit behind the point are read as tenths. -/
theorem unsigned?_tenths (n : ℕ) {d : ℕ} (hd : d < 10) :
    unsigned? (numeral n ++ ['.', digitChar d]) = some (n + d / 10 : ℚ) := by
  have hsplit := Text.splitAt_append_of_not
    (not_of_mem_numeral (p := (· = '.')) (fun _ => isDigit_ne rfl) n) (d := '.') rfl [digitChar d]
  rw [unsigned?, hsplit]
  simp only [digits?_of_isNumeral (isNumeral_numeral n), digits?_digitChar hd]
  simp

/-- A numeral has no sign. -/
theorem number?_numeral_append (n : ℕ) (s : List Char) :
    number? (numeral n ++ s) = unsigned? (numeral n ++ s) := by
  obtain ⟨c, ds, hds⟩ := List.exists_cons_of_ne_nil (numeral_ne_nil n)
  have hc : '-' ≠ c := by
    rintro rfl
    exact absurd (isDigit_of_mem_numeral (n := n) (by rw [hds]; exact List.mem_cons_self ..))
      (by decide)
  rw [number?, hds, List.cons_append, Text.after?, if_neg hc]

/-- An integer is read back from its text. -/
theorem number?_signed (i : ℤ) :
    number? ((if i < 0 then ['-'] else []) ++ numeral i.natAbs) = some (i : ℚ) := by
  split_ifs with hi
  · obtain ⟨n, rfl⟩ : ∃ n : ℕ, i = -n := ⟨i.natAbs, by omega⟩
    rw [Int.natAbs_neg, Int.natAbs_natCast, number?, Text.after?_eq_some_iff.2 rfl]
    simp [unsigned?_numeral]
  · obtain ⟨n, rfl⟩ := Int.eq_ofNat_of_zero_le (not_lt.1 hi)
    rw [Int.natAbs_natCast, List.nil_append, ← List.append_nil (numeral n),
      number?_numeral_append, List.append_nil, unsigned?_numeral]
    simp

/-! ### Numbers with their units -/

/-- What a text of a size says: a number of a unit. -/
structure Reading where
  number : ℚ
  unit : Unit
  deriving DecidableEq

/-- The bytes that a text of a size denotes. -/
def Reading.quantity (r : Reading) : ℚ := r.number * r.unit.scale

/-- Reads a number, a space, and the sign of a unit. -/
def read? (s : String) : Option Reading :=
  match Text.splitAt (· = ' ') s.toList with
  | (_, []) => none
  | (number, _ :: symbol) => do
      let x ← number? number
      let u ← Unit.all.find? fun u => u.symbol.toList = symbol
      return ⟨x, u⟩

/-- A unit is found by its symbol. -/
theorem find?_symbol (u : Unit) :
    (Unit.all.find? fun v => v.symbol.toList = u.symbol.toList) = some u := by
  cases u <;> decide

/-- What is read in a number in front of a unit. -/
theorem read?_eq {s : String} {x : ℚ} {u : Unit} (number : List Char)
    (hs : s.toList = number ++ ' ' :: u.symbol.toList) (hspace : ∀ c ∈ number, c ≠ ' ')
    (hx : number? number = some x) : read? s = some ⟨x, u⟩ := by
  have hsplit := Text.splitAt_append_of_not (p := (· = ' '))
    (fun c hc => decide_eq_false (hspace c hc)) (d := ' ') rfl u.symbol.toList
  rw [read?, hs, hsplit]
  simp only [hx, find?_symbol]
  rfl

/-- A number of tenths is read back from its text. -/
theorem number?_oneDecimal {t : ℤ} (ht : 0 ≤ t) :
    number? (oneDecimal t).toList =
      some ((t.toNat / 10 : ℕ) + digitValue (digitChar (t.toNat % 10)) / 10 : ℚ) := by
  have hdigit : t.toNat % 10 < 10 := Nat.mod_lt _ (by norm_num)
  rw [toList_oneDecimal ht, number?_numeral_append, unsigned?_tenths _ hdigit,
    digitValue_digitChar hdigit]

/-- **The text of a size says the amount in the unit for the size.** -/
theorem read?_text (size : ℚ) :
    read? (text size) = some ⟨(Unit.of size).amount size, Unit.of size⟩ := by
  by_cases hbyte : Unit.of size = .byte
  · refine read?_eq (signed (wholeBytes size)).toList ?_ (fun c hc => ?_) ?_
    · rw [text_of_byte hbyte, hbyte, String.toList_append]
      rfl
    · rintro rfl
      rcases mem_signed hc with h | h <;> exact absurd h (by decide)
    · rw [hbyte, Unit.amount_byte, toList_signed, number?_signed]
  · have ht : 0 ≤ shownTenths (Unit.of size) size := by
      have := ten_le_shownTenths hbyte
      omega
    refine read?_eq (oneDecimal (shownTenths (Unit.of size) size)).toList ?_ (fun c hc => ?_) ?_
    · rw [text_of_ne hbyte, String.toList_append, String.toList_append, List.append_assoc]
      rfl
    · rintro rfl
      rcases mem_oneDecimal ht hc with h | h <;> exact absurd h (by decide)
    · rw [amount_eq_digits hbyte, number?_oneDecimal ht]

/-! ### The order -/

/-- What one text denotes is at most what another does, and the unit of the one is no larger. -/
def AtMost (s t : String) : Prop :=
  ∃ r q, read? s = some r ∧ read? t = some q ∧ r.unit.rank ≤ q.unit.rank ∧ r.quantity ≤ q.quantity

theorem atMost_text {a b : ℚ} (h : a ≤ b) : AtMost (text a) (text b) :=
  ⟨_, _, read?_text a, read?_text b, (Unit.isFor_of a).rank_le (Unit.isFor_of b) h, shown_mono h⟩

/-- **Texts never go down.**  The text of a larger size denotes no less, and has no smaller unit. -/
theorem texts_never_go_down :
    (∀ (a b : UInt64) (x y : ℚ), ofBits a = some x → ofBits b = some y → x ≤ y →
      AtMost (textOfBits (some a)) (textOfBits (some b))) ∧
    ∀ m n : UInt64, m ≤ n → AtMost (textOfCount m) (textOfCount n) := by
  refine ⟨fun a b x y ha hb hxy => ?_, fun m n hmn => ?_⟩
  · have htext : ∀ {bits : UInt64} {size : ℚ}, ofBits bits = some size →
        textOfBits (some bits) = text size := fun h => textOfBits_of_some h
    rw [htext ha, htext hb]
    exact atMost_text hxy
  · have hle : (m.toNat : ℚ) ≤ n.toNat := by exact_mod_cast UInt64.le_iff_toNat_le.1 hmn
    exact atMost_text (nearest_mono hle)

/-- The largest number below a million and a million; and the counts around the largest unit. -/
theorem texts_never_go_down_boundary :
    (∃ a b x y, a = 0x412E847FFFFFFFFF ∧ b = 0x412E848000000000 ∧ ofBits a = some x ∧
      ofBits b = some y ∧ x ≤ y ∧ AtMost (textOfBits (some a)) (textOfBits (some b)) ∧
      textOfBits (some a) = "1000.0 KB" ∧ textOfBits (some b) = "1.0 MB") ∧
    (999999999999999 : UInt64) ≤ 1000000000000000 ∧
      AtMost (textOfCount 999999999999999) (textOfCount 1000000000000000) := by
  have hbelow : ofBits 0x412E847FFFFFFFFF = some (8589934591999999 / 8589934592) := by
    decide +kernel
  have hmega : ofBits 0x412E848000000000 = some 1000000 := by decide +kernel
  refine ⟨⟨_, _, _, _, rfl, rfl, hbelow, hmega, by norm_num, ?_, by decide +kernel,
    by decide +kernel⟩, by decide, texts_never_go_down.2 _ _ (by decide)⟩
  exact texts_never_go_down.1 _ _ _ _ hbelow hmega (by norm_num)

end ClusterWatch.ByteSize
