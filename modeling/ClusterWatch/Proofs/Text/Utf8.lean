import ClusterWatch.Text.Utf8

/-!
# Utf8 — the bytes of a text are read as that text

`decodeLossy_utf8` says that nothing is lost between writing and reading: no character of a text is
read as a replacement.

A code point is written in sixes of bits, the first byte with the leading ones.  That byte says how
many follow and which of them are too small or too large (`lead?_two`, `lead?_three`, `lead?_four`);
each that follows adds its six bits (`readMore_trailing`).  The excluded bytes belong to forms that
are longer than needed and to surrogates, which no character is.
-/

namespace ClusterWatch.Text

/-! ### First bytes -/

theorem toNat_ofNat {n : Nat} (h : n < 256) : (UInt8.ofNat n).toNat = n :=
  UInt8.toNat_ofNat_of_lt' h

/-- The lead byte of two says that one more follows. -/
theorem lead?_two {k : Nat} (h : 2 ≤ k) (h' : k < 32) :
    lead? (0xC0 + k) = some ⟨1, 0x80, 0xBF, k⟩ := by
  have all : ∀ k ∈ List.range 32, 2 ≤ k → lead? (0xC0 + k) = some ⟨1, 0x80, 0xBF, k⟩ := by decide
  exact all k (List.mem_range.2 h') h

/-- The lead byte of three leaves out the long forms and the surrogates. -/
theorem lead?_three {k : Nat} (h : k < 16) :
    lead? (0xE0 + k) =
      some ⟨2, if k = 0 then 0xA0 else 0x80, if k = 13 then 0x9F else 0xBF, k⟩ := by
  have all : ∀ k ∈ List.range 16, lead? (0xE0 + k) =
      some ⟨2, if k = 0 then 0xA0 else 0x80, if k = 13 then 0x9F else 0xBF, k⟩ := by decide
  exact all k (List.mem_range.2 h)

/-- The lead byte of four leaves out the long forms and what is beyond the last character. -/
theorem lead?_four {k : Nat} (h : k < 5) :
    lead? (0xF0 + k) =
      some ⟨3, if k = 0 then 0x90 else 0x80, if k = 4 then 0x8F else 0xBF, k⟩ := by
  have all : ∀ k ∈ List.range 5, lead? (0xF0 + k) =
      some ⟨3, if k = 0 then 0x90 else 0x80, if k = 4 then 0x8F else 0xBF, k⟩ := by decide
  exact all k (List.mem_range.2 h)

/-- A byte that follows adds six bits, if it lies between the bounds. -/
theorem readMore_trailing {more low high bits d : Nat} (bs : List UInt8) (hd : d < 64)
    (hlow : low ≤ 0x80 + d) (hhigh : 0x80 + d ≤ high) :
    readMore (more + 1) low high bits (UInt8.ofNat (0x80 + d) :: bs) =
      readMore more 0x80 0xBF (64 * bits + d) bs := by
  rw [readMore, toNat_ofNat (by omega), if_pos ⟨hlow, hhigh⟩, Nat.add_sub_cancel_left]

theorem readMore_done (low high bits : Nat) (bs : List UInt8) :
    readMore 0 low high bits bs = (Char.ofNat bits, bs) := by
  rw [readMore]

/-- What is read from a first byte of several and the bytes behind it. -/
theorem decodeLossy_lead {b more low high bits : Nat} (hb : b < 256) (h : 0x80 ≤ b)
    (hl : lead? b = some ⟨more, low, high, bits⟩) (bs : List UInt8) :
    decodeLossy (UInt8.ofNat b :: bs) =
      (readMore more low high bits bs).1 :: decodeLossy (readMore more low high bits bs).2 := by
  rw [decodeLossy, toNat_ofNat hb, if_neg (by omega), hl]

/-! ### Characters -/

/-- The two bytes of a character are decoded as it. -/
theorem decodeLossy_two {n : Nat} (h : 0x80 ≤ n) (h' : n < 0x800) (bs : List UInt8) :
    decodeLossy (UInt8.ofNat (0xC0 + n / 64) :: UInt8.ofNat (0x80 + n % 64) :: bs) =
      Char.ofNat n :: decodeLossy bs := by
  have hlead := lead?_two (k := n / 64) (by omega) (by omega)
  have hbits : 64 * (n / 64) + n % 64 = n := Nat.div_add_mod n 64
  rw [decodeLossy_lead (by omega) (by omega) hlead, readMore_trailing bs (by omega) (by omega)
    (by omega), readMore_done, hbits]

/-- The three bytes of a character are decoded as it. -/
theorem decodeLossy_three {n : Nat} (h : 0x800 ≤ n) (h' : n < 0x10000)
    (hvalid : n < 0xD800 ∨ 0xE000 ≤ n) (bs : List UInt8) :
    decodeLossy (UInt8.ofNat (0xE0 + n / 4096) :: UInt8.ofNat (0x80 + n / 64 % 64) ::
        UInt8.ofNat (0x80 + n % 64) :: bs) = Char.ofNat n :: decodeLossy bs := by
  have hlead := lead?_three (k := n / 4096) (by omega)
  have hbits : 64 * (64 * (n / 4096) + n / 64 % 64) + n % 64 = n := by omega
  -- too small would be a longer form than needed, and too large a surrogate
  have hlow : (if n / 4096 = 0 then 0xA0 else 0x80) ≤ 0x80 + n / 64 % 64 := by split <;> omega
  have hhigh : 0x80 + n / 64 % 64 ≤ (if n / 4096 = 13 then 0x9F else 0xBF) := by split <;> omega
  rw [decodeLossy_lead (by omega) (by omega) hlead, readMore_trailing _ (by omega) hlow hhigh,
    readMore_trailing bs (by omega) (by omega) (by omega), readMore_done, hbits]

/-- The four bytes of a character are decoded as it. -/
theorem decodeLossy_four {n : Nat} (h : 0x10000 ≤ n) (h' : n < 0x110000) (bs : List UInt8) :
    decodeLossy (UInt8.ofNat (0xF0 + n / 262144) :: UInt8.ofNat (0x80 + n / 4096 % 64) ::
        UInt8.ofNat (0x80 + n / 64 % 64) :: UInt8.ofNat (0x80 + n % 64) :: bs) =
      Char.ofNat n :: decodeLossy bs := by
  have hlead := lead?_four (k := n / 262144) (by omega)
  have hbits : 64 * (64 * (64 * (n / 262144) + n / 4096 % 64) + n / 64 % 64) + n % 64 = n := by
    omega
  have hlow : (if n / 262144 = 0 then 0x90 else 0x80) ≤ 0x80 + n / 4096 % 64 := by
    split <;> omega
  have hhigh : 0x80 + n / 4096 % 64 ≤ (if n / 262144 = 4 then 0x8F else 0xBF) := by
    split <;> omega
  rw [decodeLossy_lead (by omega) (by omega) hlead, readMore_trailing _ (by omega) hlow hhigh,
    readMore_trailing _ (by omega) (by omega) (by omega),
    readMore_trailing bs (by omega) (by omega) (by omega), readMore_done, hbits]

/-- The bytes of a character are read as the character. -/
theorem decodeLossy_utf8Char (c : Char) (bs : List UInt8) :
    decodeLossy (utf8Char c ++ bs) = c :: decodeLossy bs := by
  have hvalid : c.toNat < 0xD800 ∨ 0xDFFF < c.toNat ∧ c.toNat < 0x110000 := c.valid
  have hc : Char.ofNat c.toNat = c := Char.ofNat_toNat c
  simp only [utf8Char]
  split
  next h =>
    rw [List.singleton_append, decodeLossy, toNat_ofNat (by omega), if_pos h, hc]
  split
  next h h' => exact (decodeLossy_two (by omega) h' bs).trans (by rw [hc])
  split
  next h _ h' => exact (decodeLossy_three (by omega) h' (by omega) bs).trans (by rw [hc])
  next h => exact (decodeLossy_four (by omega) (by omega) bs).trans (by rw [hc])

/-- **The bytes of a text are read as that text.** -/
theorem decodeLossy_utf8 (s : List Char) : decodeLossy (utf8 s) = s := by
  induction s with
  | nil => rw [utf8, List.flatMap_nil, decodeLossy]
  | cons c s ih =>
      have hutf8 : utf8 (c :: s) = utf8Char c ++ utf8 s := List.flatMap_cons
      rw [hutf8, decodeLossy_utf8Char, ih]

end ClusterWatch.Text
