/-!
# Utf8 — texts as bytes

`utf8` writes a text as bytes and `decodeLossy` reads bytes as a text.  Bytes that are no text are
read as replacement characters: one for every byte that cannot begin a character, and one for every
character that is broken off, whose bytes so far are taken together.
-/

namespace ClusterWatch.Text

/-- The bytes of a character. -/
def utf8Char (c : Char) : List UInt8 :=
  let n := c.toNat
  if n < 0x80 then [UInt8.ofNat n]
  else if n < 0x800 then [UInt8.ofNat (0xC0 + n / 64), UInt8.ofNat (0x80 + n % 64)]
  else if n < 0x10000 then
    [UInt8.ofNat (0xE0 + n / 4096), UInt8.ofNat (0x80 + n / 64 % 64), UInt8.ofNat (0x80 + n % 64)]
  else
    [UInt8.ofNat (0xF0 + n / 262144), UInt8.ofNat (0x80 + n / 4096 % 64),
      UInt8.ofNat (0x80 + n / 64 % 64), UInt8.ofNat (0x80 + n % 64)]

/-- The bytes of a text. -/
def utf8 (s : List Char) : List UInt8 := s.flatMap utf8Char

/-- The character that stands for bytes that are no text. -/
def replacement : Char := Char.ofNat 0xFFFD

/-- What the first byte of a character of several bytes says: how many bytes follow, between which
bounds the first of them lies, and the leading bits of the code point. -/
structure Lead where
  more : Nat
  low : Nat
  high : Nat
  bits : Nat
  deriving DecidableEq, Repr

/-- The reading of a byte as the first of several.  The bounds exclude longer forms than needed,
surrogates, and code points that are too large. -/
def lead? (b : Nat) : Option Lead :=
  if 0xC2 ≤ b ∧ b ≤ 0xDF then some ⟨1, 0x80, 0xBF, b - 0xC0⟩
  else if b = 0xE0 then some ⟨2, 0xA0, 0xBF, 0⟩
  else if b = 0xED then some ⟨2, 0x80, 0x9F, 0xD⟩
  else if 0xE1 ≤ b ∧ b ≤ 0xEF then some ⟨2, 0x80, 0xBF, b - 0xE0⟩
  else if b = 0xF0 then some ⟨3, 0x90, 0xBF, 0⟩
  else if 0xF1 ≤ b ∧ b ≤ 0xF3 then some ⟨3, 0x80, 0xBF, b - 0xF0⟩
  else if b = 0xF4 then some ⟨3, 0x80, 0x8F, 4⟩
  else none

/-- Reads the bytes that follow the first byte of a character: the character, or the replacement if
it is broken off, and the bytes behind it. -/
def readMore (more low high bits : Nat) (bs : List UInt8) : Char × List UInt8 :=
  match more, bs with
  | 0, bs => (Char.ofNat bits, bs)
  | _ + 1, [] => (replacement, [])
  | more + 1, b :: bs =>
    if low ≤ b.toNat ∧ b.toNat ≤ high then
      readMore more 0x80 0xBF (64 * bits + (b.toNat - 0x80)) bs
    else (replacement, b :: bs)

theorem length_readMore_le (more low high bits : Nat) (bs : List UInt8) :
    (readMore more low high bits bs).2.length ≤ bs.length := by
  fun_induction readMore more low high bits bs with
  | case1 => exact Nat.le_refl _
  | case2 => exact Nat.le_refl _
  | case3 _ _ _ _ _ _ _ ih => exact Nat.le_succ_of_le ih
  | case4 => exact Nat.le_refl _

/-- The text of bytes, with replacements for what is no text. -/
def decodeLossy : List UInt8 → List Char
  | [] => []
  | b :: bs =>
    if b.toNat < 0x80 then Char.ofNat b.toNat :: decodeLossy bs
    else match lead? b.toNat with
      | none => replacement :: decodeLossy bs
      | some l =>
        (readMore l.more l.low l.high l.bits bs).1 ::
          decodeLossy (readMore l.more l.low l.high l.bits bs).2
termination_by bs => bs.length
decreasing_by
  · exact Nat.lt_succ_self _
  · exact Nat.lt_succ_self _
  · exact Nat.lt_succ_of_le (length_readMore_le ..)

end ClusterWatch.Text
