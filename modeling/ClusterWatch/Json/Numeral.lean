import ClusterWatch.Json.Reader

/-!
# Numeral — JSON numerals and the numbers they denote

A numeral is lexed first (`Numeral.read`) and then evaluated (`Numeral.number?`).  A numeral
without fraction and exponent denotes an integer if its digits fit 64 bits; any other denotes a
binary64 number.  That number is not the one nearest to the numeral: it is the leading digits that
fit 64 bits, rounded to binary64, times or divided by a rounded power of ten, and rounded again.
-/

namespace ClusterWatch.Json
open Binary64

/-- The parts of an unsigned numeral: its digits, the digits behind its point, and the sign of its
exponent (true for a minus sign) with the exponent's digits. -/
structure Numeral where
  whole : List Char
  fraction : Option (List Char)
  exponent : Option (Bool × List Char)
  deriving DecidableEq

/-- The number a numeral denotes: a count, a negative integer by its size, or a binary64 number by
its sign and its size. -/
inductive Number
  | count (n : Nat)
  | negative (size : Nat)
  | float (negative : Bool) (size : Rat)
  deriving DecidableEq

namespace Numeral

/-- The digits at the front of a text. -/
def digits (s : List Char) : List Char := s.takeWhile Char.isDigit

/-- What stands behind the digits at the front of a text. -/
def behindDigits (s : List Char) : List Char := s.dropWhile Char.isDigit

/-- The fault of a place where a digit is due; `missing` is the cause at the end of the text. -/
def noDigit (missing : Cause) : List Char → Fault
  | [] => .behind missing []
  | c :: s => .ahead .invalidNumber (c :: s)

/-- Reads at least one digit. -/
def readDigits (missing : Cause) (s : List Char) : Reading (List Char) :=
  if digits s = [] then .error (noDigit missing s) else .ok (digits s, behindDigits s)

/-- Reads the digits before the point: a zero stands alone. -/
def readWhole (missing : Cause) (s : List Char) : Reading (List Char) :=
  match readDigits missing s with
  | .ok ('0' :: _ :: _, _) => .error (.ahead .invalidNumber (s.drop 1))
  | other => other

/-- Reads a fraction if a point stands there. -/
def readFraction (missing : Cause) : List Char → Reading (Option (List Char))
  | '.' :: r =>
    match readDigits missing r with
    | .error e => .error e
    | .ok (ds, r) => .ok (some ds, r)
  | s => .ok (none, s)

/-- Reads the sign of an exponent: true for a minus sign. -/
def readSign : List Char → Bool × List Char
  | '+' :: r => (false, r)
  | '-' :: r => (true, r)
  | s => (false, s)

/-- Reads an exponent if its letter stands there. -/
def readExponent (missing : Cause) : List Char → Reading (Option (Bool × List Char))
  | [] => .ok (none, [])
  | c :: s =>
    if c = 'e' ∨ c = 'E' then
      match readDigits missing (readSign s).2 with
      | .error e => .error e
      | .ok (ds, r) => .ok (some ((readSign s).1, ds), r)
    else .ok (none, c :: s)

/-- Reads an unsigned numeral; `missing` is the cause when the text ends where a digit is due. -/
def read (missing : Cause) (s : List Char) : Reading Numeral :=
  match readWhole missing s with
  | .error e => .error e
  | .ok (whole, s) =>
    match readFraction missing s with
    | .error e => .error e
    | .ok (fraction, s) =>
      match readExponent missing s with
      | .error e => .error e
      | .ok (exponent, s) =>
        .ok (⟨whole, fraction, exponent⟩, s)

/-! ### Evaluation -/

/-- Appends digits to a number while it stays below a limit, and gives the digits left over. -/
def absorb (limit : Nat) (n : Nat) : List Char → Nat × List Char
  | [] => (n, [])
  | c :: ds =>
    if 10 * n + Decimal.digitValue c < limit then absorb limit (10 * n + Decimal.digitValue c) ds
    else (n, c :: ds)

/-- The rounded power of ten. -/
def power (e : Nat) : Rat := nearest (Nat.pow 10 e : Nat)

/-- A binary64 number times a power of ten, or none when the product is not in range.  Below the
smallest power of the format the number is brought there in steps of 10 ^ 308. -/
def shift (x : Rat) (e : Int) : Option Rat :=
  if e.natAbs ≤ 308 then
    if 0 ≤ e then
      let y := nearest (x * power e.natAbs)
      if inRange y then some y else none
    else some (nearest (x / power e.natAbs))
  else if x = 0 then some x
  else if 0 ≤ e then none
  else shift (nearest (x / power 308)) (e + 308)
termination_by e.natAbs

/-- The integer that a numeral without fraction and exponent denotes, if it fits 64 bits. -/
def integer? (x : Numeral) : Option Nat :=
  match x.fraction, x.exponent, absorb (Nat.pow 2 64) 0 x.whole with
  | none, none, (n, []) => some n
  | _, _, _ => none

/-- The leading digits of a numeral that fit 64 bits, and the power of ten that belongs to the last
of them. -/
def significand (x : Numeral) : Nat × Int :=
  let (n, dropped) := absorb (Nat.pow 2 64) 0 x.whole
  let fraction := x.fraction.getD []
  let (m, ignored) := absorb (Nat.pow 2 64) n fraction
  (m, (dropped.length : Int) - ((fraction.length : Int) - ignored.length))

/-- The size of the binary64 number that a numeral denotes.  Out of range, it is the count of the
exponent's digits that were not needed to see that. -/
def size? (x : Numeral) : Except Nat Rat :=
  let (m, places) := x.significand
  let (down, ds) := x.exponent.getD (false, [])
  match absorb (Nat.pow 2 31) 0 ds with
  | (e, []) =>
    match shift (nearest m) (if down then places - e else places + e) with
    | some y => .ok y
    | none => .error 0
  | (_, _ :: unread) => if m = 0 ∨ down then .ok 0 else .error unread.length

/-- The number of a numeral behind its sign.  The integers below zero end at -2 ^ 63, and a zero
behind a minus sign is no integer. -/
def number? (negative : Bool) (x : Numeral) : Except Nat Number :=
  match x.integer? with
  | some n =>
    if ¬negative then .ok (.count n)
    else if 0 < n ∧ n ≤ Nat.pow 2 63 then .ok (.negative n)
    else .ok (.float true (nearest n))
  | none =>
    match x.size? with
    | .ok y => .ok (.float negative y)
    | .error unread => .error unread

/-! ### Each part shortens the text -/

/-- Digits that are read take some of the text. -/
theorem length_readDigits {missing : Cause} {s ds r : List Char}
    (h : readDigits missing s = .ok (ds, r)) : r.length < s.length := by
  unfold readDigits at h
  split at h
  · cases h
  next hd =>
    injection h with h
    injection h with _ h
    subst h
    have hs : (digits s ++ behindDigits s).length = s.length :=
      congrArg List.length List.takeWhile_append_dropWhile
    have := List.length_pos_iff.2 hd
    rw [List.length_append] at hs
    omega

theorem length_readWhole {missing : Cause} {s ds r : List Char}
    (h : readWhole missing s = .ok (ds, r)) : r.length < s.length := by
  unfold readWhole at h
  split at h
  · cases h
  · exact length_readDigits h

theorem length_readFraction_le {missing : Cause} {s r : List Char} {f : Option (List Char)}
    (h : readFraction missing s = .ok (f, r)) : r.length ≤ s.length := by
  unfold readFraction at h
  split at h
  · split at h
    · cases h
    next hd =>
      cases h
      exact Nat.le_succ_of_le (Nat.le_of_lt (length_readDigits hd))
  · cases h; exact Nat.le_refl _

theorem length_readSign_le (s : List Char) : (readSign s).2.length ≤ s.length := by
  unfold readSign
  split
  · exact Nat.le_succ _
  · exact Nat.le_succ _
  · exact Nat.le_refl _

theorem length_readExponent_le {missing : Cause} {s r : List Char}
    {e : Option (Bool × List Char)} (h : readExponent missing s = .ok (e, r)) :
    r.length ≤ s.length := by
  unfold readExponent at h
  split at h
  · cases h; exact Nat.le_refl _
  next c s =>
    split at h
    · split at h
      · cases h
      next hd =>
        cases h
        have := length_readDigits hd
        have := length_readSign_le s
        simp only [List.length_cons]
        omega
    · cases h; exact Nat.le_refl _

/-- A numeral takes some of the text: it has a digit before its point. -/
theorem length_read {missing : Cause} {s r : List Char} {x : Numeral}
    (h : read missing s = .ok (x, r)) : r.length < s.length := by
  unfold read at h
  split at h
  · cases h
  next hw =>
    split at h
    · cases h
    next hf =>
      split at h
      · cases h
      next he =>
        cases h
        have := length_readWhole hw
        have := length_readFraction_le hf
        have := length_readExponent_le he
        omega

end Numeral

/-- A text without a minus sign at its front. -/
def unsigned (s : List Char) : List Char := if s.head? = some '-' then s.tail else s

theorem length_unsigned_le (s : List Char) : (unsigned s).length ≤ s.length := by
  unfold unsigned
  split
  · rw [List.length_tail]; omega
  · exact Nat.le_refl _

/-- Reads a number, from its sign on. -/
def readNumber (s : List Char) : Reading Number :=
  match Numeral.read .endInValue (unsigned s) with
  | .error e => .error e
  | .ok (x, r) =>
    match x.number? (s.head? = some '-') with
    | .ok n => .ok (n, r)
    | .error unread => .error ⟨.numberOutOfRange, Text.byteLength r + unread⟩

/-- Passes over a number, from its sign on; its digits are checked, its size is not. -/
def skipNumber (s : List Char) : Except Fault (List Char) :=
  match Numeral.read .invalidNumber (unsigned s) with
  | .error e => .error e
  | .ok (_, r) => .ok r

/-- A number takes some of the text. -/
theorem length_readNumber {s r : List Char} {n : Number} (h : readNumber s = .ok (n, r)) :
    r.length < s.length := by
  unfold readNumber at h
  split at h
  · cases h
  next hx =>
    split at h
    · cases h
      have := Numeral.length_read hx
      have := length_unsigned_le s
      omega
    · cases h

/-- A number that is passed over takes some of the text. -/
theorem length_skipNumber {s r : List Char} (h : skipNumber s = .ok r) :
    r.length < s.length := by
  unfold skipNumber at h
  split at h
  · cases h
  next hx =>
    cases h
    have := Numeral.length_read hx
    have := length_unsigned_le s
    omega

end ClusterWatch.Json
