/-!
# Blank — white space at the ends of a text

`isBlank` is the Unicode property White_Space: 25 code points, and neither U+200B nor U+FEFF.
Trimming removes the longest run of blanks at one end or at both.
-/

namespace ClusterWatch.Text

/-- The Unicode property White_Space. -/
def isBlank (c : Char) : Bool :=
  let n := c.toNat
  (0x09 ≤ n && n ≤ 0x0D) || n == 0x20 || n == 0x85 || n == 0xA0 || n == 0x1680 ||
    (0x2000 ≤ n && n ≤ 0x200A) || n == 0x2028 || n == 0x2029 || n == 0x202F || n == 0x205F ||
    n == 0x3000

/-- A text without the blanks at its start. -/
def trimStart (s : List Char) : List Char := s.dropWhile isBlank

/-- A text without the blanks at its end. -/
def trimEnd (s : List Char) : List Char := (s.reverse.dropWhile isBlank).reverse

/-- A text without the blanks at both ends. -/
def trim (s : List Char) : List Char := trimEnd (trimStart s)

/-- What stands behind `p` in a text that begins with `p`. -/
def after? (p s : List Char) : Option (List Char) :=
  match p, s with
  | [], s => some s
  | _ :: _, [] => none
  | a :: p, b :: s => if a = b then after? p s else none

/-- What stands before `c` in a text that ends with `c`. -/
def before? (c : Char) (s : List Char) : Option (List Char) :=
  if s.getLast? = some c then some s.dropLast else none

/-- A text begins with `p` just when it is `p` and what stands behind it. -/
theorem after?_eq_some_iff {p s r : List Char} : after? p s = some r ↔ s = p ++ r := by
  fun_induction after? p s with
  | case1 s => simp
  | case2 => simp
  | case3 p a s ih => simp [ih]
  | case4 a p b s h => simp [Ne.symm h]

/-- A text ends with `c` just when it is what stands before it, and `c`. -/
theorem before?_eq_some_iff {c : Char} {s r : List Char} : before? c s = some r ↔ s = r ++ [c] := by
  rw [before?]
  constructor
  · intro h
    split at h
    · next hc =>
      obtain ⟨t, rfl⟩ := List.getLast?_eq_some_iff.1 hc
      simpa using h
    · cases h
  · rintro rfl
    simp

/-- The bytes of a text in UTF-8. -/
def byteLength : List Char → Nat
  | [] => 0
  | c :: s => c.utf8Size + byteLength s

end ClusterWatch.Text
