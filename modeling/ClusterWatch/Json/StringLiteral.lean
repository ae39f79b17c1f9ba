import ClusterWatch.Json.Reader

/-!
# StringLiteral — the inside of a quoted string

Behind its opening quote a string literal is a run of pieces, each one character written raw or as
an escape, and ends with a quote.  `readString` gives the characters; `skipString` only passes over
the literal, and accepts more: a skipped `\u` escape needs four hexadecimal digits and nothing
else, while one that is read must be a character or one half of a proper surrogate pair.
-/

namespace ClusterWatch.Json

/-- The value of four hexadecimal digits. -/
def hexUnit? (a b c d : Char) : Option Nat := do
  pure (4096 * (← Text.hexValue? a) + 256 * (← Text.hexValue? b) + 16 * (← Text.hexValue? c) +
    (← Text.hexValue? d))

/-- The fault of an escape that four hexadecimal digits should complete: there are not four bytes
left, or the four bytes are no digits. -/
def hexFault (s : List Char) : Fault :=
  if Text.byteLength s < 4 then .behind .endInText []
  else ⟨.invalidEscape, Text.byteLength s - 4⟩

/-- Reads four hexadecimal digits. -/
def readUnit : List Char → Reading Nat
  | a :: b :: c :: d :: r =>
    match hexUnit? a b c d with
    | some n => .ok (n, r)
    | none => .error (hexFault (a :: b :: c :: d :: r))
  | s => .error (hexFault s)

/-- The escapes of one letter, and what they stand for. -/
def letterEscapes : List (Char × Char) :=
  [('"', '"'), ('\\', '\\'), ('/', '/'), ('b', '\x08'), ('f', '\x0c'), ('n', '\n'), ('r', '\r'),
    ('t', '\t')]

/-- Whether a number is the first half of a surrogate pair. -/
def isHighSurrogate (n : Nat) : Bool := 0xD800 ≤ n && n ≤ 0xDBFF

/-- Whether a number is the second half of a surrogate pair. -/
def isLowSurrogate (n : Nat) : Bool := 0xDC00 ≤ n && n ≤ 0xDFFF

/-- The character of a surrogate pair. -/
def pairChar (high low : Nat) : Char :=
  Char.ofNat (0x10000 + (high - 0xD800) * 1024 + (low - 0xDC00))

/-- Takes a character of an escape's second half off the front of a text. -/
def expectHalf (x : Char) : List Char → Except Fault (List Char)
  | [] => .error (.behind .endInText [])
  | c :: r => if c = x then .ok r else .error (.ahead .unfinishedEscape (c :: r))

/-- Reads the second half of a surrogate pair, from its backslash on. -/
def readLowHalf (high : Nat) (s : List Char) : Reading Char :=
  match expectHalf '\\' s with
  | .error e => .error e
  | .ok s =>
    match expectHalf 'u' s with
    | .error e => .error e
    | .ok s =>
      match readUnit s with
      | .error e => .error e
      | .ok (low, r) =>
        if isLowSurrogate low then .ok (pairChar high low, r)
        else .error (.behind .loneSurrogate r)

/-- Reads an escape behind its `\u`. -/
def readUnicode (s : List Char) : Reading Char :=
  match readUnit s with
  | .error e => .error e
  | .ok (n, r) =>
    if isLowSurrogate n then .error (.behind .loneSurrogate r)
    else if isHighSurrogate n then readLowHalf n r
    else .ok (Char.ofNat n, r)

/-- Reads an escape behind its backslash. -/
def readEscape : List Char → Reading Char
  | [] => .error (.behind .endInText [])
  | c :: r =>
    if c = 'u' then readUnicode r
    else match letterEscapes.lookup c with
      | some x => .ok (x, r)
      | none => .error (.ahead .invalidEscape (c :: r))

/-- Reads one piece of a string literal; none when the piece is the closing quote. -/
def readPiece : List Char → Reading (Option Char)
  | [] => .error (.behind .endInText [])
  | c :: r =>
    if c = '"' then .ok (none, r)
    else if c = '\\' then
      match readEscape r with
      | .error e => .error e
      | .ok (x, r) => .ok (some x, r)
    else if c.toNat < 0x20 then .error (.ahead .controlCharacter (c :: r))
    else .ok (some c, r)

/-- Passes over one piece of a string literal and says whether it was the closing quote. -/
def skipPiece : List Char → Reading Bool
  | [] => .error (.behind .endInText [])
  | c :: r =>
    if c = '"' then .ok (true, r)
    else if c = '\\' then
      match r with
      | [] => .error (.behind .endInText [])
      | e :: r =>
        if e = 'u' then
          match readUnit r with
          | .error e => .error e
          | .ok (_, r) => .ok (false, r)
        else match letterEscapes.lookup e with
          | some _ => .ok (false, r)
          | none => .error (.ahead .invalidEscape (e :: r))
    else if c.toNat < 0x20 then .error (.behind .controlCharacter (c :: r))
    else .ok (false, r)

/-! ### Each piece shortens the text -/

theorem length_readUnit {s r : List Char} {n : Nat} (h : readUnit s = .ok (n, r)) :
    r.length < s.length := by
  unfold readUnit at h
  split at h
  · split at h
    · cases h; simp only [List.length_cons]; omega
    · cases h
  · cases h

theorem length_expectHalf {x : Char} {s r : List Char} (h : expectHalf x s = .ok r) :
    r.length < s.length := by
  unfold expectHalf at h
  split at h
  · cases h
  · split at h
    · cases h; exact Nat.lt_succ_self _
    · cases h

theorem length_readLowHalf {high : Nat} {s r : List Char} {c : Char}
    (h : readLowHalf high s = .ok (c, r)) : r.length < s.length := by
  unfold readLowHalf at h
  split at h
  · cases h
  next h₁ =>
    split at h
    · cases h
    next h₂ =>
      split at h
      · cases h
      next h₃ =>
        split at h
        · injection h with h
          injection h with _ h
          subst h
          have := length_expectHalf h₁
          have := length_expectHalf h₂
          have := length_readUnit h₃
          omega
        · cases h

theorem length_readUnicode {s r : List Char} {c : Char} (h : readUnicode s = .ok (c, r)) :
    r.length < s.length := by
  unfold readUnicode at h
  split at h
  · cases h
  next n r' hu =>
    have := length_readUnit hu
    split at h
    · cases h
    · split at h
      · have := length_readLowHalf h; omega
      · cases h; exact this

/-- An escape takes some of the text. -/
theorem length_readEscape {s r : List Char} {c : Char} (h : readEscape s = .ok (c, r)) :
    r.length < s.length := by
  unfold readEscape at h
  split at h
  · cases h
  · split at h
    · exact Nat.lt_succ_of_lt (length_readUnicode h)
    · split at h
      · cases h; exact Nat.lt_succ_self _
      · cases h

/-- A piece takes some of the text, so the pieces of a literal come to an end. -/
theorem length_readPiece {s r : List Char} {c : Option Char} (h : readPiece s = .ok (c, r)) :
    r.length < s.length := by
  unfold readPiece at h
  split at h
  · cases h
  · split at h
    · cases h; exact Nat.lt_succ_self _
    · split at h
      · split at h
        · cases h
        next he => cases h; exact Nat.lt_succ_of_lt (length_readEscape he)
      · split at h
        · cases h
        · cases h; exact Nat.lt_succ_self _

/-- A piece that is passed over takes some of the text. -/
theorem length_skipPiece {s r : List Char} {b : Bool} (h : skipPiece s = .ok (b, r)) :
    r.length < s.length := by
  unfold skipPiece at h
  split at h
  · cases h
  · split at h
    · cases h; exact Nat.lt_succ_self _
    · split at h
      · split at h
        · cases h
        · split at h
          · split at h
            · cases h
            next hu =>
              cases h
              have := length_readUnit hu
              simp only [List.length_cons]; omega
          · split at h
            · cases h; simp only [List.length_cons]; omega
            · cases h
      · split at h
        · cases h
        · cases h; exact Nat.lt_succ_self _

/-! ### Whole literals -/

/-- Reads a string literal behind its opening quote, the closing quote included. -/
def readString (s : List Char) : Reading (List Char) :=
  match _h : readPiece s with
  | .error e => .error e
  | .ok (none, r) => .ok ([], r)
  | .ok (some c, r) =>
    match readString r with
    | .error e => .error e
    | .ok (t, r) => .ok (c :: t, r)
termination_by s.length
decreasing_by exact length_readPiece ‹_›

/-- Passes over a string literal behind its opening quote, the closing quote included. -/
def skipString (s : List Char) : Except Fault (List Char) :=
  match _h : skipPiece s with
  | .error e => .error e
  | .ok (true, r) => .ok r
  | .ok (false, r) => skipString r
termination_by s.length
decreasing_by exact length_skipPiece ‹_›

/-- A string literal takes at least its closing quote. -/
theorem length_readString {s r t : List Char} (h : readString s = .ok (t, r)) :
    r.length < s.length := by
  fun_induction readString s generalizing t with
  | case1 => cases h
  | case2 s r' hp => cases h; exact length_readPiece hp
  | case3 => cases h
  | case4 s c r₁ hp u r₂ hr ih =>
    cases h
    have := length_readPiece hp
    have := ih hr
    omega

/-- A string literal that is passed over takes at least its closing quote. -/
theorem length_skipString {s r : List Char} (h : skipString s = .ok r) : r.length < s.length := by
  fun_induction skipString s with
  | case1 => cases h
  | case2 s r' hp => cases h; exact length_skipPiece hp
  | case3 s r' hp ih =>
    have := length_skipPiece hp
    have := ih h
    omega

end ClusterWatch.Json
