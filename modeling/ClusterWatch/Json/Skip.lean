import ClusterWatch.Json.WrongKind

/-!
# Skip — passing over a value of any kind

A value that nobody asked for is checked for syntax and passed over.  The containers that are open
around the current place are kept in a list, so nesting may be of any depth: `skipValue` passes
over a value and what follows it up to the end of the outermost container, `skipNext` continues
behind a value.
-/

namespace ClusterWatch.Json

/-- A container that has been opened and not closed. -/
inductive Container
  | list
  | object
  deriving DecidableEq, Repr

namespace Container

/-- The bracket that closes a container. -/
def closing : Container → Char
  | list => ']'
  | object => '}'

/-- The cause when the text ends inside a container. -/
def atEnd : Container → Cause
  | list => .endInList
  | object => .endInObject

/-- The cause when neither a comma nor the closing bracket stands behind an element. -/
def unfinished : Container → Cause
  | list => .expectedListEnd
  | object => .expectedObjectEnd

end Container

/-- Takes the colon behind a key, and the blanks before it, off the front of a text. -/
def readColon (s : List Char) : Except Fault (List Char) :=
  match skipSpace s with
  | [] => .error (.ahead .endInObject [])
  | c :: r => if c = ':' then .ok r else .error (.ahead .expectedColon (c :: r))

/-- Passes over a key and its colon. -/
def skipKey (s : List Char) : Except Fault (List Char) :=
  match skipSpace s with
  | [] => .error (.ahead .endInObject [])
  | c :: r =>
    if c = '"' then
      match skipString r with
      | .error e => .error e
      | .ok r => readColon r
    else .error (.ahead .keyNotText (c :: r))

/-- Passes over what precedes an element's value inside a container: a key, or nothing. -/
def skipEntry : Container → List Char → Except Fault (List Char)
  | .list, s => .ok s
  | .object, s => skipKey s

/-- What stands where a value is due. -/
inductive Token
  | scalar (rest : List Char)
  | opens (container : Container) (rest : List Char)

/-- Passes over a scalar, or over the bracket that opens a container. -/
def skipToken (s : List Char) : Except Fault Token :=
  match skipSpace s with
  | [] => .error (.ahead .endInValue [])
  | c :: r =>
    if c = 'n' then (word ['u', 'l', 'l'] r).map .scalar
    else if c = 't' then (word ['r', 'u', 'e'] r).map .scalar
    else if c = 'f' then (word ['a', 'l', 's', 'e'] r).map .scalar
    else if startsNumber c then (skipNumber (c :: r)).map .scalar
    else if c = '"' then (skipString r).map .scalar
    else if c = '[' then .ok (.opens .list r)
    else if c = '{' then .ok (.opens .object r)
    else .error (.ahead .expectedValue (c :: r))

/-! ### Each token shortens the text -/

theorem length_readColon {s r : List Char} (h : readColon s = .ok r) : r.length < s.length := by
  unfold readColon at h
  split at h
  · cases h
  next hs =>
    split at h
    · cases h; exact length_lt_of_skipSpace hs
    · cases h

/-- A key takes some of the text. -/
theorem length_skipKey {s r : List Char} (h : skipKey s = .ok r) : r.length < s.length := by
  unfold skipKey at h
  split at h
  · cases h
  next hs =>
    have := length_lt_of_skipSpace hs
    split at h
    · split at h
      · cases h
      next hk =>
        have := length_skipString hk
        have := length_readColon h
        omega
    · cases h

theorem length_skipEntry_le {c : Container} {s r : List Char} (h : skipEntry c s = .ok r) :
    r.length ≤ s.length := by
  cases c with
  | list => cases h; exact Nat.le_refl _
  | object => exact Nat.le_of_lt (length_skipKey h)

/-- What a token leaves. -/
def Token.rest : Token → List Char
  | scalar r => r
  | opens _ r => r

/-- What a value begins with takes some of the text. -/
theorem length_rest_of_skipToken {s : List Char} {t : Token} (h : skipToken s = .ok t) :
    t.rest.length < s.length := by
  have scalar : ∀ {p : Except Fault (List Char)} {n : Nat},
      (∀ r, p = .ok r → r.length < n) → p.map Token.scalar = .ok t → t.rest.length < n := by
    intro p n hp ht
    cases p with
    | error e => cases ht
    | ok r => cases ht; exact hp r rfl
  unfold skipToken at h
  split at h
  · cases h
  next c r hs =>
    have hr := length_lt_of_skipSpace hs
    have hc : (c :: r).length ≤ s.length := hr
    split at h
    · exact scalar (fun _ hw => Nat.lt_of_le_of_lt (length_word_le hw) hr) h
    split at h
    · exact scalar (fun _ hw => Nat.lt_of_le_of_lt (length_word_le hw) hr) h
    split at h
    · exact scalar (fun _ hw => Nat.lt_of_le_of_lt (length_word_le hw) hr) h
    split at h
    · exact scalar (fun _ hn => Nat.lt_of_lt_of_le (length_skipNumber hn) hc) h
    split at h
    · exact scalar (fun _ hq => Nat.lt_trans (length_skipString hq) hr) h
    split at h
    · cases h; exact hr
    split at h
    · cases h; exact hr
    · cases h

/-! ### Values -/

mutual

/-- Passes over a value inside the containers `around`, and over the rest of these. -/
def skipValue (around : List Container) (s : List Char) : Except Fault (List Char) :=
  match _h : skipToken s with
  | .error e => .error e
  | .ok (.scalar r) => skipNext around r
  | .ok (.opens container r) =>
    match _hr : skipSpace r with
    | [] => .error (.ahead container.atEnd [])
    | c :: r' =>
      if c = container.closing then skipNext around r'
      else
        match _he : skipEntry container (c :: r') with
        | .error e => .error e
        | .ok r'' => skipValue (container :: around) r''
termination_by s.length
decreasing_by
  · have := length_rest_of_skipToken _h; exact this
  · have := length_rest_of_skipToken _h
    have := length_lt_of_skipSpace _hr
    simp only [Token.rest] at *; omega
  · have := length_rest_of_skipToken _h
    have := length_lt_of_skipSpace _hr
    have := length_skipEntry_le _he
    simp only [Token.rest, List.length_cons] at *; omega

/-- Passes over what follows a value inside the containers `around`, up to their end. -/
def skipNext (around : List Container) (s : List Char) : Except Fault (List Char) :=
  match around with
  | [] => .ok s
  | container :: outer =>
    match _hs : skipSpace s with
    | [] => .error (.ahead container.atEnd [])
    | c :: r =>
      if c = ',' then
        match _he : skipEntry container r with
        | .error e => .error e
        | .ok r' => skipValue (container :: outer) r'
      else if c = container.closing then skipNext outer r
      else .error (.ahead container.unfinished (c :: r))
termination_by s.length
decreasing_by
  · have := length_lt_of_skipSpace _hs
    have := length_skipEntry_le _he
    omega
  · exact length_lt_of_skipSpace _hs

end

/-- A skipped value, and what is skipped with it, takes at least one character. -/
theorem length_skip_le (n : Nat) : ∀ (s : List Char), s.length ≤ n → ∀ (around : List Container)
    (r : List Char), (skipValue around s = .ok r → r.length < s.length) ∧
      (skipNext around s = .ok r → r.length ≤ s.length) := by
  induction n with
  | zero =>
    intro s hs around r
    have hs : s = [] := List.length_eq_zero_iff.1 (Nat.le_zero.1 hs)
    subst hs
    refine ⟨fun h => ?_, fun h => ?_⟩
    · rw [skipValue] at h
      simp [skipToken, skipSpace] at h
    · cases around with
      | nil => rw [skipNext] at h; cases h; exact Nat.le_refl _
      | cons => rw [skipNext] at h; simp [skipSpace] at h
  | succ n ih =>
    intro s hs around r
    refine ⟨fun h => ?_, fun h => ?_⟩
    · rw [skipValue] at h
      split at h
      · cases h
      next r₁ ht =>
        have := length_rest_of_skipToken ht
        simp only [Token.rest] at this
        have := (ih r₁ (by omega) around r).2 h
        omega
      next container r₁ ht =>
        have := length_rest_of_skipToken ht
        simp only [Token.rest] at this
        split at h
        · cases h
        next c r₂ hr =>
          have hr := length_lt_of_skipSpace hr
          split at h
          · have := (ih r₂ (by omega) around r).2 h
            omega
          · split at h
            · cases h
            next r₃ he =>
              have he := length_skipEntry_le he
              rw [List.length_cons] at he
              have := (ih r₃ (by omega) _ r).1 h
              omega
    · rw [skipNext.eq_def] at h
      split at h
      · cases h; exact Nat.le_refl _
      next container outer =>
        split at h
        · cases h
        next c r₁ hr =>
          have hr := length_lt_of_skipSpace hr
          split at h
          · split at h
            · cases h
            next r₂ he =>
              have he := length_skipEntry_le he
              have := (ih r₂ (by omega) _ r).1 h
              omega
          · split at h
            · have := (ih r₁ (by omega) _ r).2 h
              omega
            · cases h

/-- A value that is passed over takes some of the text. -/
theorem length_skipValue {around : List Container} {s r : List Char}
    (h : skipValue around s = .ok r) : r.length < s.length :=
  (length_skip_le s.length s (Nat.le_refl _) around r).1 h

end ClusterWatch.Json
