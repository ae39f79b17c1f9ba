import ClusterWatch.Proofs.Json.Reads

/-!
# String literals — what the readers of strings take

Each piece of a literal is a character written raw or as an escape, and `readPiece` takes exactly
the pieces of `IsPiece` (`readPiece_sound`, `readPiece_complete`); so `readString` takes what spells
its characters, up to the closing quote (`readString_eq_ok_iff`), and `skipString` what is a string
at all (`skipString_eq_ok_iff`).  `text_reads` is the reader of texts.
-/

namespace ClusterWatch.Json

/-! ### Escapes -/

/-- Each letter has one escape, and `u` has none of these. -/
theorem lookup_letterEscapes :
    ∀ p ∈ letterEscapes, letterEscapes.lookup p.1 = some p.2 ∧ p.1 ≠ 'u' := by
  decide

/-- To look an escape up is to find it in the table. -/
theorem lookup_letterEscapes_eq_some_iff {e c : Char} :
    letterEscapes.lookup e = some c ↔ (e, c) ∈ letterEscapes := by
  constructor
  · intro h
    obtain ⟨l, l', hl, -⟩ := List.lookup_eq_some_iff.1 h
    rw [hl]
    exact List.mem_append_right l List.mem_cons_self
  · exact fun h => (lookup_letterEscapes _ h).1

/-- Four hexadecimal digits are read as their value, and nothing else is. -/
theorem readUnit_eq_ok_iff {s r : List Char} {n : Nat} :
    readUnit s = .ok (n, r) ↔
      ∃ x₁ x₂ x₃ x₄, s = x₁ :: x₂ :: x₃ :: x₄ :: r ∧ hexUnit? x₁ x₂ x₃ x₄ = some n := by
  constructor
  · intro h
    simp only [readUnit] at h
    split at h
    next x₁ x₂ x₃ x₄ r' =>
      split at h
      next m hm =>
        cases h
        exact ⟨x₁, x₂, x₃, x₄, rfl, hm⟩
      next => cases h
    next => cases h
  · rintro ⟨x₁, x₂, x₃, x₄, rfl, hn⟩
    rw [readUnit, hn]

theorem expectHalf_eq_ok_iff {x : Char} {s r : List Char} :
    expectHalf x s = .ok r ↔ s = x :: r := by
  cases s with
  | nil => simp [expectHalf]
  | cons c s =>
      by_cases h : c = x
      · simp [expectHalf, h]
      · simp [expectHalf, h]

/-- The second half of a pair is the escape of a low surrogate; it completes the character. -/
theorem readLowHalf_eq_ok_iff {high : Nat} {s r : List Char} {c : Char} :
    readLowHalf high s = .ok (c, r) ↔
      ∃ y₁ y₂ y₃ y₄ low, s = '\\' :: 'u' :: y₁ :: y₂ :: y₃ :: y₄ :: r ∧
        hexUnit? y₁ y₂ y₃ y₄ = some low ∧ isLowSurrogate low = true ∧ c = pairChar high low := by
  constructor
  · intro h
    simp only [readLowHalf] at h
    split at h
    · cases h
    next s₁ h₁ =>
      split at h
      · cases h
      next s₂ h₂ =>
        split at h
        · cases h
        next low s₃ h₃ =>
          split at h
          next hlow =>
            obtain ⟨rfl, rfl⟩ := Prod.mk.inj (Except.ok.inj h)
            obtain ⟨y₁, y₂, y₃, y₄, rfl, hhex⟩ := readUnit_eq_ok_iff.1 h₃
            obtain rfl := expectHalf_eq_ok_iff.1 h₂
            obtain rfl := expectHalf_eq_ok_iff.1 h₁
            exact ⟨y₁, y₂, y₃, y₄, low, rfl, hhex, hlow, rfl⟩
          next => cases h
  · rintro ⟨y₁, y₂, y₃, y₄, low, rfl, hhex, hlow, hc⟩
    rw [hc, readLowHalf]
    simp only [expectHalf, if_true, readUnit_eq_ok_iff.2 ⟨y₁, y₂, y₃, y₄, rfl, hhex⟩, hlow]

/-! ### Pieces that are read -/

/-- What is read as an escape spells the character that it gives. -/
theorem readEscape_sound {s r : List Char} {c : Char} (h : readEscape s = .ok (c, r)) :
    ∃ p, s = p ++ r ∧ IsPiece c ('\\' :: p) := by
  simp only [readEscape] at h
  split at h
  · cases h
  next e s' =>
    split at h
    next he =>
      subst he
      simp only [readUnicode] at h
      split at h
      · cases h
      next n r' hn =>
        obtain ⟨x₁, x₂, x₃, x₄, rfl, hhex⟩ := readUnit_eq_ok_iff.1 hn
        split at h
        · cases h
        next hlow =>
          split at h
          next hhigh =>
            -- the first half of a pair: the second must follow
            obtain ⟨y₁, y₂, y₃, y₄, m, rfl, hm, hmlow, hc⟩ := readLowHalf_eq_ok_iff.1 h
            rw [hc]
            exact ⟨['u', x₁, x₂, x₃, x₄, '\\', 'u', y₁, y₂, y₃, y₄], rfl,
              .pair hhex hhigh hm hmlow⟩
          next hhigh =>
            obtain ⟨rfl, rfl⟩ := Prod.mk.inj (Except.ok.inj h)
            exact ⟨['u', x₁, x₂, x₃, x₄], rfl,
              .unit hhex (Bool.eq_false_iff.2 hhigh) (Bool.eq_false_iff.2 hlow)⟩
    next =>
      split at h
      next x hx =>
        cases h
        exact ⟨[e], rfl, .letter (lookup_letterEscapes_eq_some_iff.1 hx)⟩
      next => cases h

/-- What is read as a piece is the closing quote, or spells the character that it gives. -/
theorem readPiece_sound {s r : List Char} {c : Option Char} (h : readPiece s = .ok (c, r)) :
    c = none ∧ s = '"' :: r ∨ ∃ d p, c = some d ∧ s = p ++ r ∧ IsPiece d p := by
  simp only [readPiece] at h
  split at h
  · cases h
  next d s' =>
    split at h
    next hd =>
      cases h
      exact .inl ⟨rfl, by rw [hd]⟩
    next hq =>
      split at h
      next hd =>
        split at h
        · cases h
        next x r' hx =>
          cases h
          obtain ⟨p, rfl, hp⟩ := readEscape_sound hx
          exact .inr ⟨x, '\\' :: p, rfl, by rw [hd]; rfl, hp⟩
      next hb =>
        split at h
        · cases h
        next hc =>
          cases h
          exact .inr ⟨d, [d], rfl, rfl, .raw hq hb (Nat.le_of_not_lt hc)⟩

theorem not_isHighSurrogate {n : Nat} (h : isHighSurrogate n = true) :
    isLowSurrogate n = false := by
  simp only [isHighSurrogate, isLowSurrogate, Bool.and_eq_true, decide_eq_true_eq,
    Bool.and_eq_false_iff, decide_eq_false_iff_not] at h ⊢
  omega

/-- A piece is read as the character that it spells. -/
theorem readPiece_complete {c : Char} {p : List Char} (hp : IsPiece c p) (r : List Char) :
    readPiece (p ++ r) = .ok (some c, r) := by
  cases hp with
  | raw hq hb hc =>
      rw [List.singleton_append, readPiece, if_neg hq, if_neg hb, if_neg (Nat.not_lt.2 hc)]
  | letter h =>
      obtain ⟨hlookup, hu⟩ := lookup_letterEscapes _ h
      simp [readPiece, readEscape, hlookup, hu]
  | @unit x₁ x₂ x₃ x₄ n hn hhigh hlow =>
      have hunit : readUnit (x₁ :: x₂ :: x₃ :: x₄ :: r) = .ok (n, r) :=
        readUnit_eq_ok_iff.2 ⟨x₁, x₂, x₃, x₄, rfl, hn⟩
      simp [readPiece, readEscape, readUnicode, hunit, hhigh, hlow]
  | @pair x₁ x₂ x₃ x₄ y₁ y₂ y₃ y₄ n m hn hhigh hm hlow =>
      have hunit : readUnit (x₁ :: x₂ :: x₃ :: x₄ :: '\\' :: 'u' :: y₁ :: y₂ :: y₃ :: y₄ :: r) =
          .ok (n, '\\' :: 'u' :: y₁ :: y₂ :: y₃ :: y₄ :: r) :=
        readUnit_eq_ok_iff.2 ⟨x₁, x₂, x₃, x₄, rfl, hn⟩
      have hhalf : readLowHalf n ('\\' :: 'u' :: y₁ :: y₂ :: y₃ :: y₄ :: r) =
          .ok (pairChar n m, r) :=
        readLowHalf_eq_ok_iff.2 ⟨y₁, y₂, y₃, y₄, m, rfl, hm, hlow, rfl⟩
      simp [readPiece, readEscape, readUnicode, hunit, hhigh, not_isHighSurrogate hhigh, hhalf]

/-- A string that is read, behind its opening quote. -/
theorem readString_eq_ok_iff {s t r : List Char} :
    readString s = .ok (t, r) ↔ ∃ k, s = k ++ '"' :: r ∧ Spells t k := by
  constructor
  · intro h
    fun_induction readString s generalizing t with
    | case1 => cases h
    | case2 s r' hp =>
        cases h
        obtain ⟨-, hs⟩ | ⟨d, p, hd, -⟩ := readPiece_sound hp
        · exact ⟨[], hs, .nil⟩
        · cases hd
    | case3 => cases h
    | case4 s c r₁ hp u r₂ hr ih =>
        cases h
        obtain ⟨hc, -⟩ | ⟨d, p, hd, rfl, hpiece⟩ := readPiece_sound hp
        · cases hc
        · obtain rfl : c = d := Option.some.inj hd
          obtain ⟨k, rfl, hk⟩ := ih hr
          exact ⟨p ++ k, (List.append_assoc _ _ _).symm, .cons hpiece hk⟩
  · rintro ⟨k, rfl, hk⟩
    induction hk with
    | nil =>
        rw [readString]
        split
        all_goals simp_all [readPiece]
    | cons hp _ ih =>
        have hpiece := readPiece_complete hp
        rw [readString, List.append_assoc]
        split
        all_goals simp_all

/-! ### Pieces that are skipped -/

/-- What is passed over as a piece is the closing quote or a piece of some string. -/
theorem skipPiece_sound {s r : List Char} {b : Bool} (h : skipPiece s = .ok (b, r)) :
    b = true ∧ s = '"' :: r ∨ b = false ∧ ∃ p, s = p ++ r ∧ IsLoosePiece p := by
  simp only [skipPiece] at h
  split at h
  · cases h
  next d s' =>
    split at h
    next hd =>
      cases h
      exact .inl ⟨rfl, by rw [hd]⟩
    next hq =>
      split at h
      next hd =>
        subst hd
        split at h
        · cases h
        next e t =>
          split at h
          next he =>
            subst he
            split at h
            · cases h
            next n r' hn =>
              cases h
              obtain ⟨x₁, x₂, x₃, x₄, rfl, hhex⟩ := readUnit_eq_ok_iff.1 hn
              exact .inr ⟨rfl, ['\\', 'u', x₁, x₂, x₃, x₄], rfl, .unit hhex⟩
          next =>
            split at h
            next x hx =>
              cases h
              exact .inr ⟨rfl, ['\\', e], rfl, .letter (lookup_letterEscapes_eq_some_iff.1 hx)⟩
            next => cases h
      next hb =>
        split at h
        · cases h
        next hc =>
          cases h
          exact .inr ⟨rfl, [d], rfl, .raw hq hb (Nat.le_of_not_lt hc)⟩

/-- A piece of any string is passed over. -/
theorem skipPiece_complete {p : List Char} (hp : IsLoosePiece p) (r : List Char) :
    skipPiece (p ++ r) = .ok (false, r) := by
  cases hp with
  | raw hq hb hc =>
      rw [List.singleton_append, skipPiece.eq_def]
      simp [hq, hb, Nat.not_lt.2 hc]
  | letter h =>
      obtain ⟨hlookup, hu⟩ := lookup_letterEscapes _ h
      simp [skipPiece, hlookup, hu]
  | @unit x₁ x₂ x₃ x₄ n hn =>
      have hunit : readUnit (x₁ :: x₂ :: x₃ :: x₄ :: r) = .ok (n, r) :=
        readUnit_eq_ok_iff.2 ⟨x₁, x₂, x₃, x₄, rfl, hn⟩
      simp [skipPiece, hunit]

/-- A string that is skipped, behind its opening quote. -/
theorem skipString_eq_ok_iff {s r : List Char} :
    skipString s = .ok r ↔ ∃ k, s = k ++ '"' :: r ∧ IsLoose k := by
  constructor
  · intro h
    fun_induction skipString s with
    | case1 => cases h
    | case2 s r' hp =>
        cases h
        obtain ⟨-, hs⟩ | ⟨hb, -⟩ := skipPiece_sound hp
        · exact ⟨[], hs, .nil⟩
        · cases hb
    | case3 s r' hp ih =>
        obtain ⟨hb, -⟩ | ⟨-, p, rfl, hpiece⟩ := skipPiece_sound hp
        · cases hb
        · obtain ⟨k, rfl, hk⟩ := ih h
          exact ⟨p ++ k, (List.append_assoc _ _ _).symm, .cons hpiece hk⟩
  · rintro ⟨k, rfl, hk⟩
    induction hk with
    | nil =>
        rw [skipString]
        split
        all_goals simp_all [skipPiece]
    | cons hp _ ih =>
        have hpiece := skipPiece_complete hp
        rw [skipString, List.append_assoc]
        split
        all_goals simp_all

/-! ### Texts -/

/-- **The reader of texts takes what spells a text between quotes.** -/
theorem text_reads : Reads Reader.text.run Shape.text.Writes := by
  have hquoted : Reads (readBehind '"' readString "a string")
      fun t w => ∃ k, Spells t k ∧ w = '"' :: (k ++ ['"']) := by
    constructor
    · intro s r t h
      obtain ⟨b, s', rfl, hb, hs'⟩ := (readBehind_eq_ok_iff rfl).1 h
      obtain ⟨k, rfl, hk⟩ := readString_eq_ok_iff.1 hs'
      exact ⟨b, '"' :: (k ++ ['"']), by simp, hb, k, hk, rfl⟩
    · rintro b w r t hb ⟨k, hk, rfl⟩ -
      refine (readBehind_eq_ok_iff rfl).2 ⟨b, k ++ '"' :: r, by simp, hb, ?_⟩
      exact readString_eq_ok_iff.2 ⟨k, rfl, hk⟩
    · rintro t w ⟨k, -, rfl⟩
      exact ⟨'"', k ++ ['"'], rfl, by decide⟩
  refine Reads.map (p := ⟨readBehind '"' readString "a string", _⟩) hquoted fun t w => ?_
  constructor
  · rintro ⟨k, hk, rfl⟩
    exact ⟨String.toList t, String.ofList_toList, k, hk, rfl⟩
  · rintro ⟨cs, rfl, k, hk, rfl⟩
    exact ⟨k, by rwa [String.toList_ofList], rfl⟩

end ClusterWatch.Json
