import ClusterWatch.Proofs.Json.Reads

/-!
# Numerals — what the readers of numbers take

`Numeral.read` takes an unsigned number off the front of a text part by part, each part as long as
it can be (`digits_append`), so it takes the number `IsUnsigned` describes when what stands behind
it stops a number.  A number that is skipped is no more than that (`skipNumber_sound`,
`skipNumber_complete`).

A count is read when the number is a whole one without a sign whose value is below 2 ^ 64
(`count_reads`): the digits are absorbed one by one, and all of them just when their value stays
below the limit (`absorb_eq_nil_iff`).
-/

namespace ClusterWatch.Json

namespace Numeral

/-! ### Digits -/

/-- A text is its leading digits and what stands behind them. -/
theorem digits_append_behindDigits (s : List Char) : digits s ++ behindDigits s = s :=
  List.takeWhile_append_dropWhile

theorem isDigit_of_mem_digits {s : List Char} {c : Char} (h : c ∈ digits s) : c.isDigit = true :=
  List.all_eq_true.1 List.all_takeWhile c h

/-- Digits end where no digit stands. -/
theorem digits_append {ds r : List Char} (hd : ∀ c ∈ ds, c.isDigit = true)
    (hr : ∀ c, r.head? = some c → c.isDigit = false) :
    digits (ds ++ r) = ds ∧ behindDigits (ds ++ r) = r := by
  induction ds with
  | nil =>
      cases r with
      | nil => exact ⟨rfl, rfl⟩
      | cons c r => simp [digits, behindDigits, hr c rfl]
  | cons c ds ih =>
      obtain ⟨hc, hd⟩ := List.forall_mem_cons.1 hd
      obtain ⟨h, h'⟩ := ih hd
      rw [digits] at h
      rw [behindDigits] at h'
      simp [digits, behindDigits, hc, h, h']

variable {missing : Cause}

/-- What is read as digits is at least one, off the front of the text. -/
theorem readDigits_sound {s ds r : List Char} (h : readDigits missing s = .ok (ds, r)) :
    s = ds ++ r ∧ IsDigits ds := by
  simp only [readDigits] at h
  split at h
  · cases h
  next hne =>
    cases h
    exact ⟨(digits_append_behindDigits s).symm, hne, fun _ => isDigit_of_mem_digits⟩

/-- Digits are read as far as they go. -/
theorem readDigits_complete {ds r : List Char} (hd : IsDigits ds)
    (hr : ∀ c, r.head? = some c → c.isDigit = false) :
    readDigits missing (ds ++ r) = .ok (ds, r) := by
  obtain ⟨h, h'⟩ := digits_append hd.2 hr
  rw [readDigits, h, h', if_neg hd.1]

/-! ### The parts of a number -/

/-- What is read before the point begins with a zero only if it is one. -/
theorem readWhole_sound {s ds r : List Char} (h : readWhole missing s = .ok (ds, r)) :
    s = ds ++ r ∧ IsWhole ds := by
  simp only [readWhole] at h
  split at h
  · cases h
  next hzero =>
    obtain ⟨hs, hd⟩ := readDigits_sound h
    refine ⟨hs, hd, fun h0 => ?_⟩
    cases ds with
    | nil => cases h0
    | cons c ds =>
        obtain rfl : c = '0' := Option.some.inj h0
        cases ds with
        | nil => rfl
        | cons d ds => exact absurd h (hzero d ds r)

/-- Digits that do not begin with a needless zero are read as far as they go. -/
theorem readWhole_complete {ds r : List Char} (hd : IsWhole ds)
    (hr : ∀ c, r.head? = some c → c.isDigit = false) :
    readWhole missing (ds ++ r) = .ok (ds, r) := by
  rw [readWhole.eq_def]
  rw [readDigits_complete hd.1 hr]
  split
  next h =>
    cases h
    cases hd.2 rfl
  next => rfl

/-- What is read as a fraction is a point with digits, or nothing. -/
theorem readFraction_sound {s r : List Char} {f : Option (List Char)}
    (h : readFraction missing s = .ok (f, r)) :
    ∃ w, s = w ++ r ∧ IsFraction w ∧ (f = none ↔ w = []) := by
  simp only [readFraction] at h
  split at h
  · split at h
    · cases h
    next ds _ hd =>
      cases h
      obtain ⟨rfl, hds⟩ := readDigits_sound hd
      exact ⟨'.' :: ds, rfl, .inr ⟨ds, hds, rfl⟩, by simp⟩
  · cases h
    exact ⟨[], rfl, .inl rfl, by simp⟩

/-- A fraction is read where neither a digit nor a point stands behind it. -/
theorem readFraction_complete (missing : Cause) {w r : List Char} (hw : IsFraction w)
    (hr : ∀ c, r.head? = some c → c.isDigit = false ∧ c ≠ '.') :
    ∃ f, readFraction missing (w ++ r) = .ok (f, r) ∧ (f = none ↔ w = []) := by
  rcases hw with rfl | ⟨ds, hds, rfl⟩
  · refine ⟨none, ?_, by simp⟩
    rw [readFraction.eq_def]
    split
    next t ht =>
      have ht : r = '.' :: t := ht
      exact absurd rfl (hr '.' (by rw [ht]; rfl)).2
    next => rfl
  · refine ⟨some ds, ?_, by simp⟩
    rw [List.cons_append, readFraction, readDigits_complete hds fun c hc => (hr c hc).1]

/-- What is read as the sign of an exponent is a sign, or nothing. -/
theorem readSign_sound (s : List Char) :
    ∃ sign, s = sign ++ (readSign s).2 ∧ (sign = [] ∨ sign = ['+'] ∨ sign = ['-']) := by
  rw [readSign.eq_def]
  split
  · exact ⟨['+'], rfl, .inr (.inl rfl)⟩
  · exact ⟨['-'], rfl, .inr (.inr rfl)⟩
  · exact ⟨[], rfl, .inl rfl⟩

theorem readSign_complete {sign ds : List Char}
    (hs : sign = [] ∨ sign = ['+'] ∨ sign = ['-']) (hd : IsDigits ds) (r : List Char) :
    (readSign (sign ++ (ds ++ r))).2 = ds ++ r := by
  rcases hs with rfl | rfl | rfl
  · obtain ⟨hne, hd⟩ := hd
    cases ds with
    | nil => exact absurd rfl hne
    | cons d ds =>
        have := hd d List.mem_cons_self
        rw [List.nil_append, List.cons_append]
        rw [readSign.eq_def]
        split
        next h =>
          cases h
          exact absurd this (by decide)
        next h =>
          cases h
          exact absurd this (by decide)
        next => rfl
  · rfl
  · rfl

/-- What is read as an exponent is its letter with a sign and digits, or nothing. -/
theorem readExponent_sound {s r : List Char} {e : Option (Bool × List Char)}
    (h : readExponent missing s = .ok (e, r)) :
    ∃ w, s = w ++ r ∧ IsExponent w ∧ (e = none ↔ w = []) := by
  simp only [readExponent] at h
  split at h
  · cases h
    exact ⟨[], rfl, .inl rfl, by simp⟩
  next c s =>
    split at h
    next hc =>
      split at h
      · cases h
      next ds _ hd =>
        cases h
        obtain ⟨sign, hs, hsign⟩ := readSign_sound s
        obtain ⟨hds, hdigits⟩ := readDigits_sound hd
        rw [hds] at hs
        refine ⟨c :: (sign ++ ds), ?_, .inr ⟨c, sign, ds, hc, hsign, hdigits, rfl⟩, by simp⟩
        rw [List.cons_append, List.append_assoc]
        exact congrArg (c :: ·) hs
    next =>
      cases h
      exact ⟨[], rfl, .inl rfl, by simp⟩

/-- An exponent is read where something stands behind it that stops a number. -/
theorem readExponent_complete (missing : Cause) {w r : List Char} (hw : IsExponent w)
    (hr : Stops r) :
    ∃ e, readExponent missing (w ++ r) = .ok (e, r) ∧ (e = none ↔ w = []) := by
  rcases hw with rfl | ⟨c, sign, ds, hc, hsign, hds, rfl⟩
  · refine ⟨none, ?_, by simp⟩
    rw [List.nil_append]
    cases r with
    | nil => rfl
    | cons c r =>
        obtain ⟨-, -, he, hE⟩ := hr c rfl
        rw [readExponent, if_neg (not_or.2 ⟨he, hE⟩)]
  · refine ⟨some ((readSign (sign ++ (ds ++ r))).1, ds), ?_, by simp⟩
    rw [List.cons_append, List.append_assoc, readExponent, if_pos hc,
      readSign_complete hsign hds, readDigits_complete hds fun c hc => (hr c hc).1]

/-! ### An unsigned number -/

/-- Parts that can follow each other are an unsigned number. -/
theorem isUnsigned_of_parts {whole fraction exponent : List Char} (hw : IsWhole whole)
    (hf : IsFraction fraction) (he : IsExponent exponent) :
    IsUnsigned (whole ++ (fraction ++ exponent)) :=
  ⟨whole, fraction, exponent, hw, hf, he, rfl⟩

/-- What is read is an unsigned number, and it is whole just when it has neither fraction nor
exponent. -/
theorem read_sound {s r : List Char} {x : Numeral} (h : read missing s = .ok (x, r)) :
    ∃ w, s = w ++ r ∧ IsUnsigned w ∧ IsWhole x.whole ∧
      (x.fraction = none → x.exponent = none → w = x.whole) := by
  simp only [read] at h
  split at h
  · cases h
  next whole s₁ hwhole =>
    split at h
    · cases h
    next fraction s₂ hfraction =>
      split at h
      · cases h
      next exponent s₃ hexponent =>
        cases h
        obtain ⟨rfl, hw⟩ := readWhole_sound hwhole
        obtain ⟨f, rfl, hf, hfnil⟩ := readFraction_sound hfraction
        obtain ⟨e, rfl, he, henil⟩ := readExponent_sound hexponent
        refine ⟨whole ++ (f ++ e), by simp, isUnsigned_of_parts hw hf he, hw, fun hf0 he0 => ?_⟩
        rw [hfnil.1 hf0, henil.1 he0, List.append_nil, List.append_nil]

/-- What stands behind the whole part of a number is no digit. -/
theorem not_isDigit_behind_whole {f e r : List Char} (hf : IsFraction f) (he : IsExponent e)
    (hr : Stops r) {c : Char} (hc : (f ++ (e ++ r)).head? = some c) : c.isDigit = false := by
  rcases hf with rfl | ⟨ds, -, rfl⟩
  · rcases he with rfl | ⟨e', sign, ds, hE, -, -, rfl⟩
    · exact (hr c hc).1
    · obtain rfl : e' = c := Option.some.inj hc
      rcases hE with rfl | rfl <;> rfl
  · obtain rfl : '.' = c := Option.some.inj hc
    rfl

/-- Behind a fraction stands neither a digit nor a second point. -/
theorem not_point_behind_fraction {e r : List Char} (he : IsExponent e) (hr : Stops r) {c : Char}
    (hc : (e ++ r).head? = some c) : c.isDigit = false ∧ c ≠ '.' := by
  rcases he with rfl | ⟨e', sign, ds, hE, -, -, rfl⟩
  · exact ⟨(hr c hc).1, (hr c hc).2.1⟩
  · obtain rfl : e' = c := Option.some.inj hc
    rcases hE with rfl | rfl <;> decide

/-- An unsigned number is read as the parts that it is made of. -/
theorem read_complete (missing : Cause) {whole f e r : List Char} (hw : IsWhole whole)
    (hf : IsFraction f) (he : IsExponent e) (hr : Stops r) :
    ∃ x, read missing (whole ++ (f ++ (e ++ r))) = .ok (x, r) ∧ x.whole = whole ∧
      (x.fraction = none ↔ f = []) ∧ (x.exponent = none ↔ e = []) := by
  obtain ⟨fraction, hfraction, hf0⟩ := readFraction_complete missing hf fun _ =>
    not_point_behind_fraction he hr
  obtain ⟨exponent, hexponent, he0⟩ := readExponent_complete missing he hr
  refine ⟨⟨whole, fraction, exponent⟩, ?_, rfl, hf0, he0⟩
  rw [read, readWhole_complete hw fun _ => not_isDigit_behind_whole hf he hr]
  simp only [hfraction, hexponent]

end Numeral

/-! ### Numbers that are skipped -/

/-- An unsigned number begins with a digit. -/
theorem IsUnsigned.head {s : List Char} (h : IsUnsigned s) :
    ∃ c r, s = c :: r ∧ c.isDigit = true := by
  obtain ⟨whole, f, e, ⟨⟨hne, hd⟩, -⟩, -, -, rfl⟩ := h
  cases whole with
  | nil => exact absurd rfl hne
  | cons c ds => exact ⟨c, _, rfl, hd c List.mem_cons_self⟩

theorem unsigned_of_isDigit {c : Char} (h : c.isDigit = true) (s : List Char) :
    unsigned (c :: s) = c :: s := by
  have hc : c ≠ '-' := by
    rintro rfl
    exact absurd h (by decide)
  simp [unsigned, hc]

/-- What is passed over as a number is one. -/
theorem skipNumber_sound {s r : List Char} (h : skipNumber s = .ok r) :
    ∃ w, s = w ++ r ∧ IsNumber w := by
  simp only [skipNumber] at h
  split at h
  · cases h
  next x r' hx =>
    cases h
    obtain ⟨w, hs, hw, -, -⟩ := Numeral.read_sound hx
    simp only [unsigned] at hs
    split at hs
    next hminus =>
      cases s with
      | nil => cases hminus
      | cons c s =>
          obtain rfl : c = '-' := Option.some.inj hminus
          exact ⟨'-' :: w, congrArg ('-' :: ·) hs, .inr ⟨w, hw, rfl⟩⟩
    next => exact ⟨w, hs, .inl hw⟩

/-- A number is passed over where something stands behind it that stops it. -/
theorem skipNumber_complete {w r : List Char} (hw : IsNumber w) (hr : Stops r) :
    skipNumber (w ++ r) = .ok r := by
  have hread : ∀ {t}, IsUnsigned t → ∃ x, Numeral.read .invalidNumber (t ++ r) = .ok (x, r) := by
    rintro t ⟨whole, f, e, hwhole, hf, he, rfl⟩
    obtain ⟨x, hx, -⟩ := Numeral.read_complete .invalidNumber hwhole hf he hr
    exact ⟨x, by simpa using hx⟩
  rcases hw with hw | ⟨t, ht, rfl⟩
  · obtain ⟨x, hx⟩ := hread hw
    obtain ⟨c, s, rfl, hc⟩ := hw.head
    rw [skipNumber, List.cons_append, unsigned_of_isDigit hc, ← List.cons_append, hx]
  · obtain ⟨x, hx⟩ := hread ht
    rw [skipNumber, List.cons_append, unsigned, List.head?_cons, if_pos rfl, List.tail_cons, hx]

/-! ### Counts -/

namespace Numeral

/-- Digits behind a number make it no smaller. -/
theorem le_foldl_digits (ds : List Char) (n : Nat) :
    n ≤ ds.foldl (fun v c => 10 * v + Decimal.digitValue c) n := by
  induction ds generalizing n with
  | nil => exact Nat.le_refl n
  | cons c ds ih => exact Nat.le_trans (by omega) (ih (10 * n + Decimal.digitValue c))

/-- All digits are absorbed just when their value stays below the limit. -/
theorem absorb_eq_nil_iff {limit n m : Nat} {ds : List Char} (hn : n < limit) :
    absorb limit n ds = (m, []) ↔
      ds.foldl (fun v c => 10 * v + Decimal.digitValue c) n = m ∧ m < limit := by
  induction ds generalizing n with
  | nil =>
      constructor
      · rintro ⟨⟩
        exact ⟨rfl, hn⟩
      · rintro ⟨rfl, -⟩
        rfl
  | cons c ds ih =>
      rw [absorb, List.foldl_cons]
      split
      next hlt => exact ih hlt
      next hge =>
        constructor
        · rintro ⟨⟩
        · rintro ⟨rfl, hm⟩
          exact absurd (Nat.lt_of_le_of_lt (le_foldl_digits ds _) hm) hge

/-- A numeral denotes an integer just when it has only digits and they are below 2 ^ 64. -/
theorem integer?_eq_some_iff {x : Numeral} {n : Nat} :
    x.integer? = some n ↔ x.fraction = none ∧ x.exponent = none ∧
      Decimal.value x.whole = n ∧ n < Nat.pow 2 64 := by
  have habsorb : absorb (Nat.pow 2 64) 0 x.whole = (n, []) ↔ _ ∧ _ :=
    absorb_eq_nil_iff (Nat.two_pow_pos 64)
  rw [Decimal.value, ← habsorb]
  rw [integer?.eq_def]
  split
  next m hf he ha => simp [hf, he, ha]
  next hnone =>
    constructor
    · rintro ⟨⟩
    · rintro ⟨hf, he, ha⟩
      exact absurd ha (hnone n hf he)

/-- A number is a count just when it is a whole number without a sign, below the limit. -/
theorem number?_eq_count_iff {x : Numeral} {negative : Bool} {n : Nat} :
    x.number? negative = .ok (.count n) ↔ negative = false ∧ x.integer? = some n := by
  rw [number?.eq_def]
  cases x.integer? with
  | none => cases x.size? <;> simp
  | some m =>
      cases negative with
      | false => simp
      | true =>
          simp only [not_true_eq_false, if_false]
          split <;> simp

end Numeral

theorem Number.count?_eq_ok_iff {x : Number} {n : UInt64} :
    x.count? = .ok n ↔ ∃ m, x = .count m ∧ UInt64.ofNat m = n := by
  cases x <;> simp [Number.count?]

theorem startsNumber_of_isDigit {c : Char} (h : c.isDigit = true) : startsNumber c = true := by
  simp [startsNumber, h]

theorem starts_of_isDigit {c : Char} (h : c.isDigit = true) (s : List Char) : Starts (c :: s) := by
  refine ⟨c, s, rfl, ?_, ?_, ?_⟩
  · cases hc : isSpace c with
    | false => rfl
    | true =>
        simp only [isSpace, Bool.or_eq_true, decide_eq_true_eq] at hc
        rcases hc with ((rfl | rfl) | rfl) | rfl <;> exact absurd h (by decide)
  · rintro rfl
    exact absurd h (by decide)
  · rintro rfl
    exact absurd h (by decide)

theorem IsWhole.isUnsigned {s : List Char} (h : IsWhole s) : IsUnsigned s := by
  have := Numeral.isUnsigned_of_parts h (.inl rfl) (.inl rfl)
  rwa [List.append_nil, List.append_nil] at this

/-- **The reader of counts takes the whole numbers without a sign below 2 ^ 64.** -/
theorem count_reads : Reads Reader.count.run Shape.count.Writes where
  sound := by
    intro s r n h
    change readCount s = .ok (n, r) at h
    simp only [readCount] at h
    split at h
    · cases h
    next c s' hs =>
      split at h
      next hc =>
        split at h
        · cases h
        next x r' hx =>
          split at h
          · cases h
          next n' hn =>
            cases h
            obtain ⟨b, hb, -, rfl⟩ := skipSpace_eq_cons_iff.1 hs
            obtain ⟨m, rfl, rfl⟩ := Number.count?_eq_ok_iff.1 hn
            simp only [readNumber] at hx
            split at hx
            · cases hx
            next y r'' hy =>
              split at hx
              next z hz =>
                -- a count has no sign, so the numeral begins where the number does
                cases hx
                obtain ⟨hminus, hint⟩ := Numeral.number?_eq_count_iff.1 hz
                obtain ⟨hf, he, hvalue, hlt⟩ := Numeral.integer?_eq_some_iff.1 hint
                obtain ⟨w, hw, -, hwhole, hall⟩ := Numeral.read_sound hy
                obtain rfl := hall hf he
                rw [unsigned, if_neg (of_decide_eq_false hminus)] at hw
                refine ⟨b, y.whole, by rw [hw], hb, hwhole, ?_⟩
                rw [hvalue, UInt64.toNat_ofNat', Nat.mod_eq_of_lt hlt]
              next => cases hx
      next => cases h
  complete := by
    rintro b w r n hb ⟨hw, hvalue⟩ hr
    obtain ⟨c, s, rfl, hc⟩ := hw.isUnsigned.head
    have hspace : isSpace c = false := by
      obtain ⟨_, _, hcons, hspace, -⟩ := starts_of_isDigit hc s
      cases hcons
      exact hspace
    obtain ⟨x, hx, hwhole, hf, he⟩ :=
      Numeral.read_complete .endInValue hw (.inl rfl) (.inl rfl) hr
    have hint : x.integer? = some n.toNat :=
      Numeral.integer?_eq_some_iff.2 ⟨hf.2 rfl, he.2 rfl, by rw [hwhole, hvalue], n.toNat_lt⟩
    have hminus : decide (((c :: s) ++ r).head? = some '-') = false := by
      refine decide_eq_false fun h => ?_
      obtain rfl : c = '-' := Option.some.inj h
      exact absurd hc (by decide)
    have hnumber : readNumber ((c :: s) ++ r) = .ok (.count n.toNat, r) := by
      rw [readNumber, List.cons_append, unsigned_of_isDigit hc, ← List.cons_append]
      rw [List.nil_append, List.nil_append] at hx
      simp only [hx, hminus, Numeral.number?_eq_count_iff.2 ⟨rfl, hint⟩]
    change readCount (b ++ ((c :: s) ++ r)) = .ok (n, r)
    rw [readCount, skipSpace_append hb, List.cons_append, skipSpace_cons hspace]
    simp only [startsNumber_of_isDigit hc, if_true, ← List.cons_append, hnumber, Number.count?,
      UInt64.ofNat_toNat]
  starts := by
    rintro n w ⟨hw, -⟩
    obtain ⟨c, s, rfl, hc⟩ := hw.isUnsigned.head
    exact starts_of_isDigit hc s

end ClusterWatch.Json
