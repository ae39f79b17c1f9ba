import ClusterWatch.Proofs.Json.Numeral
import ClusterWatch.Proofs.Json.StringLiteral

/-!
# Skipping — what is passed over is a JSON value

`skipValue` keeps the open containers in a list, so it passes over a value and over what is left of
the containers around it.  `Closes around s` says that `s` is what is left of them.

* `skip_sound`: what is passed over is a value, and then what closes the containers; by induction on
  the length of the text, since the two functions call each other on shorter ones.
* `passes`: a value is passed over whole, whatever containers are open; by induction on the grammar.
* `skipValue_sound` and `skipValue_complete`: with no container open, exactly the JSON values are
  passed over.
-/

namespace ClusterWatch.Json

/-- What is left of the open containers: further items and the closing bracket of each. -/
inductive Closes : List Container → List Char → Prop
  | nil : Closes [] []
  | cons {c : Container} {outer : List Container} {items : List (List Char)} {s t : List Char}
      (hi : ∀ p ∈ items, IsItem c p) (hs : Listed false items s) (ht : Closes outer t) :
      Closes (c :: outer) (s ++ c.closing :: t)

/-! ### Tokens -/

theorem IsLead.append {first : Bool} {l b : List Char} (hl : IsLead first l) (hb : IsBlanks b) :
    IsLead first (l ++ b) := by
  cases first with
  | true => exact IsBlanks.append hl hb
  | false =>
      obtain ⟨b₁, b₂, h₁, h₂, rfl⟩ := hl
      exact ⟨b₁, b₂ ++ b, h₁, h₂.append hb, by simp⟩

/-- A word is taken just where it stands. -/
theorem word_eq_ok_iff {w s r : List Char} : word w s = .ok r ↔ s = w ++ r := by
  fun_induction word w s with
  | case1 s => simp
  | case2 => simp
  | case3 w c s ih => simp [ih]
  | case4 a w c s h => simp [Ne.symm h]

/-- A colon is taken with the blanks before it. -/
theorem readColon_eq_ok_iff {s r : List Char} :
    readColon s = .ok r ↔ ∃ b, IsBlanks b ∧ s = b ++ ':' :: r := by
  refine ⟨fun h => ?_, ?_⟩
  · simp only [readColon] at h
    split at h
    · cases h
    next c t hs =>
      split at h
      next hc =>
        cases h
        obtain ⟨b, hb, -, rfl⟩ := skipSpace_eq_cons_iff.1 hs
        exact ⟨b, hb, by rw [hc]⟩
      next => cases h
  · rintro ⟨b, hb, rfl⟩
    rw [readColon, skipSpace_append hb, skipSpace_cons rfl]
    rfl

/-- A key is a string with a colon behind it, with blanks around both. -/
theorem skipKey_eq_ok_iff {s r : List Char} :
    skipKey s = .ok r ↔ ∃ b k b', IsBlanks b ∧ IsLoose k ∧ IsBlanks b' ∧
      s = b ++ '"' :: (k ++ '"' :: (b' ++ ':' :: r)) := by
  refine ⟨fun h => ?_, ?_⟩
  · simp only [skipKey] at h
    split at h
    · cases h
    next c t hs =>
      split at h
      next hc =>
        split at h
        · cases h
        next t' ht =>
          obtain ⟨b, hb, -, rfl⟩ := skipSpace_eq_cons_iff.1 hs
          obtain ⟨k, rfl, hk⟩ := skipString_eq_ok_iff.1 ht
          obtain ⟨b', hb', rfl⟩ := readColon_eq_ok_iff.1 h
          exact ⟨b, k, b', hb, hk, hb', by rw [hc]⟩
      next => cases h
  · rintro ⟨b, k, b', hb, hk, hb', rfl⟩
    rw [skipKey, skipSpace_append hb, skipSpace_cons rfl]
    simp only [if_true, skipString_eq_ok_iff.2 ⟨k, rfl, hk⟩]
    exact readColon_eq_ok_iff.2 ⟨b', hb', rfl⟩

theorem starts_of_startsNumber {c : Char} (h : startsNumber c = true) (s : List Char) :
    Starts (c :: s) ∧ c ≠ 'n' ∧ c ≠ 't' ∧ c ≠ 'f' := by
  have hne : ∀ d, startsNumber d = false → c ≠ d := by
    rintro d hd rfl
    exact Bool.noConfusion (h.symm.trans hd)
  refine ⟨⟨c, s, rfl, ?_, hne _ (by decide), hne _ (by decide)⟩, hne _ (by decide),
    hne _ (by decide), hne _ (by decide)⟩
  simp only [isSpace, Bool.or_eq_false_iff, decide_eq_false_iff_not]
  exact ⟨⟨⟨hne _ (by decide), hne _ (by decide)⟩, hne _ (by decide)⟩, hne _ (by decide)⟩

/-- A number begins with a digit or a minus sign. -/
theorem IsNumber.head {s : List Char} (h : IsNumber s) :
    ∃ c r, s = c :: r ∧ startsNumber c = true := by
  rcases h with h | ⟨t, -, rfl⟩
  · obtain ⟨c, r, rfl, hc⟩ := h.head
    exact ⟨c, r, rfl, startsNumber_of_isDigit hc⟩
  · exact ⟨'-', t, rfl, rfl⟩

/-- A token is a value without a bracket, or an opening bracket. -/
theorem skipToken_sound {s : List Char} {t : Token} (h : skipToken s = .ok t) :
    ∃ b, IsBlanks b ∧ ((∃ w r, t = .scalar r ∧ s = b ++ (w ++ r) ∧ IsValue w) ∨
      ∃ c r, t = .opens c r ∧ s = b ++ c.opening :: r) := by
  have scalar : ∀ {x : Except Fault (List Char)}, x.map Token.scalar = .ok t →
      ∃ r, x = .ok r ∧ t = .scalar r := by
    rintro (e | r) ⟨⟩
    exact ⟨r, rfl, rfl⟩
  simp only [skipToken] at h
  split at h
  · cases h
  next c r hs =>
    obtain ⟨b, hb, -, rfl⟩ := skipSpace_eq_cons_iff.1 hs
    refine ⟨b, hb, ?_⟩
    split at h
    next hc =>
      obtain ⟨r', hw, rfl⟩ := scalar h
      exact .inl ⟨_, r', rfl, by rw [hc, word_eq_ok_iff.1 hw]; rfl, .null⟩
    split at h
    next hc =>
      obtain ⟨r', hw, rfl⟩ := scalar h
      exact .inl ⟨_, r', rfl, by rw [hc, word_eq_ok_iff.1 hw]; rfl, .true⟩
    split at h
    next hc =>
      obtain ⟨r', hw, rfl⟩ := scalar h
      exact .inl ⟨_, r', rfl, by rw [hc, word_eq_ok_iff.1 hw]; rfl, .false⟩
    split at h
    next =>
      obtain ⟨r', hn, rfl⟩ := scalar h
      obtain ⟨w, hw, hnumber⟩ := skipNumber_sound hn
      exact .inl ⟨w, r', rfl, by rw [hw], .number hnumber⟩
    split at h
    next hc =>
      obtain ⟨r', hq, rfl⟩ := scalar h
      obtain ⟨k, rfl, hk⟩ := skipString_eq_ok_iff.1 hq
      exact .inl ⟨'"' :: (k ++ ['"']), r', rfl, by simp [hc], .text hk⟩
    split at h
    next hc =>
      cases h
      exact .inr ⟨.list, r, rfl, by rw [hc]; rfl⟩
    split at h
    next hc =>
      cases h
      exact .inr ⟨.object, r, rfl, by rw [hc]; rfl⟩
    · cases h

theorem skipToken_opens {b : List Char} (hb : IsBlanks b) (c : Container) (r : List Char) :
    skipToken (b ++ c.opening :: r) = .ok (.opens c r) := by
  rw [skipToken, skipSpace_append hb]
  cases c <;> rfl

/-! ### One step of skipping -/

section Steps

variable {around outer : List Container} {c : Container} {s r r' : List Char}

/-- Behind a scalar the containers around it go on. -/
theorem skipValue_scalar (h : skipToken s = .ok (.scalar r)) :
    skipValue around s = skipNext around r := by
  rw [skipValue]
  split
  all_goals simp_all

/-- Behind an empty container those around it go on. -/
theorem skipValue_closed (h : skipToken s = .ok (.opens c r)) (hr : skipSpace r = c.closing :: r') :
    skipValue around s = skipNext around r' := by
  rw [skipValue]
  split
  next ht => cases h.symm.trans ht
  next ht => cases h.symm.trans ht
  next ht =>
    cases h.symm.trans ht
    split
    next hnil => cases hr.symm.trans hnil
    next hcons =>
      cases hr.symm.trans hcons
      rw [if_pos rfl]

/-- A container that is not empty is one more around what follows. -/
theorem skipValue_opened {d : Char} {r'' : List Char} (h : skipToken s = .ok (.opens c r))
    (hr : skipSpace r = d :: r') (hd : d ≠ c.closing) (he : skipEntry c (d :: r') = .ok r'') :
    skipValue around s = skipValue (c :: around) r'' := by
  rw [skipValue]
  split
  next ht => cases h.symm.trans ht
  next ht => cases h.symm.trans ht
  next ht =>
    cases h.symm.trans ht
    split
    next hnil => cases hr.symm.trans hnil
    next hcons =>
      cases hr.symm.trans hcons
      rw [if_neg hd]
      split
      next he' => cases he.symm.trans he'
      next he' =>
        cases he.symm.trans he'
        rfl

theorem skipNext_comma (hs : skipSpace s = ',' :: r) (he : skipEntry c r = .ok r') :
    skipNext (c :: outer) s = skipValue (c :: outer) r' := by
  rw [skipNext]
  split
  next hnil => cases hs.symm.trans hnil
  next hcons =>
    cases hs.symm.trans hcons
    rw [if_pos rfl]
    split
    next he' => cases he.symm.trans he'
    next he' =>
      cases he.symm.trans he'
      rfl

theorem skipNext_closed (hs : skipSpace s = c.closing :: r) :
    skipNext (c :: outer) s = skipNext outer r := by
  rw [skipNext]
  split
  next hnil => cases hs.symm.trans hnil
  next hcons =>
    cases hs.symm.trans hcons
    have hne : c.closing ≠ ',' := by cases c <;> decide
    rw [if_neg hne, if_pos rfl]

end Steps

/-! ### What is passed over is a value -/

/-- What stands before a value in a container makes it an item. -/
theorem skipEntry_sound {c : Container} {s b v t : List Char}
    (h : skipEntry c s = .ok (b ++ (v ++ t))) (hb : IsBlanks b) (hv : IsValue v) :
    ∃ b' p, s = b' ++ (p ++ t) ∧ IsBlanks b' ∧ IsItem c p := by
  cases c with
  | list =>
      cases h
      exact ⟨b, v, rfl, hb, .element hv⟩
  | object =>
      obtain ⟨b₀, k, b₁, hb₀, hk, hb₁, rfl⟩ := skipKey_eq_ok_iff.1 h
      exact ⟨b₀, _, by simp, hb₀, .member hk hb₁ hb hv⟩

/-- An empty container. -/
theorem IsValue.empty (c : Container) {b : List Char} (hb : IsBlanks b) :
    IsValue (c.opening :: (b ++ [c.closing])) := by
  have hnone : ∀ p ∈ ([] : List (List Char)), IsItem c p := fun _ hp => nomatch hp
  exact .container hnone ⟨b, .nil hb, rfl⟩

/-- The end of a container. -/
theorem Closes.closing (c : Container) {outer : List Container} {b t : List Char} (hb : IsBlanks b)
    (ht : Closes outer t) : Closes (c :: outer) (b ++ c.closing :: t) := by
  have hnone : ∀ p ∈ ([] : List (List Char)), IsItem c p := fun _ hp => nomatch hp
  exact .cons hnone (.nil hb) ht

/-- A container whose first item is known, with the end of its items and what closes those around
it. -/
theorem Closes.opening {c : Container} {outer : List Container} {b p t : List Char}
    (hb : IsBlanks b) (hp : IsItem c p) (ht : Closes (c :: outer) t) :
    ∃ v t', c.opening :: (b ++ (p ++ t)) = v ++ t' ∧ IsValue v ∧ Closes outer t' := by
  cases ht with
  | @cons _ _ items s t' hi hs ht =>
      refine ⟨c.opening :: ((b ++ (p ++ s)) ++ [c.closing]), t', by simp, ?_, ht⟩
      exact .container (List.forall_mem_cons.2 ⟨hp, hi⟩) ⟨_, .cons hb hs, rfl⟩

/-- One more item in front of those that a container still lists. -/
theorem Closes.item {c : Container} {outer : List Container} {b b' p t : List Char}
    (hb : IsBlanks b) (hb' : IsBlanks b') (hp : IsItem c p) (ht : Closes (c :: outer) t) :
    Closes (c :: outer) (b ++ ',' :: (b' ++ (p ++ t))) := by
  cases ht with
  | @cons _ _ items s t' hi hs ht =>
      have hlist : Listed false (p :: items) ((b ++ ',' :: b') ++ (p ++ s)) :=
        .cons ⟨b, b', hb, hb', rfl⟩ hs
      have hall := Closes.cons (List.forall_mem_cons.2 ⟨hp, hi⟩) hlist ht
      simpa using hall

/-- What is passed over is a value, and then what closes the containers around it. -/
theorem skip_sound (s : List Char) : ∀ (around : List Container) (r : List Char),
    (skipValue around s = .ok r →
      ∃ b v t, s = b ++ (v ++ (t ++ r)) ∧ IsBlanks b ∧ IsValue v ∧ Closes around t) ∧
    (skipNext around s = .ok r → ∃ t, s = t ++ r ∧ Closes around t) := by
  induction hn : s.length using Nat.strongRecOn generalizing s with
  | ind n ih =>
  subst hn
  intro around r
  refine ⟨fun h => ?_, fun h => ?_⟩
  · rw [skipValue] at h
    split at h
    · cases h
    next r₁ ht =>
      -- a scalar, and what closes the containers around it
      have hlen : r₁.length < s.length := length_rest_of_skipToken ht
      obtain ⟨b, hb, ⟨w, r', hr', rfl, hw⟩ | ⟨c, r', hr', -⟩⟩ := skipToken_sound ht
      · cases hr'
        obtain ⟨t, rfl, hclose⟩ := (ih _ hlen r₁ rfl around r).2 h
        exact ⟨b, w, t, rfl, hb, hw, hclose⟩
      · cases hr'
    next c r₁ ht =>
      have hlen : r₁.length < s.length := length_rest_of_skipToken ht
      obtain ⟨b, hb, ⟨w, r', hr', -⟩ | ⟨c', r', hr', rfl⟩⟩ := skipToken_sound ht
      · cases hr'
      cases hr'
      split at h
      · cases h
      next d r₂ hr =>
        have hlen₂ := Nat.lt_trans (length_lt_of_skipSpace hr) hlen
        have hcons := length_skipSpace_le r₁
        rw [hr] at hcons
        obtain ⟨b₁, hb₁, -, rfl⟩ := skipSpace_eq_cons_iff.1 hr
        split at h
        next hd =>
          -- an empty container
          obtain ⟨t, rfl, hclose⟩ := (ih _ hlen₂ r₂ rfl around r).2 h
          exact ⟨b, _, t, by simp [hd], hb, .empty c hb₁, hclose⟩
        next =>
          split at h
          · cases h
          next r₃ he =>
            -- the first item; what closes its container lists the others
            have hlen₃ := Nat.lt_of_le_of_lt (Nat.le_trans (length_skipEntry_le he) hcons) hlen
            obtain ⟨b₂, v, t, rfl, hb₂, hv, hclose⟩ := (ih _ hlen₃ r₃ rfl (c :: around) r).1 h
            obtain ⟨b₃, p, hp, hb₃, hitem⟩ := skipEntry_sound he hb₂ hv
            obtain ⟨v', t', hv', hvalue, hclose⟩ := Closes.opening (hb₁.append hb₃) hitem hclose
            refine ⟨b, v', t', ?_, hb, hvalue, hclose⟩
            rw [hp, ← List.append_assoc v', ← hv']
            simp
  · rw [skipNext.eq_def] at h
    split at h
    · cases h
      exact ⟨[], rfl, .nil⟩
    next c outer =>
      split at h
      · cases h
      next d r₁ hr =>
        have hlen := length_lt_of_skipSpace hr
        obtain ⟨b, hb, -, rfl⟩ := skipSpace_eq_cons_iff.1 hr
        split at h
        next hd =>
          -- one more item of the innermost container
          split at h
          · cases h
          next r₂ he =>
            have hlen₂ := Nat.lt_of_le_of_lt (length_skipEntry_le he) hlen
            obtain ⟨b₂, v, t, rfl, hb₂, hv, hclose⟩ := (ih _ hlen₂ r₂ rfl (c :: outer) r).1 h
            obtain ⟨b₃, p, rfl, hb₃, hitem⟩ := skipEntry_sound he hb₂ hv
            exact ⟨_, by simp [hd], .item hb hb₃ hitem hclose⟩
        next =>
          split at h
          next hd =>
            -- the end of the innermost container
            obtain ⟨t, rfl, hclose⟩ := (ih _ hlen r₁ rfl outer r).2 h
            exact ⟨b ++ c.closing :: t, by simp [hd], .closing c hb hclose⟩
          next => cases h

/-! ### A value is passed over whole -/

/-- Whether `v` begins as a value does and is passed over, whatever containers are open. -/
def Passes (v : List Char) : Prop :=
  Starts v ∧ ∀ around b r, IsBlanks b → Stops r →
    skipValue around (b ++ (v ++ r)) = skipNext around r

/-- Whether `p` begins as a value does and is passed over as an item of a container. -/
def PassesIn (c : Container) (p : List Char) : Prop :=
  Starts p ∧ ∀ around b r, IsBlanks b → Stops r →
    ∃ s, skipEntry c (b ++ (p ++ r)) = .ok s ∧ skipValue (c :: around) s = skipNext (c :: around) r

theorem passes_scalar {v : List Char} (hstarts : Starts v)
    (h : ∀ b r, IsBlanks b → Stops r → skipToken (b ++ (v ++ r)) = .ok (.scalar r)) : Passes v :=
  ⟨hstarts, fun _ b r hb hr => skipValue_scalar (h b r hb hr)⟩

/-- The items that a container still lists, and its closing bracket. -/
theorem passes_rest {c : Container} {items : List (List Char)} {s : List Char}
    (hi : ∀ p ∈ items, PassesIn c p) (hs : Listed false items s) (around : List Container)
    (r : List Char) : skipNext (c :: around) (s ++ c.closing :: r) = skipNext around r := by
  induction items generalizing s with
  | nil =>
      cases hs with
      | nil hb =>
          refine skipNext_closed (skipSpace_eq_cons_iff.2 ⟨s, hb, ?_, rfl⟩)
          cases c <;> rfl
  | cons p items ih =>
      cases hs with
      | @cons _ _ _ s' _ hl hs =>
          obtain ⟨b, b', hb, hb', rfl⟩ := hl
          obtain ⟨hp, hi⟩ := List.forall_mem_cons.1 hi
          obtain ⟨t, hentry, hvalue⟩ := hp.2 around b' _ hb' (hs.stops c r)
          have hcomma : skipSpace (((b ++ ',' :: b') ++ (p ++ s')) ++ c.closing :: r) =
              ',' :: (b' ++ (p ++ (s' ++ c.closing :: r))) :=
            skipSpace_eq_cons_iff.2 ⟨b, hb, rfl, by simp⟩
          rw [skipNext_comma hcomma hentry, hvalue, ih hi hs]

theorem passes_container {c : Container} {items : List (List Char)} {s : List Char}
    (hi : ∀ p ∈ items, PassesIn c p) (hs : c.Encloses items s) : Passes s := by
  obtain ⟨inside, hlisted, rfl⟩ := hs
  refine ⟨⟨c.opening, _, rfl, by cases c <;> decide⟩, fun around b r hb hr => ?_⟩
  have htoken := skipToken_opens hb c ((inside ++ [c.closing]) ++ r)
  cases hlisted with
  | nil hb' =>
      refine skipValue_closed htoken (skipSpace_eq_cons_iff.2 ⟨inside, hb', ?_, by simp⟩)
      cases c <;> rfl
  | @cons _ l p s' items hl hs =>
      obtain ⟨⟨⟨d, p', rfl, hspace, hlist, hobject⟩, hpasses⟩, hrest⟩ := List.forall_mem_cons.1 hi
      obtain ⟨t, hentry, hvalue⟩ := hpasses around [] _ .nil (hs.stops c r)
      have hd : d ≠ c.closing := by cases c <;> assumption
      have hfirst : skipSpace (((l ++ (d :: p' ++ s')) ++ [c.closing]) ++ r) =
          d :: (p' ++ (s' ++ c.closing :: r)) :=
        skipSpace_eq_cons_iff.2 ⟨l, hl, hspace, by simp⟩
      rw [List.cons_append, skipValue_opened htoken hfirst hd hentry, hvalue,
        passes_rest hrest hs]

/-- **Every value is passed over**, however deep. -/
theorem passes {v : List Char} (hv : IsValue v) : Passes v := by
  refine @IsValue.rec (fun v _ => Passes v) (fun c p _ => PassesIn c p) ?_ ?_ ?_ ?_ ?_ ?_ ?_ ?_ v hv
  -- the keywords
  · refine passes_scalar ⟨'n', _, rfl, by decide⟩ fun b r hb _ => ?_
    rw [skipToken, skipSpace_append hb]
    rfl
  · refine passes_scalar ⟨'t', _, rfl, by decide⟩ fun b r hb _ => ?_
    rw [skipToken, skipSpace_append hb]
    rfl
  · refine passes_scalar ⟨'f', _, rfl, by decide⟩ fun b r hb _ => ?_
    rw [skipToken, skipSpace_append hb]
    rfl
  -- a number, a string and a container
  · intro s hs
    obtain ⟨c, t, rfl, hc⟩ := hs.head
    obtain ⟨hstarts, hn, ht, hf⟩ := starts_of_startsNumber hc t
    refine passes_scalar hstarts fun b r hb hr => ?_
    obtain ⟨_, _, hcons, hspace, -⟩ := hstarts
    cases hcons
    have hnumber : skipNumber (c :: (t ++ r)) = .ok r := skipNumber_complete hs hr
    rw [skipToken, skipSpace_append hb, List.cons_append, skipSpace_cons hspace]
    simp only [if_neg hn, if_neg ht, if_neg hf, hc, if_true, hnumber]
    rfl
  · intro s hs
    refine passes_scalar ⟨'"', _, rfl, by decide⟩ fun b r hb _ => ?_
    have hstring : skipString ((s ++ ['"']) ++ r) = .ok r :=
      skipString_eq_ok_iff.2 ⟨s, by simp, hs⟩
    rw [skipToken, skipSpace_append hb, List.cons_append, skipSpace_cons rfl]
    simp only [hstring]
    rfl
  · exact fun _ hs hi => passes_container hi hs
  -- the items of a list and of an object
  · exact fun _ hv => ⟨hv.1, fun around b r hb hr => ⟨_, rfl, hv.2 _ b r hb hr⟩⟩
  · intro k b b' v hk hb hb' _ hv
    refine ⟨⟨'"', _, rfl, by decide⟩, fun around b₀ r hb₀ hr => ?_⟩
    refine ⟨b' ++ (v ++ r), ?_, hv.2 _ b' r hb' hr⟩
    exact skipKey_eq_ok_iff.2 ⟨b₀, k, b, hb₀, hk, hb, by simp⟩

/-- **What is passed over with no container open is a JSON value.** -/
theorem skipValue_sound {s r : List Char} (h : skipValue [] s = .ok r) :
    ∃ b v, s = b ++ (v ++ r) ∧ IsBlanks b ∧ IsValue v := by
  obtain ⟨b, v, t, rfl, hb, hv, hclose⟩ := (skip_sound s [] r).1 h
  cases hclose
  exact ⟨b, v, rfl, hb, hv⟩

/-- **Every JSON value is passed over.** -/
theorem skipValue_complete {b v r : List Char} (hb : IsBlanks b) (hv : IsValue v) (hr : Stops r) :
    skipValue [] (b ++ (v ++ r)) = .ok r := by
  rw [(passes hv).2 [] b r hb hr, skipNext]

end ClusterWatch.Json
