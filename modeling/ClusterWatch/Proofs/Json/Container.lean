import ClusterWatch.Proofs.Json.Skip

/-!
# Containers — what the readers of lists and objects take

`ReadsItems c first run W` says that `run` reads the items of a container up to its closing bracket
and gives what `W` admits of them; `first` says whether it begins behind the opening bracket.  It is
shown for the elements of a list (`elements_read`), for the members of an object (`members_read`)
and for the fields of a row, one by one (`cell_reads`, `noMoreCells_reads`).  With the bracket
before it such a reader reads a value (`ReadsItems.reads`, `record_reads`).

What is known of an object while it is read changes with each member.  `Fills T d members d'` says
that the members take it from `d` to `d'`, when `T` says what one does.
-/

namespace ClusterWatch.Json

/-- A reader reads the items of a container up to its closing bracket. -/
structure ReadsItems {α : Type} (c : Container) (first : Bool) (run : List Char → Reading α)
    (W : α → List (List Char) → Prop) : Prop where
  /-- What it takes lists items that are admitted. -/
  sound : ∀ {s r a}, run s = .ok (a, r) →
    ∃ items inside, s = inside ++ c.closing :: r ∧ Listed first items inside ∧ W a items
  /-- It takes a list of items that are admitted. -/
  complete : ∀ {items inside a} (r : List Char), Listed first items inside → W a items →
    run (inside ++ c.closing :: r) = .ok (a, r)

/-- A container begins with its bracket. -/
theorem Container.Encloses.starts {c : Container} {items : List (List Char)} {s : List Char}
    (h : c.Encloses items s) : Starts s := by
  obtain ⟨inside, -, rfl⟩ := h
  exact ⟨c.opening, _, rfl, by cases c <;> decide⟩

/-- With its opening bracket before them, the items make a value. -/
theorem ReadsItems.reads {α : Type} {c : Container} {run : List Char → Reading α}
    {W : α → List (List Char) → Prop} (h : ReadsItems c true run W) (want : String) :
    Reads (readBehind c.opening run want) fun a w => ∃ items, c.Encloses items w ∧ W a items where
  sound := by
    intro s r a hs
    obtain ⟨b, t, rfl, hb, ht⟩ := (readBehind_eq_ok_iff (by cases c <;> rfl)).1 hs
    obtain ⟨items, inside, rfl, hlisted, hw⟩ := h.sound ht
    exact ⟨b, _, by simp, hb, items, ⟨inside, hlisted, rfl⟩, hw⟩
  complete := by
    rintro b w r a hb ⟨items, ⟨inside, hlisted, rfl⟩, hw⟩ -
    refine (readBehind_eq_ok_iff (by cases c <;> rfl)).2
      ⟨b, inside ++ c.closing :: r, by simp, hb, ?_⟩
    exact h.complete r hlisted hw
  starts := by
    rintro a w ⟨items, henc, -⟩
    exact henc.starts

/-! ### Elements of a list -/

/-- A list is at its end where its bracket stands behind blanks. -/
theorem nextElement_closed_iff {first : Bool} {s r : List Char} :
    nextElement first s = .ok (.closed r) ↔ ∃ b, IsBlanks b ∧ s = b ++ ']' :: r := by
  refine ⟨fun h => ?_, ?_⟩
  · simp only [nextElement] at h
    split at h
    · cases h
    next c t hs =>
      split at h
      next hc =>
        cases h
        obtain ⟨b, hb, -, rfl⟩ := skipSpace_eq_cons_iff.1 hs
        exact ⟨b, hb, by rw [hc]⟩
      next =>
        split at h
        · cases h
        · split at h
          · split at h
            · cases h
            · split at h <;> cases h
          · cases h
  · rintro ⟨b, hb, rfl⟩
    rw [nextElement, skipSpace_append hb, skipSpace_cons rfl]
    rfl

/-- An element is found behind what leads to it. -/
theorem nextElement_sound {first : Bool} {s r : List Char}
    (h : nextElement first s = .ok (.element r)) : ∃ l, IsLead first l ∧ s = l ++ r := by
  simp only [nextElement] at h
  split at h
  · cases h
  next c t hs =>
    obtain ⟨b, hb, -, rfl⟩ := skipSpace_eq_cons_iff.1 hs
    split at h
    · cases h
    split at h
    next hfirst =>
      cases h
      exact ⟨b, by rwa [hfirst], rfl⟩
    next hfirst =>
      split at h
      next hc =>
        split at h
        · cases h
        next d t' ht =>
          obtain ⟨b', hb', -, rfl⟩ := skipSpace_eq_cons_iff.1 ht
          split at h
          · cases h
          · cases h
            rw [Bool.eq_false_iff.2 hfirst]
            exact ⟨b ++ ',' :: b', ⟨b, b', hb, hb', rfl⟩, by simp [hc]⟩
      next => cases h

theorem nextElement_complete {first : Bool} {l p : List Char} (hl : IsLead first l)
    (hp : Starts p) : nextElement first (l ++ p) = .ok (.element p) := by
  obtain ⟨c, t, rfl, hc, hlist, -⟩ := hp
  cases first with
  | true =>
      have hl : IsBlanks l := hl
      rw [nextElement, skipSpace_append hl, skipSpace_cons hc]
      simp [hlist]
  | false =>
      obtain ⟨b, b', hb, hb', rfl⟩ := hl
      rw [nextElement, List.append_assoc, skipSpace_append hb, List.cons_append,
        skipSpace_cons rfl]
      simp [skipSpace_append hb', skipSpace_cons hc, hlist]

theorem readElements_closed {α : Type} {item : Reader α} {first : Bool} {s r : List Char}
    (hn : nextElement first s = .ok (.closed r)) : readElements item first s = .ok ([], r) := by
  rw [readElements]
  split
  next hn' => cases hn.symm.trans hn'
  next hn' =>
    cases hn.symm.trans hn'
    rfl
  next hn' => cases hn.symm.trans hn'

theorem readElements_element {α : Type} {item : Reader α} {first : Bool} {s r₁ r₂ r : List Char}
    {a : α} {as : List α} (hn : nextElement first s = .ok (.element r₁))
    (ha : item.run r₁ = .ok (a, r₂)) (has : readElements item false r₂ = .ok (as, r)) :
    readElements item first s = .ok (a :: as, r) := by
  rw [readElements]
  split
  next hn' => cases hn.symm.trans hn'
  next hn' => cases hn.symm.trans hn'
  next hn' =>
    cases hn.symm.trans hn'
    split
    next ha' => cases ha.symm.trans ha'
    next ha' =>
      cases ha.symm.trans ha'
      rw [has]

/-- **The elements of a list are read one by one**, with what separates them. -/
theorem elements_read {α : Type} {item : Reader α} {W : α → List Char → Prop}
    (h : Reads item.run W) (first : Bool) :
    ReadsItems .list first (readElements item first) (List.Forall₂ W) := by
  refine ⟨fun {s r as} hs => ?_, fun {items inside as} r hlisted hw => ?_⟩
  · fun_induction readElements item first s generalizing as with
    | case1 => cases hs
    | case2 first s r' hn =>
        cases hs
        obtain ⟨b, hb, rfl⟩ := nextElement_closed_iff.1 hn
        exact ⟨[], b, rfl, .nil hb, .nil⟩
    | case3 => cases hs
    | case4 => cases hs
    | case5 first s r₁ hn a r₂ ha as' r₃ hr ih =>
        cases hs
        obtain ⟨l, hl, rfl⟩ := nextElement_sound hn
        obtain ⟨b, w, rfl, hb, hw⟩ := h.sound ha
        obtain ⟨items, inside, rfl, hlisted, hws⟩ := ih hr
        exact ⟨w :: items, (l ++ b) ++ (w ++ inside), by simp, .cons (hl.append hb) hlisted,
          .cons hw hws⟩
  · induction hw generalizing first inside with
    | nil =>
        cases hlisted with
        | nil hb =>
            exact readElements_closed (nextElement_closed_iff.2 ⟨inside, hb, rfl⟩)
    | @cons a w as items hw hws ih =>
        cases hlisted with
        | @cons _ l _ inside _ hl hs =>
            have hn := nextElement_complete hl ((h.starts hw).append (inside ++ ']' :: r))
            have hitem := h.complete .nil hw (hs.stops .list r)
            rw [List.append_assoc, List.append_assoc]
            exact readElements_element hn hitem (ih false hs)

/-! ### Fields of a row -/

/-- A row that has all its cells takes no more. -/
theorem noMoreCells_reads (first : Bool) :
    ReadsItems .list first Reader.noMoreCells.run fun _ items => items = [] := by
  refine ⟨fun {s r a} h => ?_, fun {items inside a} r hlisted hitems => ?_⟩
  · change endOfList s = .ok (a, r) at h
    simp only [endOfList] at h
    split at h
    · cases h
    next c t hs =>
      split at h
      next hc =>
        cases h
        obtain ⟨b, hb, -, rfl⟩ := skipSpace_eq_cons_iff.1 hs
        exact ⟨[], b, by rw [hc]; rfl, .nil hb, rfl⟩
      next =>
        split at h
        · split at h <;> cases h
        · cases h
  · subst hitems
    cases hlisted with
    | nil hb =>
        change endOfList (inside ++ ']' :: r) = .ok ((), r)
        rw [endOfList, skipSpace_append hb, skipSpace_cons rfl]
        rfl

/-- A cell of a row is read, and then the cells behind it. -/
theorem cell_reads {α β : Type} (row : Row) {head : Reader α} {tail : Reader β}
    {W : α → List Char → Prop} {V : β → List (List Char) → Prop} (hhead : Reads head.run W)
    (htail : ReadsItems .list false tail.run V) :
    ReadsItems .list (row.filled = 0) (Reader.cell row head tail).run fun ab items =>
      ∃ s ss, items = s :: ss ∧ W ab.1 s ∧ V ab.2 ss := by
  refine ⟨fun {s r ab} h => ?_, fun {items inside ab} r hlisted hitems => ?_⟩
  · simp only [Reader.cell] at h
    split at h
    · cases h
    · cases h
    next r₁ hn =>
      split at h
      · cases h
      next a r₂ ha =>
        split at h
        · cases h
        next b r₃ hb =>
          cases h
          obtain ⟨l, hl, rfl⟩ := nextElement_sound hn
          obtain ⟨bs, w, rfl, hbs, hw⟩ := hhead.sound ha
          obtain ⟨items, inside, rfl, hlisted, hv⟩ := htail.sound hb
          exact ⟨w :: items, (l ++ bs) ++ (w ++ inside), by simp, .cons (hl.append hbs) hlisted, w,
            items, rfl, hw, hv⟩
  · obtain ⟨w, ss, rfl, hw, hv⟩ := hitems
    cases hlisted with
    | @cons _ l _ inside _ hl hs =>
        have hn := nextElement_complete hl
          ((hhead.starts hw).append (inside ++ Container.list.closing :: r))
        have ha := hhead.complete .nil hw (hs.stops .list r)
        have hb := htail.complete r hs hv
        rw [List.nil_append] at ha
        rw [List.append_assoc, List.append_assoc]
        simp only [Reader.cell, hn, ha, hb]

/-! ### Members of an object -/

/-- An object is at its end where its brace stands behind blanks. -/
theorem nextKey_closed_iff {first : Bool} {s r : List Char} :
    nextKey first s = .ok (.closed r) ↔ ∃ b, IsBlanks b ∧ s = b ++ '\x7d' :: r := by
  refine ⟨fun h => ?_, ?_⟩
  · simp only [nextKey] at h
    split at h
    · cases h
    next c t hs =>
      split at h
      next hc =>
        cases h
        obtain ⟨b, hb, -, rfl⟩ := skipSpace_eq_cons_iff.1 hs
        exact ⟨b, hb, by rw [hc]⟩
      next =>
        split at h
        · split at h <;> cases h
        · split at h
          · split at h
            · cases h
            · split at h
              · cases h
              · split at h <;> cases h
          · cases h
  · rintro ⟨b, hb, rfl⟩
    rw [nextKey, skipSpace_append hb, skipSpace_cons rfl]
    rfl

/-- A member is found by the quote of its key, behind what leads to it. -/
theorem nextKey_element_iff {first : Bool} {s r : List Char} :
    nextKey first s = .ok (.element r) ↔ ∃ l, IsLead first l ∧ s = l ++ '"' :: r := by
  refine ⟨fun h => ?_, ?_⟩
  · simp only [nextKey] at h
    split at h
    · cases h
    next c t hs =>
      obtain ⟨b, hb, -, rfl⟩ := skipSpace_eq_cons_iff.1 hs
      split at h
      · cases h
      split at h
      next hfirst =>
        split at h
        next hc =>
          cases h
          exact ⟨b, by rwa [hfirst], by rw [hc]⟩
        next => cases h
      next hfirst =>
        split at h
        next hc =>
          split at h
          · cases h
          next d t' ht =>
            obtain ⟨b', hb', -, rfl⟩ := skipSpace_eq_cons_iff.1 ht
            split at h
            next hd =>
              cases h
              rw [Bool.eq_false_iff.2 hfirst]
              exact ⟨b ++ ',' :: b', ⟨b, b', hb, hb', rfl⟩, by simp [hc, hd]⟩
            next => split at h <;> cases h
        next => cases h
  · rintro ⟨l, hl, rfl⟩
    cases first with
    | true =>
        have hl : IsBlanks l := hl
        rw [nextKey, skipSpace_append hl, skipSpace_cons rfl]
        rfl
    | false =>
        obtain ⟨b, b', hb, hb', rfl⟩ := hl
        have hkey : skipSpace (b' ++ '"' :: r) = '"' :: r :=
          skipSpace_eq_cons_iff.2 ⟨b', hb', rfl, rfl⟩
        rw [nextKey, List.append_assoc, skipSpace_append hb, List.cons_append, skipSpace_cons rfl]
        simp [hkey]

/-- What is done with the value of a key takes what is known from `d` to what `T` says. -/
def Member.Follows {δ : Type} (m : Member δ) (d : δ) (T : δ → List Char → Prop) : Prop :=
  match m with
  | unknown => ∀ d' v, T d' v ↔ d' = d ∧ IsValue v
  | duplicate => ∀ d' v, ¬ T d' v
  | known reader => Reads reader.run T

/-- The members of an object, one by one, take what is known from one end to the other. -/
inductive Fills {δ : Type} (T : δ → String × List Char → δ → Prop) :
    δ → List (String × List Char) → δ → Prop
  | nil {d : δ} : Fills T d [] d
  | cons {d d' d'' : δ} {m : String × List Char} {ms : List (String × List Char)}
      (hm : T d m d') (hms : Fills T d' ms d'') : Fills T d (m :: ms) d''

/-- The members that `items` write take what is known from `d` to what completes to `a`. -/
def Completes {δ α : Type} (T : δ → String × List Char → δ → Prop)
    (complete : δ → Except String α) (d : δ) (a : α) (items : List (List Char)) : Prop :=
  ∃ members, List.Forall₂ IsMember members items ∧ ∃ d', Fills T d members d' ∧
    complete d' = .ok a

section Members

variable {δ α : Type} {member : String → δ → Member δ} {complete : δ → Except String α}
  {first : Bool} {d d' : δ} {s r₁ r₂ r₃ r₄ r : List Char} {key : List Char} {a : α}

theorem readMembers_closed (hn : nextKey first s = .ok (.closed r)) (hc : complete d = .ok a) :
    readMembers member complete first d s = .ok (a, r) := by
  rw [readMembers]
  split
  next hn' => cases hn.symm.trans hn'
  next hn' =>
    cases hn.symm.trans hn'
    simp only [hc]
  next hn' => cases hn.symm.trans hn'

/-- A member of a name that is not known is passed over. -/
theorem readMembers_unknown (hn : nextKey first s = .ok (.element r₁))
    (hk : readString r₁ = .ok (key, r₂)) (hm : member (String.ofList key) d = .unknown)
    (hc : readColon r₂ = .ok r₃) (hv : skipValue [] r₃ = .ok r₄) :
    readMembers member complete first d s = readMembers member complete false d r₄ := by
  rw [readMembers]
  split
  next hn' => cases hn.symm.trans hn'
  next hn' => cases hn.symm.trans hn'
  next hn' =>
    cases hn.symm.trans hn'
    split
    next hk' => cases hk.symm.trans hk'
    next hk' =>
      cases hk.symm.trans hk'
      split
      next hm' => cases hm.symm.trans hm'
      next =>
        split
        next hc' => cases hc.symm.trans hc'
        next hc' =>
          cases hc.symm.trans hc'
          split
          next hv' => cases hv.symm.trans hv'
          next hv' =>
            cases hv.symm.trans hv'
            rfl
      next hm' => cases hm.symm.trans hm'

/-- A key whose value is read into the draft. -/
theorem readMembers_value {reader : Reader δ} (hn : nextKey first s = .ok (.element r₁))
    (hk : readString r₁ = .ok (key, r₂)) (hm : member (String.ofList key) d = .known reader)
    (hc : readColon r₂ = .ok r₃) :
    readMembers member complete first d s =
      match reader.run r₃ with
      | .error e => .error e
      | .ok (d', r₄) => readMembers member complete false d' r₄ := by
  rw [readMembers]
  split
  next hn' => cases hn.symm.trans hn'
  next hn' => cases hn.symm.trans hn'
  next hn' =>
    cases hn.symm.trans hn'
    split
    next hk' => cases hk.symm.trans hk'
    next hk' =>
      cases hk.symm.trans hk'
      split
      next hm' => cases hm.symm.trans hm'
      next hm' => cases hm.symm.trans hm'
      next hm' =>
        cases hm.symm.trans hm'
        split
        next hc' => cases hc.symm.trans hc'
        next hc' =>
          cases hc.symm.trans hc'
          split
          next hv => rw [hv]
          next hv => rw [hv]

variable {T : δ → String × List Char → δ → Prop}

/-- One member, from its key on. -/
theorem readMembers_member
    (hfollows : ∀ key d, (member key d).Follows d fun d' v => T d (key, v) d')
    {l p : List Char} {m : String × List Char} (hl : IsLead first l) (hp : IsMember m p)
    (hm : T d m d') (hr : Stops r) :
    readMembers member complete first d (l ++ (p ++ r)) =
      readMembers member complete false d' r := by
  obtain ⟨name, v⟩ := m
  obtain ⟨k, b, b', hk, hb, hb', rfl⟩ := hp
  have hn : nextKey first (l ++ '"' :: (k ++ '"' :: (b ++ ':' :: (b' ++ (v ++ r))))) =
      .ok (.element (k ++ '"' :: (b ++ ':' :: (b' ++ (v ++ r))))) :=
    nextKey_element_iff.2 ⟨l, hl, rfl⟩
  have hstring : readString (k ++ '"' :: (b ++ ':' :: (b' ++ (v ++ r)))) =
      .ok (name.toList, b ++ ':' :: (b' ++ (v ++ r))) := readString_eq_ok_iff.2 ⟨k, rfl, hk⟩
  have hcolon : readColon (b ++ ':' :: (b' ++ (v ++ r))) = .ok (b' ++ (v ++ r)) :=
    readColon_eq_ok_iff.2 ⟨b, hb, rfl⟩
  have htext : l ++ (('"' :: (k ++ '"' :: (b ++ ':' :: (b' ++ v)))) ++ r) =
      l ++ '"' :: (k ++ '"' :: (b ++ ':' :: (b' ++ (v ++ r)))) := by simp
  have hname : member (String.ofList name.toList) d = member name d := by rw [String.ofList_toList]
  have hf := hfollows name d
  rw [htext]
  cases hmem : member name d with
  | unknown =>
      rw [hmem] at hf hname
      obtain ⟨rfl, hv⟩ := (hf d' v).1 hm
      exact readMembers_unknown hn hstring hname hcolon (skipValue_complete hb' hv hr)
  | duplicate =>
      rw [hmem] at hf
      exact absurd hm (hf d' v)
  | known reader =>
      rw [hmem] at hf hname
      rw [readMembers_value hn hstring hname hcolon, Reads.complete hf hb' hm hr]

/-- One member more, in front of those that are listed. -/
theorem Completes.cons {l k b b' v inside : List Char} {items : List (List Char)}
    (hl : IsLead first l) (hk : Spells key k) (hb : IsBlanks b) (hb' : IsBlanks b')
    (hm : T d (String.ofList key, v) d') (hlisted : Listed false items inside)
    (h : Completes T complete d' a items) :
    ∃ items inside', l ++ '"' :: (k ++ '"' :: (b ++ ':' :: (b' ++ (v ++ (inside ++ '\x7d' :: r))))) =
        inside' ++ Container.object.closing :: r ∧
      Listed first items inside' ∧ Completes T complete d a items := by
  obtain ⟨members, hmembers, d'', hfills, hcomplete⟩ := h
  have hmember : IsMember (String.ofList key, v)
      ('"' :: (k ++ '"' :: (b ++ ':' :: (b' ++ v)))) :=
    ⟨k, b, b', by rwa [String.toList_ofList], hb, hb', rfl⟩
  refine ⟨_ :: items, l ++ (('"' :: (k ++ '"' :: (b ++ ':' :: (b' ++ v)))) ++ inside),
    by simp [Container.closing], .cons hl hlisted, ?_⟩
  exact ⟨_, .cons hmember hmembers, d'', .cons hm hfills, hcomplete⟩

/-- **The members of an object are read one by one**, each into what was read before it. -/
theorem members_read (hfollows : ∀ key d, (member key d).Follows d fun d' v => T d (key, v) d')
    (first : Bool) (d : δ) :
    ReadsItems .object first (readMembers member complete first d) (Completes T complete d) := by
  refine ⟨fun {s r a} hs => ?_, fun {items inside a} r hlisted hw => ?_⟩
  · fun_induction readMembers member complete first d s with
    | case1 => cases hs
    | case2 => cases hs
    | case3 first d s r' hn a' hc =>
        cases hs
        obtain ⟨b, hb, rfl⟩ := nextKey_closed_iff.1 hn
        exact ⟨[], b, rfl, .nil hb, [], .nil, d, .nil, hc⟩
    | case4 => cases hs
    | case5 => cases hs
    | case6 => cases hs
    | case7 => cases hs
    | case8 first d s r₁ hn key r₂ hk hm r₃ hc r₄ hv ih =>
        -- a key that is not known: its value is passed over, and the draft stays as it is
        obtain ⟨l, hl, rfl⟩ := nextKey_element_iff.1 hn
        obtain ⟨k, rfl, hspell⟩ := readString_eq_ok_iff.1 hk
        obtain ⟨b, hb, rfl⟩ := readColon_eq_ok_iff.1 hc
        obtain ⟨b', v, rfl, hb', hvalue⟩ := skipValue_sound hv
        obtain ⟨items, inside, rfl, hlisted, hrest⟩ := ih hs
        have hf := hfollows (String.ofList key) d
        rw [hm] at hf
        exact hrest.cons hl hspell hb hb' ((hf d v).2 ⟨rfl, hvalue⟩) hlisted
    | case9 => cases hs
    | case10 => cases hs
    | case11 first d s r₁ hn key r₂ hk reader hm r₃ hc d₁ r₄ hv ih =>
        -- a key whose value is read into the draft
        obtain ⟨l, hl, rfl⟩ := nextKey_element_iff.1 hn
        obtain ⟨k, rfl, hspell⟩ := readString_eq_ok_iff.1 hk
        obtain ⟨b, hb, rfl⟩ := readColon_eq_ok_iff.1 hc
        have hf := hfollows (String.ofList key) d
        rw [hm] at hf
        obtain ⟨b', v, rfl, hb', hvalue⟩ := Reads.sound hf hv
        obtain ⟨items, inside, rfl, hlisted, hrest⟩ := ih hs
        exact hrest.cons hl hspell hb hb' hvalue hlisted
  · obtain ⟨members, hmembers, d', hfills, hcomplete⟩ := hw
    induction hmembers generalizing first d inside with
    | nil =>
        cases hlisted with
        | nil hb =>
            cases hfills
            exact readMembers_closed (nextKey_closed_iff.2 ⟨inside, hb, rfl⟩) hcomplete
    | @cons m p members items hmember _ ih =>
        cases hlisted with
        | @cons _ l _ inside _ hl hs =>
            cases hfills with
            | @cons _ d₁ _ _ _ hm hms =>
                rw [List.append_assoc, List.append_assoc,
                  readMembers_member hfollows hl hmember hm (hs.stops .object r)]
                exact ih false d₁ hs hms

end Members

/-! ### Records -/

/-- A record is read from an object or from a row. -/
theorem record_reads {α : Type} {object row : List Char → Reading α}
    {W V : α → List (List Char) → Prop} (hobject : ReadsItems .object true object W)
    (hrow : ReadsItems .list true row V) (want : String) :
    Reads (readRecord object row want) fun a s =>
      (∃ items, Container.list.Encloses items s ∧ V a items) ∨
        ∃ items, Container.object.Encloses items s ∧ W a items where
  sound := by
    intro s r a h
    simp only [readRecord] at h
    split at h
    · cases h
    next c t hs =>
      obtain ⟨b, hb, -, rfl⟩ := skipSpace_eq_cons_iff.1 hs
      split at h
      next hc =>
        obtain ⟨items, inside, rfl, hlisted, hw⟩ := hobject.sound h
        exact ⟨b, _, by simp [hc]; rfl, hb, .inr ⟨items, ⟨inside, hlisted, rfl⟩, hw⟩⟩
      next =>
        split at h
        next hc =>
          obtain ⟨items, inside, rfl, hlisted, hv⟩ := hrow.sound h
          exact ⟨b, _, by simp [hc]; rfl, hb, .inl ⟨items, ⟨inside, hlisted, rfl⟩, hv⟩⟩
        next => cases h
  complete := by
    rintro b w r a hb (⟨items, ⟨inside, hlisted, rfl⟩, hv⟩ | ⟨items, ⟨inside, hlisted, rfl⟩, hw⟩) -
    · have hread := hrow.complete r hlisted hv
      rw [readRecord, skipSpace_append hb, List.cons_append, skipSpace_cons rfl, List.append_assoc]
      exact hread
    · have hread := hobject.complete r hlisted hw
      rw [readRecord, skipSpace_append hb, List.cons_append, skipSpace_cons rfl, List.append_assoc]
      exact hread
  starts := by
    rintro a w (⟨items, henc, -⟩ | ⟨items, henc, -⟩)
    · exact henc.starts
    · exact henc.starts

end ClusterWatch.Json
