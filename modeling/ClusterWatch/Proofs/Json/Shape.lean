import ClusterWatch.Proofs.Json.Container

/-!
# Shapes — a shape's reader takes the texts that write its values

`Shape.reads`: the reader of a shape takes off the front of a text exactly what `Shape.Writes`
admits.  The proof goes along the shape, and along the fields of a record in both of its forms: the
row by `Fields.row_reads`, and the object by `Fields.member_follows` with what a draft can become.

While an object is read, `Fields.Takes d m d'` says what the member `m` does to the draft `d`.
`fills_iff` splits a run of members at one field: the members of its name fill its place, and the
others fill the rest.  So a draft that starts blank and ends complete has seen each field exactly
once (`fills_blank_iff`).
-/

namespace ClusterWatch.Json

/-- What a member does to a draft: it fills the place of its name, or is passed over. -/
def Fields.Takes : (fields : Fields) → fields.Draft → String × List Char → fields.Draft → Prop
  | .nil, _, m, _ => IsValue m.2
  | .cons name shape rest, (value, draft), m, (value', draft') =>
    if m.1 = name then
      value = none ∧ draft' = draft ∧ ∃ v, value' = some v ∧ shape.Writes v m.2
    else value' = value ∧ rest.Takes draft m draft'

/-! ### Drafts -/

/-- The place of a field behind the members of its name: as it was, or filled by the only one. -/
def Placed {α : Type} (W : α → List Char → Prop) (name : String) (value : Option α)
    (members : List (String × List Char)) (value' : Option α) : Prop :=
  members = [] ∧ value' = value ∨
    value = none ∧ ∃ s v, members = [(name, s)] ∧ value' = some v ∧ W v s

theorem placed_nil_iff {α : Type} {W : α → List Char → Prop} {name : String}
    {value value' : Option α} : Placed W name value [] value' ↔ value' = value := by
  simp [Placed]

/-- One more member of its name fills a place that nothing else fills. -/
theorem placed_cons_iff {α : Type} {W : α → List Char → Prop} {value value' : Option α}
    {m : String × List Char} {members : List (String × List Char)} :
    Placed W m.1 value (m :: members) value' ↔
      value = none ∧ ∃ v, W v m.2 ∧ Placed W m.1 (some v) members value' := by
  constructor
  · rintro (⟨hnil, -⟩ | ⟨hvalue, s, v, hcons, rfl, hw⟩)
    · cases hnil
    · obtain ⟨hm, rfl⟩ := List.cons.inj hcons
      exact ⟨hvalue, v, by rw [hm]; exact hw, .inl ⟨rfl, rfl⟩⟩
  · rintro ⟨hvalue, v, hw, ⟨rfl, rfl⟩ | ⟨hnone, -⟩⟩
    · exact .inr ⟨hvalue, m.2, v, rfl, rfl, hw⟩
    · cases hnone

theorem fills_iff {name : String} {shape : Shape} {rest : Fields}
    {members : List (String × List Char)} {value value' : Option shape.Value}
    {draft draft' : rest.Draft} :
    Fills (Fields.cons name shape rest).Takes (value, draft) members (value', draft') ↔
      Placed shape.Writes name value (members.filter (·.1 = name)) value' ∧
        Fills rest.Takes draft (members.filter (·.1 ≠ name)) draft' := by
  induction members generalizing value draft with
  | nil =>
      constructor
      · rintro ⟨⟩
        exact ⟨placed_nil_iff.2 rfl, .nil⟩
      · rintro ⟨hplaced, ⟨⟩⟩
        obtain rfl := placed_nil_iff.1 hplaced
        exact .nil
  | cons m members ih =>
      by_cases h : m.1 = name
      · -- a member of the field's name: the place was empty, and is filled now
        subst h
        rw [List.filter_cons_of_pos (by simp), List.filter_cons_of_neg (by simp), placed_cons_iff]
        constructor
        · intro hfills
          cases hfills with
          | @cons _ d _ _ _ hm hms =>
              obtain ⟨value₁, draft₁⟩ := d
              rw [Fields.Takes, if_pos rfl] at hm
              obtain ⟨hvalue, rfl, v, rfl, hw⟩ := hm
              obtain ⟨hplaced, hrest⟩ := ih.1 hms
              exact ⟨⟨hvalue, v, hw, hplaced⟩, hrest⟩
        · rintro ⟨⟨hvalue, v, hw, hplaced⟩, hrest⟩
          have hm : (Fields.cons m.1 shape rest).Takes (value, draft) m (some v, draft) := by
            rw [Fields.Takes, if_pos rfl]
            exact ⟨hvalue, rfl, v, rfl, hw⟩
          exact .cons hm (ih.2 ⟨hplaced, hrest⟩)
      · rw [List.filter_cons_of_neg (by simpa using h), List.filter_cons_of_pos (by simpa using h)]
        constructor
        · intro hfills
          cases hfills with
          | @cons _ d _ _ _ hm hms =>
              obtain ⟨value₁, draft₁⟩ := d
              rw [Fields.Takes, if_neg h] at hm
              obtain ⟨rfl, hm⟩ := hm
              obtain ⟨hplaced, hrest⟩ := ih.1 hms
              exact ⟨hplaced, .cons hm hrest⟩
        · rintro ⟨hplaced, hrest⟩
          cases hrest with
          | @cons _ draft₁ _ _ _ hm hms =>
              have hm' : (Fields.cons name shape rest).Takes (value, draft) m (value, draft₁) := by
                rw [Fields.Takes, if_neg h]
                exact ⟨rfl, hm⟩
              exact .cons hm' (ih.2 ⟨hplaced, hms⟩)

theorem complete_eq_ok_iff {name : String} {shape : Shape} {rest : Fields}
    {value : Option shape.Value} {draft : rest.Draft} {v : shape.Value} {vs : rest.Values} :
    (Fields.cons name shape rest).complete (value, draft) = .ok (v, vs) ↔
      value = some v ∧ rest.complete draft = .ok vs := by
  cases value with
  | none => simp [Fields.complete]
  | some v' =>
      simp only [Fields.complete]
      cases rest.complete draft with
      | error absent => simp
      | ok vs' =>
          constructor
          · intro h
            obtain ⟨rfl, rfl⟩ := Prod.mk.inj (Except.ok.inj h)
            exact ⟨rfl, rfl⟩
          · rintro ⟨⟨⟩, ⟨⟩⟩
            rfl

theorem fills_nil_iff {members : List (String × List Char)} :
    Fills Fields.nil.Takes () members () ↔ ∀ m ∈ members, IsValue m.2 := by
  induction members with
  | nil => exact ⟨fun _ _ hm => absurd hm List.not_mem_nil, fun _ => .nil⟩
  | cons m members ih =>
      rw [List.forall_mem_cons, ← ih]
      constructor
      · intro hfills
        cases hfills with
        | cons hm hms => exact ⟨hm, hms⟩
      · rintro ⟨hm, hms⟩
        exact .cons hm hms

/-- **A draft becomes complete by exactly one member for each field**, and by JSON values of any
kind under other names. -/
theorem fills_blank_iff : (fields : Fields) → (members : List (String × List Char)) →
    (vs : fields.Values) →
    ((∃ d, Fills fields.Takes fields.blank members d ∧ fields.complete d = .ok vs) ↔
      fields.Members vs members)
  | .nil, members, () => by
    constructor
    · rintro ⟨⟨⟩, hfills, -⟩
      exact fills_nil_iff.1 hfills
    · exact fun h => ⟨(), fills_nil_iff.2 h, rfl⟩
  | .cons name shape rest, members, (v, vs) => by
    have ih := fills_blank_iff rest (members.filter (·.1 ≠ name)) vs
    rw [Fields.Members, ← ih]
    constructor
    · rintro ⟨⟨value, draft⟩, hfills, hcomplete⟩
      obtain ⟨hplaced, hrest⟩ := fills_iff.1 hfills
      obtain ⟨rfl, hdraft⟩ := complete_eq_ok_iff.1 hcomplete
      rcases hplaced with ⟨-, hnone⟩ | ⟨-, s, v', hfilter, hv, hw⟩
      · cases hnone
      · obtain rfl := Option.some.inj hv
        exact ⟨⟨s, hfilter, hw⟩, draft, hrest, hdraft⟩
    · rintro ⟨⟨s, hfilter, hw⟩, draft, hrest, hdraft⟩
      refine ⟨(some v, draft), fills_iff.2 ⟨?_, hrest⟩, complete_eq_ok_iff.2 ⟨rfl, hdraft⟩⟩
      exact .inr ⟨rfl, s, v, hfilter, rfl, hw⟩

/-- What completes a blank draft is an object with each field exactly once. -/
theorem completes_blank (fields : Fields) :
    Completes fields.Takes fields.complete fields.blank = fun vs items =>
      ∃ members, List.Forall₂ IsMember members items ∧ fields.Members vs members := by
  funext vs items
  simp only [Completes, fills_blank_iff]

/-! ### The readers -/

/-- What is done with a part of a draft takes the draft where it takes the part. -/
theorem Member.Follows.map {δ ε : Type} {m : Member δ} {d : δ} {f : δ → ε}
    {T : δ → List Char → Prop} {V : ε → List Char → Prop} (h : m.Follows d T)
    (hV : ∀ e v, V e v ↔ ∃ d', f d' = e ∧ T d' v) : (m.map f).Follows (f d) V := by
  cases m with
  | unknown =>
      intro e v
      rw [hV]
      constructor
      · rintro ⟨d', rfl, hT⟩
        obtain ⟨rfl, hv⟩ := (h d' v).1 hT
        exact ⟨rfl, hv⟩
      · rintro ⟨rfl, hv⟩
        exact ⟨d, rfl, (h d v).2 ⟨rfl, hv⟩⟩
  | duplicate =>
      intro e v hVe
      obtain ⟨d', -, hT⟩ := (hV e v).1 hVe
      exact h d' v hT
  | known reader => exact Reads.map h hV

section Member

variable {name : String} {shape : Shape} {rest : Fields} {draft : rest.Draft}

theorem member_duplicate (v : shape.Value) :
    (Fields.cons name shape rest).member name (some v, draft) = .duplicate :=
  if_pos rfl

theorem member_known :
    (Fields.cons name shape rest).member name (none, draft) =
      .known (shape.reader.map fun v => (some v, draft)) :=
  if_pos rfl

theorem member_other {key : String} (h : key ≠ name) (value : Option shape.Value) :
    (Fields.cons name shape rest).member key (value, draft) =
      (rest.member key draft).map fun draft => (value, draft) :=
  if_neg h

theorem member_follows_cons (hshape : Reads shape.reader.run shape.Writes)
    (hrest : ∀ key d, (rest.member key d).Follows d fun d' v => rest.Takes d (key, v) d')
    (key : String) : (d : (Fields.cons name shape rest).Draft) →
      ((Fields.cons name shape rest).member key d).Follows d fun d' v =>
        (Fields.cons name shape rest).Takes d (key, v) d'
  | (value, draft) => by
    by_cases h : key = name
    · subst h
      cases value with
      | some v =>
          rw [member_duplicate]
          rintro ⟨value', draft'⟩ s hT
          rw [Fields.Takes, if_pos rfl] at hT
          cases hT.1
      | none =>
          rw [member_known]
          refine hshape.map fun d' s => ?_
          obtain ⟨value', draft'⟩ := d'
          rw [Fields.Takes, if_pos rfl]
          constructor
          · rintro ⟨-, rfl, v, rfl, hw⟩
            exact ⟨v, rfl, hw⟩
          · rintro ⟨v, heq, hw⟩
            obtain ⟨rfl, rfl⟩ := Prod.mk.inj heq
            exact ⟨rfl, rfl, v, rfl, hw⟩
    · rw [member_other h]
      refine (hrest key draft).map fun d' s => ?_
      obtain ⟨value', draft'⟩ := d'
      rw [Fields.Takes, if_neg h]
      constructor
      · rintro ⟨rfl, hT⟩
        exact ⟨draft', rfl, hT⟩
      · rintro ⟨d, heq, hT⟩
        obtain ⟨rfl, rfl⟩ := Prod.mk.inj heq
        exact ⟨rfl, hT⟩

end Member

mutual

/-- **The reader of a shape takes exactly the texts that write its values.** -/
theorem Shape.reads : (shape : Shape) → Reads shape.reader.run shape.Writes
  | .count => count_reads
  | .text => text_reads
  | .list item => (elements_read (Shape.reads item) true).reads "a sequence"
  | .record name fields => by
    have hobject : ReadsItems .object true
        (readMembers fields.member fields.complete true fields.blank)
        (Completes fields.Takes fields.complete fields.blank) :=
      members_read (Fields.member_follows fields) true fields.blank
    rw [completes_blank] at hobject
    have hrow := Fields.row_reads fields ⟨"struct " ++ name, fields.names.length, 0⟩
    exact record_reads hobject hrow ("struct " ++ name)

/-- The reader of a row takes exactly the lists of its fields. -/
theorem Fields.row_reads : (fields : Fields) → (row : Row) →
    ReadsItems .list (row.filled = 0) (fields.row row).run fields.Row
  | .nil, row => noMoreCells_reads (row.filled = 0)
  | .cons _ shape rest, row =>
    cell_reads row (Shape.reads shape) (Fields.row_reads rest { row with filled := row.filled + 1 })

/-- What is done with the value of a key is what a member of that name does to the draft. -/
theorem Fields.member_follows : (fields : Fields) → (key : String) → (d : fields.Draft) →
    (fields.member key d).Follows d fun d' v => fields.Takes d (key, v) d'
  | .nil, _, () => fun _ _ => ⟨fun h => ⟨rfl, h⟩, fun h => h.2⟩
  | .cons _ shape rest, key, d =>
    member_follows_cons (Shape.reads shape) (Fields.member_follows rest) key d

end

/-- A null is no record. -/
theorem Shape.read_null (name : String) (fields : Fields) {b : List Char} (hb : IsBlanks b)
    (r : List Char) :
    (Shape.record name fields).reader.run (b ++ (['n', 'u', 'l', 'l'] ++ r)) =
      .error (.behind (.wrongKind .null ("struct " ++ name)) r) := by
  rw [Shape.reader]
  change readRecord _ _ _ _ = _
  rw [readRecord, skipSpace_append hb, List.cons_append, skipSpace_cons rfl]
  rfl

end ClusterWatch.Json
