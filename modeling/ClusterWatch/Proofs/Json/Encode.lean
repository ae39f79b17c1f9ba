import ClusterWatch.Proofs.Json.Document

/-!
# Encoding — a value of a shape as a document

`shape.document v` is the value `v` as a document: each record is the object of its fields in their
order.  If no record has two fields of one name (`Shape.Proper`), the document is written as a text
that writes the value (`Shape.writes_document`), and a record still is when its object has other
members behind the fields (`Fields.members_documents` with `Shape.writes_object`).

With the reader of the shape this is a round trip, since the reader takes all texts that write a
value and nothing else.
-/

namespace ClusterWatch.Json

mutual

/-- A value of a shape as a document. -/
def Shape.document : (shape : Shape) → shape.Value → Document
  | .count, n => .count (UInt64.toNat n)
  | .text, t => .text t
  | .list item, vs => .list (List.map item.document vs)
  | .record _ fields, vs => .object (fields.documents vs)

/-- The fields of a record as members of an object. -/
def Fields.documents : (fields : Fields) → fields.Values → List (String × Document)
  | .nil, _ => []
  | .cons name shape rest, (v, vs) => (name, shape.document v) :: rest.documents vs

end

mutual

/-- No record of the shape has two fields of one name. -/
def Shape.Proper : Shape → Prop
  | .count | .text => True
  | .list item => item.Proper
  | .record _ fields => fields.Proper

/-- No two of the fields have one name, and the same of the records in them. -/
def Fields.Proper : Fields → Prop
  | .nil => True
  | .cons name shape rest => name ∉ rest.names ∧ shape.Proper ∧ rest.Proper

end

/-- The name of a member and the text of its value at a depth. -/
def memberText (depth : Nat) (m : String × Document) : String × List Char :=
  (m.1, m.2.written depth)

theorem Fields.map_name_documents : (fields : Fields) → (vs : fields.Values) →
    (fields.documents vs).map Prod.fst = fields.names
  | .nil, _ => rfl
  | .cons name _ rest, (_, vs) => congrArg (name :: ·) (map_name_documents rest vs)

/-- What stands under a name that only the first member has. -/
theorem filter_name_cons {name : String} {s : List Char} {members : List (String × List Char)}
    (h : ∀ m ∈ members, m.1 ≠ name) :
    ((name, s) :: members).filter (·.1 = name) = [(name, s)] ∧
      ((name, s) :: members).filter (·.1 ≠ name) = members := by
  rw [List.filter_cons_of_pos (by simp), List.filter_cons_of_neg (by simp)]
  constructor
  · exact congrArg _ (List.filter_eq_nil_iff.2 fun m hm => by simp [h m hm])
  · exact List.filter_eq_self.2 fun m hm => by simp [h m hm]

/-- An object is written as a text that writes what its members do. -/
theorem Shape.writes_object {name : String} {fields : Fields} {vs : fields.Values} {depth : Nat}
    {members : List (String × Document)}
    (h : fields.Members vs (members.map (memberText (depth + 1)))) :
    (Shape.record name fields).Writes vs ((Document.object members).written depth) := by
  rw [Document.written_object]
  refine .inr ⟨_, Container.encloses_written _ _ _, _, ?_, h⟩
  rw [List.forall₂_map_left_iff, List.forall₂_map_right_iff]
  exact List.forall₂_same.2 fun m _ => isMember_memberWritten (depth + 1) m

mutual

/-- **The document of a value is written as a text that writes the value.** -/
theorem Shape.writes_document : (shape : Shape) → shape.Proper → (v : shape.Value) →
    (depth : Nat) → shape.Writes v ((shape.document v).written depth)
  | .count, _, n, _ => by
    rw [Shape.document, Document.written, Shape.Writes]
    exact ⟨isWhole_numeral _, Decimal.value_numeral _⟩
  | .text, _, t, depth => by
    rw [Shape.document, Shape.Writes]
    exact ⟨_, spells_encode _, Document.written_text depth t⟩
  | .list item, hproper, vs, depth => by
    have hitems : ∀ vs : List item.Value, List.Forall₂ item.Writes vs
        ((vs.map item.document).map (·.written (depth + 1))) := by
      intro vs
      rw [List.forall₂_map_right_iff, List.forall₂_map_right_iff]
      exact List.forall₂_same.2 fun v _ => Shape.writes_document item hproper v (depth + 1)
    rw [Shape.document, Document.written_list, Shape.Writes]
    exact ⟨_, Container.encloses_written _ _ _, hitems vs⟩
  | .record _ fields, hproper, vs, depth => by
    have hfields := Fields.members_documents fields hproper vs (depth + 1) [] (by simp)
    rw [List.append_nil] at hfields
    rw [Shape.document]
    exact Shape.writes_object hfields

/-- The documents of the fields, and other members behind them, are the members of an object with
each field exactly once. -/
theorem Fields.members_documents : (fields : Fields) → fields.Proper → (vs : fields.Values) →
    (depth : Nat) → (others : List (String × List Char)) →
    (∀ m ∈ others, m.1 ∉ fields.names ∧ IsValue m.2) →
    fields.Members vs ((fields.documents vs).map (memberText depth) ++ others)
  | .nil, _, _, _, _, hothers => fun m hm => (hothers m hm).2
  | .cons name shape rest, ⟨hname, hshape, hrest⟩, (v, vs), depth, others, hothers => by
    have hne : ∀ m ∈ (rest.documents vs).map (memberText depth) ++ others, m.1 ≠ name := by
      rintro m hm rfl
      rcases List.mem_append.1 hm with hm | hm
      · obtain ⟨m', hm', rfl⟩ := List.mem_map.1 hm
        exact hname (rest.map_name_documents vs ▸ List.mem_map_of_mem hm')
      · exact (hothers m hm).1 List.mem_cons_self
    obtain ⟨hfirst, hothers'⟩ := filter_name_cons (s := (shape.document v).written depth) hne
    rw [Fields.documents, List.map_cons, List.cons_append, Fields.Members, memberText, hfirst,
      hothers']
    refine ⟨⟨_, rfl, Shape.writes_document shape hshape v depth⟩, ?_⟩
    refine Fields.members_documents rest hrest vs depth others fun m hm => ?_
    exact ⟨fun h => (hothers m hm).1 (List.mem_cons_of_mem _ h), (hothers m hm).2⟩

end

end ClusterWatch.Json
