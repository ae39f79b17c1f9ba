import ClusterWatch.Json.Document
import ClusterWatch.Proofs.Decimal.Numeral
import ClusterWatch.Proofs.Json.Numeral

/-!
# Documents — what is written is JSON

Every document is written as a JSON value, at any depth (`Document.isValue_written`).  Its leaves
are the two round trips everything else rests on: an encoded text spells what it was made of
(`spells_encode`), and a numeral is a whole number (`isWhole_numeral`).

A list and an object are laid out alike, each of their items on a line of its own (`layOut`), so
what is said of a container is said once (`Container.encloses_written`).
-/

namespace ClusterWatch.Json

/-- Induction over the values that a document holds. -/
@[induction_eliminator]
theorem Document.induction {P : Document → Prop} (null : P .null) (count : ∀ n, P (.count n))
    (text : ∀ s, P (.text s)) (list : ∀ items, (∀ d ∈ items, P d) → P (.list items))
    (object : ∀ members, (∀ m ∈ members, P m.2) → P (.object members)) : (d : Document) → P d
  | .null => null
  | .count n => count n
  | .text s => text s
  | .list items => list items fun d _ => induction null count text list object d
  | .object members => object members fun m _ => induction null count text list object m.2
termination_by d => sizeOf d
decreasing_by
  · have := List.sizeOf_lt_of_mem ‹d ∈ items›
    simp only [Document.list.sizeOf_spec]
    omega
  · have := List.sizeOf_lt_of_mem ‹m ∈ members›
    have hm : sizeOf m = 1 + sizeOf m.1 + sizeOf m.2 := rfl
    simp only [Document.object.sizeOf_spec]
    omega

/-! ### Texts -/

theorem hexUnit?_hexDigit {n : Nat} (h : n < 256) :
    hexUnit? '0' '0' (Text.hexDigit (n / 16)) (Text.hexDigit (n % 16)) = some n := by
  have hzero : Text.hexValue? '0' = some 0 := by decide
  have hhigh := Text.hexValue?_hexDigit (d := n / 16) (by omega)
  have hlow := Text.hexValue?_hexDigit (d := n % 16) (by omega)
  simp only [hexUnit?, hzero, hhigh, hlow, Option.pure_def, Option.bind_eq_bind, Option.bind_some]
  congr 1
  omega

/-- **A character as it is written stands for the character.** -/
theorem isPiece_encodeChar (c : Char) : IsPiece c (encodeChar c) := by
  have letter : ∀ {d e : Char}, (e, d) ∈ letterEscapes → c = d → IsPiece c ['\\', e] := by
    rintro d e h rfl
    exact .letter h
  unfold encodeChar
  split
  next h => exact letter (by decide) h
  next hq =>
  split
  next h => exact letter (by decide) h
  next hb =>
  split
  next h => exact letter (by decide) h
  split
  next h => exact letter (by decide) h
  split
  next h => exact letter (by decide) h
  split
  next h => exact letter (by decide) h
  split
  next h => exact letter (by decide) h
  split
  next h =>
    -- the other control characters, none of which is a surrogate
    have hpiece := IsPiece.unit (hexUnit?_hexDigit (n := c.toNat) (by omega))
      (by simp [isHighSurrogate]; omega) (by simp [isLowSurrogate]; omega)
    rwa [Char.ofNat_toNat] at hpiece
  next h => exact .raw hq hb (Nat.le_of_not_lt h)

/-- **An encoded text spells the text it was made of.** -/
theorem spells_encode (t : List Char) : Spells t (t.flatMap encodeChar) := by
  induction t with
  | nil => exact .nil
  | cons c t ih => exact .cons (isPiece_encodeChar c) ih

theorem IsPiece.append_loose {c : Char} {p s : List Char} (h : IsPiece c p) (hs : IsLoose s) :
    IsLoose (p ++ s) := by
  cases h with
  | raw hq hb hc => exact .cons (.raw hq hb hc) hs
  | letter h => exact .cons (.letter h) hs
  | unit hn => exact .cons (.unit hn) hs
  | pair hn _ hm =>
      have hpair := IsLoose.cons (.unit hn) (.cons (.unit hm) hs)
      exact hpair

/-- What spells characters is the inside of a string. -/
theorem Spells.loose {t s : List Char} (h : Spells t s) : IsLoose s := by
  induction h with
  | nil => exact .nil
  | cons hp _ ih => exact hp.append_loose ih

theorem Document.written_text (depth : Nat) (s : String) :
    (Document.text s).written depth = '"' :: (s.toList.flatMap encodeChar ++ ['"']) := by
  rw [written]
  rfl

/-! ### Numerals -/

/-- **A numeral is a whole number.** -/
theorem isWhole_numeral (n : Nat) : IsWhole (Decimal.numeral n) :=
  ⟨⟨Decimal.numeral_ne_nil n, fun _ => Decimal.isDigit_of_mem_numeral⟩,
    Decimal.numeral_of_head?_zero⟩

/-! ### Containers -/

/-- Items on lines of their own at a depth, with commas between them. -/
def layOut (depth : Nat) : List (List Char) → List Char
  | [] => []
  | p :: ps => newLine depth ++ (p ++ ((if ps.isEmpty then [] else [',']) ++ layOut depth ps))

/-- A container of items that is written at a depth. -/
def Container.written (c : Container) (depth : Nat) (items : List (List Char)) : List Char :=
  if items.isEmpty then [c.opening, c.closing]
  else c.opening :: ((layOut (depth + 1) items ++ newLine depth) ++ [c.closing])

/-- A member of an object as it is written at a depth. -/
def memberWritten (depth : Nat) (m : String × Document) : List Char :=
  encodeString m.1 ++ ([':', ' '] ++ m.2.written depth)

theorem memberWritten_eq (depth : Nat) (m : String × Document) :
    memberWritten depth m =
      '"' :: (m.1.toList.flatMap encodeChar ++
        '"' :: ([] ++ ':' :: ([' '] ++ m.2.written depth))) := by
  simp [memberWritten, encodeString]

theorem itemsWritten_eq (depth : Nat) (items : List Document) :
    itemsWritten depth items = layOut depth (items.map (·.written depth)) := by
  induction items with
  | nil => rw [itemsWritten, List.map_nil, layOut]
  | cons d items ih =>
      rw [itemsWritten, ih, List.map_cons, layOut, List.isEmpty_map]
      simp only [List.append_assoc]

theorem membersWritten_eq (depth : Nat) (members : List (String × Document)) :
    membersWritten depth members = layOut depth (members.map (memberWritten depth)) := by
  induction members with
  | nil => rw [membersWritten, List.map_nil, layOut]
  | cons m members ih =>
      rw [membersWritten, ih, List.map_cons, layOut, List.isEmpty_map, memberWritten]
      simp only [List.append_assoc]

theorem Document.written_list (depth : Nat) (items : List Document) :
    (Document.list items).written depth =
      Container.list.written depth (items.map (·.written (depth + 1))) := by
  rw [Document.written, Container.written, List.isEmpty_map, itemsWritten_eq]
  simp [Container.opening, Container.closing]

theorem Document.written_object (depth : Nat) (members : List (String × Document)) :
    (Document.object members).written depth =
      Container.object.written depth (members.map (memberWritten (depth + 1))) := by
  rw [Document.written, Container.written, List.isEmpty_map, membersWritten_eq]
  simp [Container.opening, Container.closing]

theorem isBlanks_newLine (depth : Nat) : IsBlanks (newLine depth) := by
  intro c hc
  rcases List.mem_cons.1 hc with rfl | hc
  · rfl
  · rw [(List.mem_replicate.1 hc).2]
    rfl

/-- Behind a comma, a list of items goes on. -/
theorem Listed.comma {p s : List Char} {ps : List (List Char)} (h : Listed true (p :: ps) s) :
    Listed false (p :: ps) (',' :: s) := by
  cases h with
  | @cons _ l _ _ _ hl hs =>
      have hlead : IsLead false (',' :: l) := ⟨[], l, .nil, hl, rfl⟩
      exact .cons hlead hs

/-- What is laid out lists its items. -/
theorem listed_layOut (depth : Nat) (items : List (List Char)) {b : List Char} (hb : IsBlanks b) :
    Listed true items (layOut depth items ++ b) := by
  induction items with
  | nil => exact .nil hb
  | cons p ps ih =>
      rw [layOut, List.append_assoc, List.append_assoc]
      refine .cons (isBlanks_newLine depth) ?_
      cases ps with
      | nil => exact .nil hb
      | cons q qs => exact ih.comma

/-- **A written container encloses its items.** -/
theorem Container.encloses_written (c : Container) (depth : Nat) (items : List (List Char)) :
    c.Encloses items (c.written depth items) := by
  cases items with
  | nil => exact ⟨[], .nil .nil, rfl⟩
  | cons p ps => exact ⟨_, listed_layOut (depth + 1) (p :: ps) (isBlanks_newLine depth), rfl⟩

/-- A written member is a member of an object. -/
theorem isMember_memberWritten (depth : Nat) (m : String × Document) :
    IsMember (m.1, m.2.written depth) (memberWritten depth m) := by
  refine ⟨_, [], [' '], spells_encode _, .nil, ?_, memberWritten_eq depth m⟩
  exact List.forall_mem_singleton.2 rfl

theorem IsMember.isItem {m : String × List Char} {p : List Char} (h : IsMember m p)
    (hv : IsValue m.2) : IsItem .object p := by
  obtain ⟨k, b, b', hk, hb, hb', rfl⟩ := h
  exact .member hk.loose hb hb' hv

/-- **Every document is written as a JSON value.** -/
theorem Document.isValue_written (d : Document) (depth : Nat) : IsValue (d.written depth) := by
  induction d generalizing depth with
  | null => exact .null
  | count n => exact .number (.inl (isWhole_numeral n).isUnsigned)
  | text s => exact .text (spells_encode s.toList).loose
  | list items ih =>
      rw [written_list]
      refine .container (List.forall_mem_map.2 fun d hd => ?_) (Container.encloses_written _ _ _)
      exact .element (ih d hd _)
  | object members ih =>
      rw [written_object]
      refine .container (List.forall_mem_map.2 fun m hm => ?_) (Container.encloses_written _ _ _)
      exact (isMember_memberWritten _ m).isItem (ih m hm _)

end ClusterWatch.Json
