import ClusterWatch.Json.Shape
import ClusterWatch.Json.Skip
import Mathlib.Data.List.Forall2

/-!
# Grammar — which texts are JSON, and which write a value of a shape

The grammar says what a text is without saying how it is read.

* `IsValue s`: the text `s` is a JSON value of any kind.  Its numbers may be of any size, and its
  strings may hold escapes of surrogates that belong to no pair, since nothing is made of them.
* `Spells t s`: inside quotes, `s` stands for the characters `t`; here surrogates come in pairs.
* `shape.Writes v s`: the text `s` writes the value `v` of a shape.  A record is written as the
  list of its fields in their order, or as an object that has each field exactly once among any
  other members.

A container's items have commas between them and blanks around them (`Listed`); no blanks belong to
the items themselves.
-/

namespace ClusterWatch.Json

/-! ### Items of a container -/

/-- A text of blanks as they stand between tokens. -/
def IsBlanks (s : List Char) : Prop := ∀ c ∈ s, isSpace c = true

/-- What stands before an item: blanks, with a comma among them unless the item is the first. -/
def IsLead (first : Bool) (s : List Char) : Prop :=
  if first then IsBlanks s else ∃ b b', IsBlanks b ∧ IsBlanks b' ∧ s = b ++ ',' :: b'

/-- `Listed first items s`: the text `s` lists the items up to a closing bracket; `first` says
whether it begins behind the opening one. -/
inductive Listed : Bool → List (List Char) → List Char → Prop
  | nil {first : Bool} {b : List Char} (hb : IsBlanks b) : Listed first [] b
  | cons {first : Bool} {l p s : List Char} {ps : List (List Char)} (hl : IsLead first l)
      (hs : Listed false ps s) : Listed first (p :: ps) (l ++ (p ++ s))

/-- The bracket that opens a container. -/
def Container.opening : Container → Char
  | list => '['
  | object => '{'

/-- A container of the given items, from bracket to bracket. -/
def Container.Encloses (c : Container) (items : List (List Char)) (s : List Char) : Prop :=
  ∃ inside, Listed true items inside ∧ s = c.opening :: (inside ++ [c.closing])

/-! ### Numbers -/

/-- At least one digit, and nothing else. -/
def IsDigits (s : List Char) : Prop := s ≠ [] ∧ ∀ c ∈ s, c.isDigit = true

/-- Digits without a leading zero. -/
def IsWhole (s : List Char) : Prop := IsDigits s ∧ (s.head? = some '0' → s = ['0'])

/-- A point with digits behind it, or nothing. -/
def IsFraction (s : List Char) : Prop := s = [] ∨ ∃ ds, IsDigits ds ∧ s = '.' :: ds

/-- An exponent with or without a sign, or nothing. -/
def IsExponent (s : List Char) : Prop :=
  s = [] ∨ ∃ e sign ds, (e = 'e' ∨ e = 'E') ∧ (sign = [] ∨ sign = ['+'] ∨ sign = ['-']) ∧
    IsDigits ds ∧ s = e :: (sign ++ ds)

/-- A number without its sign. -/
def IsUnsigned (s : List Char) : Prop :=
  ∃ whole fraction exponent, IsWhole whole ∧ IsFraction fraction ∧ IsExponent exponent ∧
    s = whole ++ (fraction ++ exponent)

/-- A number. -/
def IsNumber (s : List Char) : Prop := IsUnsigned s ∨ ∃ t, IsUnsigned t ∧ s = '-' :: t

/-! ### Strings -/

/-- `IsPiece c s`: inside quotes, `s` stands for the character `c`. -/
inductive IsPiece : Char → List Char → Prop
  | raw {c : Char} (hq : c ≠ '"') (hb : c ≠ '\\') (hc : 0x20 ≤ c.toNat) : IsPiece c [c]
  | letter {e c : Char} (h : (e, c) ∈ letterEscapes) : IsPiece c ['\\', e]
  | unit {x₁ x₂ x₃ x₄ : Char} {n : Nat} (hn : hexUnit? x₁ x₂ x₃ x₄ = some n)
      (hhigh : isHighSurrogate n = false) (hlow : isLowSurrogate n = false) :
      IsPiece (Char.ofNat n) ['\\', 'u', x₁, x₂, x₃, x₄]
  | pair {x₁ x₂ x₃ x₄ y₁ y₂ y₃ y₄ : Char} {n m : Nat} (hn : hexUnit? x₁ x₂ x₃ x₄ = some n)
      (hhigh : isHighSurrogate n = true) (hm : hexUnit? y₁ y₂ y₃ y₄ = some m)
      (hlow : isLowSurrogate m = true) :
      IsPiece (pairChar n m) ['\\', 'u', x₁, x₂, x₃, x₄, '\\', 'u', y₁, y₂, y₃, y₄]

/-- `Spells t s`: inside quotes, `s` stands for the characters `t`. -/
inductive Spells : List Char → List Char → Prop
  | nil : Spells [] []
  | cons {c : Char} {t p s : List Char} (hp : IsPiece c p) (hs : Spells t s) :
      Spells (c :: t) (p ++ s)

/-- A piece of a string that nothing is made of. -/
inductive IsLoosePiece : List Char → Prop
  | raw {c : Char} (hq : c ≠ '"') (hb : c ≠ '\\') (hc : 0x20 ≤ c.toNat) : IsLoosePiece [c]
  | letter {e c : Char} (h : (e, c) ∈ letterEscapes) : IsLoosePiece ['\\', e]
  | unit {x₁ x₂ x₃ x₄ : Char} {n : Nat} (hn : hexUnit? x₁ x₂ x₃ x₄ = some n) :
      IsLoosePiece ['\\', 'u', x₁, x₂, x₃, x₄]

/-- The inside of a string that nothing is made of. -/
inductive IsLoose : List Char → Prop
  | nil : IsLoose []
  | cons {p s : List Char} (hp : IsLoosePiece p) (hs : IsLoose s) : IsLoose (p ++ s)

/-! ### Values of any kind -/

mutual

/-- A JSON value. -/
inductive IsValue : List Char → Prop
  | null : IsValue ['n', 'u', 'l', 'l']
  | true : IsValue ['t', 'r', 'u', 'e']
  | false : IsValue ['f', 'a', 'l', 's', 'e']
  | number {s : List Char} (h : IsNumber s) : IsValue s
  | text {s : List Char} (h : IsLoose s) : IsValue ('"' :: (s ++ ['"']))
  | container {c : Container} {items : List (List Char)} {s : List Char}
      (hi : ∀ p ∈ items, IsItem c p) (hs : c.Encloses items s) : IsValue s

/-- An item of a container: a value, behind a key and a colon in an object. -/
inductive IsItem : Container → List Char → Prop
  | element {v : List Char} (hv : IsValue v) : IsItem .list v
  | member {k b b' v : List Char} (hk : IsLoose k) (hb : IsBlanks b) (hb' : IsBlanks b')
      (hv : IsValue v) : IsItem .object ('"' :: (k ++ '"' :: (b ++ ':' :: (b' ++ v))))

end

/-! ### Values of a shape -/

/-- A member of an object, by its name and the text of its value. -/
def IsMember (m : String × List Char) (s : List Char) : Prop :=
  ∃ k b b', Spells m.1.toList k ∧ IsBlanks b ∧ IsBlanks b' ∧
    s = '"' :: (k ++ '"' :: (b ++ ':' :: (b' ++ m.2)))

mutual

/-- `shape.Writes v s`: the text `s` writes the value `v`. -/
def Shape.Writes : (shape : Shape) → shape.Value → List Char → Prop
  | .count, n, s => IsWhole s ∧ Decimal.value s = UInt64.toNat n
  | .text, t, s => ∃ k, Spells (String.toList t) k ∧ s = '"' :: (k ++ ['"'])
  | .list item, vs, s =>
    ∃ items, Container.list.Encloses items s ∧ List.Forall₂ item.Writes vs items
  | .record _ fields, vs, s =>
    (∃ items, Container.list.Encloses items s ∧ fields.Row vs items) ∨
      ∃ items, Container.object.Encloses items s ∧
        ∃ members, List.Forall₂ IsMember members items ∧ fields.Members vs members

/-- The fields of a record in their order. -/
def Fields.Row : (fields : Fields) → fields.Values → List (List Char) → Prop
  | .nil, _, items => items = []
  | .cons _ shape rest, (v, vs), items =>
    ∃ s ss, items = s :: ss ∧ shape.Writes v s ∧ rest.Row vs ss

/-- The members of an object with each field exactly once; the others are JSON values of any
kind. -/
def Fields.Members : (fields : Fields) → fields.Values → List (String × List Char) → Prop
  | .nil, _, members => ∀ m ∈ members, IsValue m.2
  | .cons name shape rest, (v, vs), members =>
    (∃ s, members.filter (·.1 = name) = [(name, s)] ∧ shape.Writes v s) ∧
      rest.Members vs (members.filter (·.1 ≠ name))

end

end ClusterWatch.Json
