import ClusterWatch.Json.Container
import ClusterWatch.Json.Shape

/-!
# Shape readers — reading the values of a shape

`Shape.reader` reads a value of a shape off the front of a text.  A record is read from an object,
whose keys may come in any order and be mixed with others, or from the list of its fields.
-/

namespace ClusterWatch.Json

/-- The count that a number is; a negative integer and a binary64 number are none. -/
def Number.count? (n : Number) : Except Cause UInt64 :=
  match n with
  | .count n => .ok (UInt64.ofNat n)
  | .negative size => .error (.negativeCount (-(size : Int)))
  | .float .. => .error (.wrongKind n.found "u64")

/-- Reads a count. -/
def readCount (s : List Char) : Reading UInt64 :=
  match skipSpace s with
  | [] => .error (wrongKind "u64" [])
  | c :: r =>
    if startsNumber c then
      match readNumber (c :: r) with
      | .error e => .error e
      | .ok (n, r) =>
        match n.count? with
        | .error cause => .error (.behind cause r)
        | .ok n => .ok (n, r)
    else .error (wrongKind "u64" (c :: r))

/-- Reads a count. -/
def Reader.count : Reader UInt64 where
  run := readCount
  shortens := by
    intro s a r h
    unfold readCount at h
    split at h
    · cases h
    next hs =>
      have := length_lt_of_skipSpace hs
      split at h
      · split at h
        · cases h
        next hn =>
          split at h
          · cases h
          · cases h
            have := length_readNumber hn
            rw [List.length_cons] at this
            omega
      · cases h

/-- Reads a value that `opening` begins, with `inside` behind it; `want` is what the value is called
in a fault. -/
def readBehind {α : Type} (opening : Char) (inside : List Char → Reading α) (want : String)
    (s : List Char) : Reading α :=
  match skipSpace s with
  | [] => .error (wrongKind want [])
  | c :: r => if c = opening then inside r else .error (wrongKind want (c :: r))

theorem length_readBehind {α : Type} {opening : Char} {inside : List Char → Reading α}
    {want : String} {s r : List Char} {a : α}
    (hi : ∀ {s r a}, inside s = .ok (a, r) → r.length < s.length)
    (h : readBehind opening inside want s = .ok (a, r)) : r.length < s.length := by
  unfold readBehind at h
  split at h
  · cases h
  next hs =>
    split at h
    · exact Nat.lt_trans (hi h) (length_lt_of_skipSpace hs)
    · cases h

/-- Reads a text. -/
def Reader.text : Reader String :=
  Reader.map String.ofList
    ⟨readBehind '"' readString "a string", length_readBehind length_readString⟩

/-- Reads a list of values that `item` reads. -/
def Reader.list {α : Type} (item : Reader α) : Reader (List α) :=
  ⟨readBehind '[' (readElements item true) "a sequence", length_readBehind length_readElements⟩

/-- Reads a record from an object or from a row. -/
def readRecord {α : Type} (object row : List Char → Reading α) (want : String) (s : List Char) :
    Reading α :=
  match skipSpace s with
  | [] => .error (wrongKind want [])
  | c :: r =>
    if c = '{' then object r else if c = '[' then row r else .error (wrongKind want (c :: r))

/-- Reads a record from an object or from a row. -/
def Reader.record {α : Type} (object row : Reader α) (want : String) : Reader α where
  run := readRecord object.run row.run want
  shortens := by
    intro s a r h
    unfold readRecord at h
    split at h
    · cases h
    next hs =>
      have := length_lt_of_skipSpace hs
      split at h
      · exact Nat.lt_trans (object.shortens h) this
      · split at h
        · exact Nat.lt_trans (row.shortens h) this
        · cases h

/-- Reads the members of an object into a draft, and completes it. -/
def Reader.object {δ α : Type} (member : String → δ → Member δ) (complete : δ → Except String α)
    (blank : δ) : Reader α :=
  ⟨readMembers member complete true blank, length_readMembers⟩

/-- Does to a part of a draft what is to be done with the value of a key. -/
def Member.map {δ ε : Type} (f : δ → ε) : Member δ → Member ε
  | unknown => unknown
  | duplicate => duplicate
  | known reader => known (reader.map f)

mutual

/-- Reads the values of a shape. -/
def Shape.reader : (shape : Shape) → Reader shape.Value
  | .count => Reader.count
  | .text => Reader.text
  | .list item => Reader.list item.reader
  | .record name fields =>
    Reader.record (Reader.object fields.member fields.complete fields.blank)
      (fields.row ⟨"struct " ++ name, fields.names.length, 0⟩) ("struct " ++ name)

/-- What is to be done with the value of a key of a record. -/
def Fields.member : (fields : Fields) → String → fields.Draft → Member fields.Draft
  | .nil, _, _ => .unknown
  | .cons name shape rest, key, (value, draft) =>
    if key = name then
      match value with
      | some _ => .duplicate
      | none => .known (shape.reader.map fun v => (some v, draft))
    else (rest.member key draft).map fun draft => (value, draft)

/-- Reads the fields of a record written as a list. -/
def Fields.row : (fields : Fields) → Row → Reader fields.Values
  | .nil, _ => Reader.noMoreCells
  | .cons _ shape rest, row =>
    Reader.cell row shape.reader (rest.row { row with filled := row.filled + 1 })

end

end ClusterWatch.Json
