import ClusterWatch.Json.Skip

/-!
# Container — reading lists and objects

A list is read element by element (`readElements`), an object key by key (`readMembers`), each up
to its closing bracket.  In an object a key decides what is done with its value (`Member`): a key
that is not known has its value skipped, one that was seen before is a fault, and the value of any
other is read into the draft of the object.

A record may also be written as the list of its fields in order; `Reader.cell` reads one of these
and the cells behind it, `Reader.noMoreCells` the end of the list.
-/

namespace ClusterWatch.Json

/-- What stands where an element of a container may stand. -/
inductive Entry
  | closed (rest : List Char)
  | element (rest : List Char)

/-- What an entry leaves to read. -/
def Entry.rest : Entry → List Char
  | closed r => r
  | element r => r

/-! ### Elements of a list -/

/-- Looks for an element of a list; a comma stands before each but the first. -/
def nextElement (first : Bool) (s : List Char) : Except Fault Entry :=
  match skipSpace s with
  | [] => .error (.ahead .endInList [])
  | c :: r =>
    if c = ']' then .ok (.closed r)
    else if first then .ok (.element (c :: r))
    else if c = ',' then
      match skipSpace r with
      | [] => .error (.ahead .endInValue [])
      | d :: r =>
        if d = ']' then .error (.ahead .trailingComma (d :: r)) else .ok (.element (d :: r))
    else .error (.ahead .expectedListEnd (c :: r))

theorem length_element_le {first : Bool} {s r : List Char}
    (h : nextElement first s = .ok (.element r)) : r.length ≤ s.length := by
  unfold nextElement at h
  split at h
  · cases h
  next hs =>
    have := length_lt_of_skipSpace hs
    split at h
    · cases h
    · split at h
      · cases h; exact this
      · split at h
        · split at h
          · cases h
          next hr =>
            have := length_lt_of_skipSpace hr
            split at h
            · cases h
            · cases h; simp only [List.length_cons]; omega
        · cases h

theorem length_closed {first : Bool} {s r : List Char}
    (h : nextElement first s = .ok (.closed r)) : r.length < s.length := by
  unfold nextElement at h
  split at h
  · cases h
  next hs =>
    have := length_lt_of_skipSpace hs
    split at h
    · cases h; exact this
    · split at h
      · cases h
      · split at h
        · split at h
          · cases h
          · split at h <;> cases h
        · cases h

/-- Reads the elements of a list up to its closing bracket. -/
def readElements {α : Type} (item : Reader α) (first : Bool) (s : List Char) : Reading (List α) :=
  match _hn : nextElement first s with
  | .error e => .error e
  | .ok (.closed r) => .ok ([], r)
  | .ok (.element r) =>
    match _hi : item.run r with
    | .error e => .error e
    | .ok (a, r) =>
      match readElements item false r with
      | .error e => .error e
      | .ok (as, r) => .ok (a :: as, r)
termination_by s.length
decreasing_by exact Nat.lt_of_lt_of_le (item.shortens _hi) (length_element_le _hn)

/-- The elements of a list take at least its closing bracket. -/
theorem length_readElements {α : Type} {item : Reader α} {first : Bool} {s r : List Char}
    {as : List α} (h : readElements item first s = .ok (as, r)) : r.length < s.length := by
  fun_induction readElements item first s generalizing as with
  | case1 => cases h
  | case2 first s r' hn => cases h; exact length_closed hn
  | case3 => cases h
  | case4 => cases h
  | case5 first s r₁ hn a r₂ hi as' r₃ hr ih =>
    cases h
    have := length_element_le hn
    have := item.shortens hi
    have := ih hr
    omega

/-! ### Members of an object -/

/-- Looks for a key of an object, and takes its opening quote; a comma stands before each but the
first. -/
def nextKey (first : Bool) (s : List Char) : Except Fault Entry :=
  match skipSpace s with
  | [] => .error (.ahead .endInObject [])
  | c :: r =>
    if c = '}' then .ok (.closed r)
    else if first then
      if c = '"' then .ok (.element r) else .error (.ahead .keyNotText (c :: r))
    else if c = ',' then
      match skipSpace r with
      | [] => .error (.ahead .endInValue [])
      | d :: r =>
        if d = '"' then .ok (.element r)
        else if d = '}' then .error (.ahead .trailingComma (d :: r))
        else .error (.ahead .keyNotText (d :: r))
    else .error (.ahead .expectedObjectEnd (c :: r))

/-- What is found where a member can begin takes some of the text. -/
theorem length_rest_of_nextKey {first : Bool} {s : List Char} {e : Entry}
    (h : nextKey first s = .ok e) : e.rest.length < s.length := by
  unfold nextKey at h
  split at h
  · cases h
  next hs =>
    have := length_lt_of_skipSpace hs
    split at h
    · cases h; exact this
    · split at h
      · split at h
        · cases h; exact this
        · cases h
      · split at h
        · split at h
          · cases h
          next hr =>
            have := length_lt_of_skipSpace hr
            split at h
            · cases h; simp only [Entry.rest]; omega
            · split at h <;> cases h
        · cases h

/-- What is to be done with the value of a key; `δ` is what is known of the object. -/
inductive Member (δ : Type)
  | unknown
  | duplicate
  | known (reader : Reader δ)

/-- A text behind the closing brace of an object, if that is what comes next. -/
def closeObject (s : List Char) : List Char :=
  match skipSpace s with
  | [] => []
  | c :: r => if c = '}' then r else c :: r

/-- Reads the members of an object up to its closing brace.  A key seen twice is a fault behind the
brace if that follows the key, and a key not seen at all is a fault behind the brace. -/
def readMembers {δ α : Type} (member : String → δ → Member δ) (complete : δ → Except String α)
    (first : Bool) (draft : δ) (s : List Char) : Reading α :=
  match _hn : nextKey first s with
  | .error e => .error e
  | .ok (.closed r) =>
    match complete draft with
    | .error absent => .error (.behind (.missingField absent) r)
    | .ok a => .ok (a, r)
  | .ok (.element r) =>
    match _hk : readString r with
    | .error e => .error e
    | .ok (key, r) =>
      match member (String.ofList key) draft with
      | .duplicate => .error (.behind (.duplicateField (String.ofList key)) (closeObject r))
      | .unknown =>
        match _hc : readColon r with
        | .error e => .error e
        | .ok r =>
          match _hv : skipValue [] r with
          | .error e => .error e
          | .ok r => readMembers member complete false draft r
      | .known reader =>
        match _hc : readColon r with
        | .error e => .error e
        | .ok r =>
          match _hv : reader.run r with
          | .error e => .error e
          | .ok (draft, r) => readMembers member complete false draft r
termination_by s.length
decreasing_by
  · have := length_rest_of_nextKey _hn
    have := length_readString _hk
    have := length_readColon _hc
    have := length_skipValue _hv
    simp only [Entry.rest] at *; omega
  · have := length_rest_of_nextKey _hn
    have := length_readString _hk
    have := length_readColon _hc
    have := reader.shortens _hv
    simp only [Entry.rest] at *; omega

/-- The members of an object take at least its closing brace. -/
theorem length_readMembers {δ α : Type} {member : String → δ → Member δ}
    {complete : δ → Except String α} {first : Bool} {draft : δ} {s r : List Char} {a : α}
    (h : readMembers member complete first draft s = .ok (a, r)) : r.length < s.length := by
  fun_induction readMembers member complete first draft s with
  | case1 => cases h
  | case2 => cases h
  | case3 first draft s r' hn a' hc => cases h; exact length_rest_of_nextKey hn
  | case4 => cases h
  | case5 => cases h
  | case6 => cases h
  | case7 => cases h
  | case8 first draft s r₁ hn key r₂ hk hm r₃ hc r₄ hv ih =>
    have := length_rest_of_nextKey hn
    have := length_readString hk
    have := length_readColon hc
    have := length_skipValue hv
    have := ih h
    simp only [Entry.rest] at *; omega
  | case9 => cases h
  | case10 => cases h
  | case11 first draft s r₁ hn key r₂ hk reader hm r₃ hc draft' r₄ hv ih =>
    have := length_rest_of_nextKey hn
    have := length_readString hk
    have := length_readColon hc
    have := reader.shortens hv
    have := ih h
    simp only [Entry.rest] at *; omega

/-! ### Records written as lists -/

/-- Reads the end of a list that must have no more elements. -/
def endOfList (s : List Char) : Reading Unit :=
  match skipSpace s with
  | [] => .error (.ahead .endInList [])
  | c :: r =>
    if c = ']' then .ok ((), r)
    else if c = ',' then
      match skipSpace r with
      | ']' :: r => .error (.ahead .trailingComma (']' :: r))
      | r => .error (.ahead .trailingCharacters r)
    else .error (.ahead .trailingCharacters (c :: r))

/-- Reads the end of a list that must have no more elements. -/
def Reader.noMoreCells : Reader Unit where
  run := endOfList
  shortens := by
    intro s a r h
    unfold endOfList at h
    split at h
    · cases h
    next hs =>
      split at h
      · cases h; exact length_lt_of_skipSpace hs
      · split at h
        · split at h <;> cases h
        · cases h

/-- How far the list of a record's fields has been read. -/
structure Row where
  /-- What the record is called in a fault. -/
  want : String
  /-- How many fields it has. -/
  size : Nat
  /-- How many of them have been read. -/
  filled : Nat

/-- Reads one field of a row and the fields behind it.  A row that ends before its last field is a
fault behind its bracket. -/
def Reader.cell {α β : Type} (row : Row) (head : Reader α) (tail : Reader β) : Reader (α × β) where
  run s :=
    match nextElement (row.filled = 0) s with
    | .error e => .error e
    | .ok (.closed r) => .error (.behind (.wrongLength row.filled row.want row.size) r)
    | .ok (.element r) =>
      match head.run r with
      | .error e => .error e
      | .ok (a, r) =>
        match tail.run r with
        | .error e => .error e
        | .ok (b, r) => .ok ((a, b), r)
  shortens := by
    intro s ab r h
    split at h
    · cases h
    · cases h
    next hn =>
      split at h
      · cases h
      next ha =>
        split at h
        · cases h
        next hb =>
          cases h
          have := length_element_le hn
          have := head.shortens ha
          have := tail.shortens hb
          omega

end ClusterWatch.Json
