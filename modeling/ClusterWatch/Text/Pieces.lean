import ClusterWatch.Text.Blank

/-!
# Pieces — a text cut at characters of a class

`splitAt` cuts a text before the first character of a class (`splitAt_append_of_not`), and loses
nothing (`splitAt_append`).  `pieces` cuts it at every such character and leaves those out, so there
is one piece more than there are such characters.
-/

namespace ClusterWatch.Text

/-- What stands before and from the first character of a class on. -/
def splitAt (p : Char → Bool) (s : List Char) : List Char × List Char :=
  (s.takeWhile (!p ·), s.dropWhile (!p ·))

/-- A text is what a cut leaves of it. -/
theorem splitAt_append (p : Char → Bool) (s : List Char) :
    (splitAt p s).1 ++ (splitAt p s).2 = s :=
  List.takeWhile_append_dropWhile

/-- A text is cut before the first character of a class. -/
theorem splitAt_append_of_not {p : Char → Bool} {s : List Char} (hs : ∀ c ∈ s, p c = false)
    {d : Char} (hd : p d = true) (r : List Char) : splitAt p (s ++ d :: r) = (s, d :: r) := by
  have hs' : ∀ c ∈ s, (!p c) = true := fun c hc => by rw [hs c hc]; rfl
  rw [splitAt, List.takeWhile_append_of_pos hs', List.dropWhile_append_of_pos hs',
    List.takeWhile_cons_of_neg (by simp [hd]), List.dropWhile_cons_of_neg (by simp [hd]),
    List.append_nil]

/-- The pieces of a text that characters of a class stand between. -/
def pieces (p : Char → Bool) : List Char → List (List Char)
  | [] => [[]]
  | c :: s =>
    if p c then [] :: pieces p s
    else match pieces p s with
      | [] => [[c]]
      | piece :: rest => (c :: piece) :: rest

/-- There is one piece more than there are characters to cut at. -/
theorem length_pieces (p : Char → Bool) (s : List Char) :
    (pieces p s).length = s.countP p + 1 := by
  induction s with
  | nil => rfl
  | cons c s ih =>
    rw [pieces]
    by_cases h : p c
    · simp [h, ih]
    · rw [if_neg h, List.countP_cons_of_neg h, ← ih]
      split
      · next e => simp [e] at ih
      · next e => simp [e]

/-- A text without characters of a class is one piece. -/
theorem pieces_eq_singleton {p : Char → Bool} {s : List Char} (hs : ∀ c ∈ s, p c = false) :
    pieces p s = [s] := by
  induction s with
  | nil => rfl
  | cons c s ih =>
      rw [List.forall_mem_cons] at hs
      rw [pieces, if_neg (by simp [hs.1]), ih hs.2]

end ClusterWatch.Text
