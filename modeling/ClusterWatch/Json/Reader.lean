import ClusterWatch.Json.Fault

/-!
# Reader — reading a value off the front of a text

A `Reader` takes a value off the front of a text and leaves the rest, or stops with a fault.  It
carries the fact that what it leaves is shorter than what it was given (`Reader.shortens`), which
is what every loop over readers needs in order to end.

The blanks between the tokens of a JSON text are the space, the tab and the two line ends, fewer
than the blanks that are trimmed from its ends.
-/

namespace ClusterWatch.Json

/-- What reading gives: a value and the text behind it, or a fault. -/
abbrev Reading (α : Type) := Except Fault (α × List Char)

/-- A function that takes a value off the front of a text. -/
structure Reader (α : Type) where
  run : List Char → Reading α
  shortens : ∀ {s a r}, run s = .ok (a, r) → r.length < s.length

/-- Whether a character may stand between tokens. -/
def isSpace (c : Char) : Bool := c = ' ' || c = '\n' || c = '\t' || c = '\r'

/-- A text without the blanks at its front. -/
def skipSpace (s : List Char) : List Char := s.dropWhile isSpace

theorem length_skipSpace_le (s : List Char) : (skipSpace s).length ≤ s.length :=
  (List.dropWhile_sublist isSpace).length_le

/-- What is read off a text stands behind the blanks at its front, if anything does. -/
theorem length_lt_of_skipSpace {s : List Char} {c : Char} {r : List Char}
    (h : skipSpace s = c :: r) : r.length < s.length := by
  have := length_skipSpace_le s
  rw [h] at this
  exact this

/-- Reads with `p` and changes what was read. -/
def Reader.map {α β : Type} (f : α → β) (p : Reader α) : Reader β where
  run s := match p.run s with
    | .error e => .error e
    | .ok (a, r) => .ok (f a, r)
  shortens := by
    intro s b r h
    cases hp : p.run s with
    | error e => simp [hp] at h
    | ok ar =>
      simp only [hp, Except.ok.injEq, Prod.mk.injEq] at h
      exact h.2 ▸ p.shortens (a := ar.1) hp

/-- Takes a keyword off the front of a text, character by character. -/
def word : List Char → List Char → Except Fault (List Char)
  | [], s => .ok s
  | _ :: _, [] => .error (.behind .endInValue [])
  | a :: w, c :: s => if a = c then word w s else .error (.ahead .expectedLiteral (c :: s))

theorem length_word_le {w s r : List Char} (h : word w s = .ok r) : r.length ≤ s.length := by
  fun_induction word w s with
  | case1 => cases h; exact Nat.le_refl _
  | case2 => cases h
  | case3 w c s ih => exact Nat.le_succ_of_le (ih h)
  | case4 => cases h

end ClusterWatch.Json
