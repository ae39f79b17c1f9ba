import ClusterWatch.Json.Shape.Reader
import ClusterWatch.Proofs.Json.Grammar

/-!
# Reads — a reader that takes what a grammar admits

`Reads run W` says that the reader `run` takes off the front of a text just what `W` admits, with
blanks before it: what it takes is admitted (`sound`), and it takes whatever is admitted, whole
(`complete`), when what stands behind it cannot continue a number (`Stops`).  What is admitted
begins with a character that no blank and no closing bracket is (`Starts`), so that a container can
tell an item from its end.

Beside it stand the facts on blanks and single characters that all readers share.
-/

namespace ClusterWatch.Json

/-! ### Blanks -/

theorem IsBlanks.nil : IsBlanks [] := fun _ h => nomatch h

/-- Blanks behind blanks are blanks. -/
theorem IsBlanks.append {b b' : List Char} (h : IsBlanks b) (h' : IsBlanks b') :
    IsBlanks (b ++ b') := by
  intro c hc
  rcases List.mem_append.1 hc with hc | hc
  · exact h c hc
  · exact h' c hc

/-- Blanks before a text are passed over with those that it begins with. -/
theorem skipSpace_append {b : List Char} (hb : IsBlanks b) (s : List Char) :
    skipSpace (b ++ s) = skipSpace s := by
  induction b with
  | nil => rfl
  | cons c b ih =>
      rw [List.cons_append, skipSpace, List.dropWhile_cons_of_pos (hb c List.mem_cons_self)]
      exact ih fun d hd => hb d (List.mem_cons_of_mem c hd)

theorem skipSpace_cons {c : Char} (h : isSpace c = false) (s : List Char) :
    skipSpace (c :: s) = c :: s :=
  List.dropWhile_cons_of_neg (by rw [h]; exact Bool.false_ne_true)

/-- Nothing but blanks is passed over. -/
theorem exists_skipSpace (s : List Char) : ∃ b, IsBlanks b ∧ s = b ++ skipSpace s := by
  induction s with
  | nil => exact ⟨[], .nil, rfl⟩
  | cons c s ih =>
      cases hc : isSpace c with
      | false => exact ⟨[], .nil, (skipSpace_cons hc s).symm⟩
      | true =>
          obtain ⟨b, hb, hs⟩ := ih
          refine ⟨c :: b, ?_, ?_⟩
          · exact List.forall_mem_cons.2 ⟨hc, hb⟩
          · rw [skipSpace, List.dropWhile_cons_of_pos hc, List.cons_append]
            exact congrArg (c :: ·) hs

/-- What is left begins with no blank. -/
theorem isSpace_of_skipSpace {s r : List Char} {c : Char} (h : skipSpace s = c :: r) :
    isSpace c = false := by
  induction s with
  | nil => cases h
  | cons d s ih =>
      cases hd : isSpace d with
      | true =>
          rw [skipSpace, List.dropWhile_cons_of_pos hd] at h
          exact ih h
      | false =>
          rw [skipSpace_cons hd] at h
          obtain ⟨rfl, -⟩ := List.cons.inj h
          exact hd

/-- The first character of a text that is no blank, with the blanks before it. -/
theorem skipSpace_eq_cons_iff {s r : List Char} {c : Char} :
    skipSpace s = c :: r ↔ ∃ b, IsBlanks b ∧ isSpace c = false ∧ s = b ++ c :: r := by
  constructor
  · intro h
    obtain ⟨b, hb, hs⟩ := exists_skipSpace s
    exact ⟨b, hb, isSpace_of_skipSpace h, by rw [← h]; exact hs⟩
  · rintro ⟨b, hb, hc, rfl⟩
    rw [skipSpace_append hb, skipSpace_cons hc]

/-- Nothing is left just of a text of blanks. -/
theorem skipSpace_eq_nil_iff {s : List Char} : skipSpace s = [] ↔ IsBlanks s := by
  constructor
  · intro h
    obtain ⟨b, hb, hs⟩ := exists_skipSpace s
    rw [h, List.append_nil] at hs
    exact hs ▸ hb
  · intro h
    have := skipSpace_append h []
    rwa [List.append_nil] at this

/-! ### Where a value begins and ends -/

/-- Whether a text begins with a character that neither a blank nor a closing bracket is. -/
def Starts (s : List Char) : Prop :=
  ∃ c r, s = c :: r ∧ isSpace c = false ∧ c ≠ ']' ∧ c ≠ '}'

/-- How a text begins does not depend on what stands behind it. -/
theorem Starts.append {s : List Char} (h : Starts s) (r : List Char) : Starts (s ++ r) := by
  obtain ⟨c, t, rfl, hc⟩ := h
  exact ⟨c, t ++ r, rfl, hc⟩

/-- Whether a text does not continue a number that stands before it. -/
def Stops (s : List Char) : Prop :=
  ∀ c, s.head? = some c → c.isDigit = false ∧ c ≠ '.' ∧ c ≠ 'e' ∧ c ≠ 'E'

/-- The end of the text stops a number. -/
theorem Stops.nil : Stops [] := fun _ h => nomatch h

/-- Blanks stop a number; where there are none, what stands behind them does. -/
theorem Stops.blanks {b s : List Char} (hb : IsBlanks b) (hs : Stops s) : Stops (b ++ s) := by
  cases b with
  | nil => exact hs
  | cons c b =>
      intro d hd
      obtain rfl : c = d := Option.some.inj hd
      have hc := hb c List.mem_cons_self
      simp only [isSpace, Bool.or_eq_true, decide_eq_true_eq] at hc
      rcases hc with ((rfl | rfl) | rfl) | rfl <;> decide

theorem Stops.comma (s : List Char) : Stops (',' :: s) := by
  intro c hc
  obtain rfl : ',' = c := Option.some.inj hc
  decide

/-- The bracket that closes a container stops a number. -/
theorem Stops.closing (c : Container) (s : List Char) : Stops (c.closing :: s) := by
  intro d hd
  obtain rfl : c.closing = d := Option.some.inj hd
  cases c <;> decide

/-- What stands behind an item of a container stops a number. -/
theorem Listed.stops {items : List (List Char)} {s : List Char} (h : Listed false items s)
    (c : Container) (r : List Char) : Stops (s ++ c.closing :: r) := by
  cases h with
  | nil hb => exact .blanks hb (.closing c r)
  | cons hl hs =>
      obtain ⟨b, b', hb, -, rfl⟩ := hl
      rw [List.append_assoc, List.append_assoc]
      exact .blanks hb (.comma _)

/-- A reader takes off the front of a text just what `W` admits, with blanks before it. -/
structure Reads {α : Type} (run : List Char → Reading α) (W : α → List Char → Prop) : Prop where
  /-- What it takes is admitted. -/
  sound : ∀ {s r a}, run s = .ok (a, r) → ∃ b w, s = b ++ (w ++ r) ∧ IsBlanks b ∧ W a w
  /-- It takes what is admitted, whole. -/
  complete : ∀ {b w r a}, IsBlanks b → W a w → Stops r → run (b ++ (w ++ r)) = .ok (a, r)
  /-- What is admitted begins as a value does. -/
  starts : ∀ {a w}, W a w → Starts w

/-- A reader whose values are put in another form takes the same texts. -/
theorem Reads.map {α β : Type} {f : α → β} {p : Reader α} {W : α → List Char → Prop}
    {V : β → List Char → Prop} (h : Reads p.run W) (hV : ∀ b w, V b w ↔ ∃ a, f a = b ∧ W a w) :
    Reads (p.map f).run V where
  sound := by
    intro s r b hr
    simp only [Reader.map] at hr
    split at hr
    · cases hr
    next a r' hp =>
      cases hr
      obtain ⟨bs, w, hs, hb, hw⟩ := h.sound hp
      exact ⟨bs, w, hs, hb, (hV _ _).2 ⟨a, rfl, hw⟩⟩
  complete := by
    intro bs w r b hb hv hr
    obtain ⟨a, rfl, hw⟩ := (hV _ _).1 hv
    simp only [Reader.map, h.complete hb hw hr]
  starts := by
    intro b w hv
    obtain ⟨a, -, hw⟩ := (hV _ _).1 hv
    exact h.starts hw

/-- What stands behind the character that begins a value. -/
theorem readBehind_eq_ok_iff {α : Type} {opening : Char} {inside : List Char → Reading α}
    {want : String} {s r : List Char} {a : α} (hopening : isSpace opening = false) :
    readBehind opening inside want s = .ok (a, r) ↔
      ∃ b t, s = b ++ opening :: t ∧ IsBlanks b ∧ inside t = .ok (a, r) := by
  constructor
  · intro h
    simp only [readBehind] at h
    split at h
    · cases h
    next c t hs =>
      split at h
      next hc =>
        obtain ⟨b, hb, -, rfl⟩ := skipSpace_eq_cons_iff.1 hs
        exact ⟨b, t, by rw [hc], hb, h⟩
      next => cases h
  · rintro ⟨b, t, rfl, hb, ht⟩
    rw [readBehind, skipSpace_append hb, skipSpace_cons hopening]
    simpa using ht

end ClusterWatch.Json
