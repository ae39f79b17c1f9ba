import ClusterWatch.Proofs.Json.Document
import ClusterWatch.Proofs.Text.Lines
import Mathlib.Data.List.SplitBy

/-!
# Layout — what stands inside a bracket is indented

`Indented s` says that a space stands behind every line feed of `s`, so that every line but the
first begins with a space (`Indented.head?_line`).  A document inside a bracket is indented
(`Document.indented_written`): the line feeds are those of the layout, since a string literal has
none, whatever it spells (`newline_notMem_loose`).

So among the lines of a container that stands in no bracket, the last one alone is the closing
bracket and nothing else (`Container.lines_written`).
-/

namespace ClusterWatch.Json
open Text (splitOn_append_newline exists_splitOn)

/-- Whether a space stands behind every line feed. -/
def Indented : List Char → Prop
  | [] => True
  | c :: s => (c = '\n' → s.head? = some ' ') ∧ Indented s

theorem Indented.append {s t : List Char} (hs : Indented s) (ht : Indented t) :
    Indented (s ++ t) := by
  induction s with
  | nil => exact ht
  | cons c s ih =>
      rw [List.cons_append]
      refine ⟨fun hc => ?_, ih hs.2⟩
      rw [List.head?_append, hs.1 hc]
      rfl

/-- Where no line ends, none has to be indented. -/
theorem indented_of_notMem {s : List Char} (h : '\n' ∉ s) : Indented s := by
  induction s with
  | nil => trivial
  | cons c s ih =>
      obtain ⟨hc, hs⟩ := not_or.1 (mt List.mem_cons.2 h)
      exact ⟨fun heq => absurd heq.symm hc, ih hs⟩

/-! ### Lines -/

/-- **Every line of an indented text but the first begins with a space.** -/
theorem Indented.head?_line {s line : List Char} (hs : Indented s)
    (h : line ∈ (s.splitOn '\n').tail) : line.head? = some ' ' := by
  induction s with
  | nil => cases h
  | cons c s ih =>
      by_cases hc : c = '\n'
      · subst hc
        rw [← List.nil_append ('\n' :: s), splitOn_append_newline, List.splitOn_nil] at h
        obtain ⟨s, rfl⟩ := List.head?_eq_some_iff.1 (hs.1 rfl)
        obtain ⟨first, hfirst⟩ := exists_splitOn (c := ' ') (by decide) s
        rw [hfirst] at h
        rcases List.mem_cons.1 h with rfl | h
        · rfl
        · exact ih hs.2 (by rwa [hfirst])
      · obtain ⟨first, hfirst⟩ := exists_splitOn hc s
        rw [hfirst] at h
        exact ih hs.2 h

/-! ### Leaves -/

/-- A line end in a string is written as an escape. -/
theorem newline_notMem_piece {p : List Char} (h : IsLoosePiece p) : '\n' ∉ p := by
  cases h with
  | @raw c _ _ hc =>
      rintro hmem
      obtain rfl := List.mem_singleton.1 hmem
      exact absurd hc (by decide)
  | @letter e c h =>
      have hletters : ∀ p ∈ letterEscapes, '\n' ∉ ['\\', p.1] := by decide
      exact hletters _ h
  | @unit x₁ x₂ x₃ x₄ n hn =>
      -- a line feed is no digit, so it cannot be one of the four
      have hnone : Text.hexValue? '\n' = none := by decide
      intro hmem
      simp only [List.mem_cons, List.not_mem_nil, or_false, Char.reduceEq, false_or] at hmem
      rcases hmem with rfl | rfl | rfl | rfl <;> simp [hexUnit?, hnone] at hn

/-- A string literal has no line feed in it. -/
theorem newline_notMem_loose {s : List Char} (h : IsLoose s) : '\n' ∉ s := by
  induction h with
  | nil => exact List.not_mem_nil
  | cons hp _ ih => exact fun hmem => (List.mem_append.1 hmem).elim (newline_notMem_piece hp) ih

theorem indented_encodeString (s : String) : Indented (encodeString s) := by
  have hs := indented_of_notMem (newline_notMem_loose (spells_encode s.toList).loose)
  exact .append (.append (indented_of_notMem (by decide)) hs) (indented_of_notMem (by decide))

theorem indented_numeral (n : Nat) : Indented (Decimal.numeral n) :=
  indented_of_notMem (Decimal.newline_notMem_numeral n)

/-! ### Containers -/

theorem indented_newLine {depth : Nat} (h : 0 < depth) : Indented (newLine depth) := by
  refine ⟨fun _ => ?_, indented_of_notMem fun hmem => ?_⟩
  · rw [List.head?_replicate, if_neg (by omega)]
  · exact absurd (List.mem_replicate.1 hmem).2 (by decide)

/-- Items are laid out on indented lines. -/
theorem indented_layOut {depth : Nat} (h : 0 < depth) {items : List (List Char)}
    (hitems : ∀ p ∈ items, Indented p) : Indented (layOut depth items) := by
  induction items with
  | nil => trivial
  | cons p ps ih =>
      obtain ⟨hp, hps⟩ := List.forall_mem_cons.1 hitems
      have hcomma : Indented (if ps.isEmpty then [] else [',']) := by
        split
        · trivial
        · exact indented_of_notMem (by decide)
      exact (indented_newLine h).append (hp.append (hcomma.append (ih hps)))

/-- A container inside another one is written on indented lines, if its items are. -/
theorem Container.indented_written (c : Container) {depth : Nat} (h : 0 < depth)
    {items : List (List Char)} (hitems : ∀ p ∈ items, Indented p) :
    Indented (c.written depth items) := by
  have hopening : Indented [c.opening] := indented_of_notMem (by cases c <;> decide)
  have hclosing : Indented [c.closing] := indented_of_notMem (by cases c <;> decide)
  rw [Container.written]
  split
  · exact hopening.append hclosing
  · have hinside := indented_layOut (Nat.succ_pos depth) hitems
    exact hopening.append ((hinside.append (indented_newLine h)).append hclosing)

theorem indented_memberWritten {depth : Nat} {m : String × Document}
    (h : Indented (m.2.written depth)) : Indented (memberWritten depth m) :=
  (indented_encodeString m.1).append (.append (indented_of_notMem (by decide)) h)

/-- **A document inside a bracket is indented**, whatever its texts are. -/
theorem Document.indented_written (d : Document) {depth : Nat} (h : 0 < depth) :
    Indented (d.written depth) := by
  induction d generalizing depth with
  | null =>
      rw [written]
      exact indented_of_notMem (by decide)
  | count n =>
      rw [written]
      exact indented_numeral n
  | text s =>
      rw [written]
      exact indented_encodeString s
  | list items ih =>
      rw [written_list]
      exact Container.indented_written _ h
        (List.forall_mem_map.2 fun d hd => ih d hd (Nat.succ_pos depth))
  | object members ih =>
      rw [written_object]
      exact Container.indented_written _ h
        (List.forall_mem_map.2 fun m hm => indented_memberWritten (ih m hm (Nat.succ_pos depth)))

/-- **The last line of a container alone is its closing bracket**, when the container stands in no
bracket and has items. -/
theorem Container.lines_written (c : Container) {items : List (List Char)} (hne : items ≠ [])
    (hitems : ∀ p ∈ items, Indented p) :
    ∃ front, (c.written 0 items).splitOn '\n' = front ++ [[c.closing]] ∧ [c.closing] ∉ front := by
  have htext : c.written 0 items = (c.opening :: layOut 1 items) ++ '\n' :: [c.closing] := by
    rw [Container.written, if_neg (by simpa using hne)]
    simp [newLine]
  have hclosing : [c.closing].splitOn '\n' = [[c.closing]] := by cases c <;> rfl
  refine ⟨(c.opening :: layOut 1 items).splitOn '\n', ?_, fun hmem => ?_⟩
  · rw [htext, splitOn_append_newline, hclosing]
  · obtain ⟨first, hfirst⟩ := exists_splitOn (c := c.opening) (by cases c <;> decide)
      (layOut 1 items)
    rw [hfirst] at hmem
    rcases List.mem_cons.1 hmem with heq | hmem
    · exact absurd (List.cons.inj heq).1 (by cases c <;> decide)
    · have hspace := (indented_layOut Nat.one_pos hitems).head?_line hmem
      exact absurd (Option.some.inj hspace) (by cases c <;> decide)

end ClusterWatch.Json
