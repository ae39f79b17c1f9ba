import ClusterWatch.Text.Blank

/-!
# Trimming — a trimmed text has no blank at its ends

`head?_trim` and `getLast?_trim` say so for the two ends.  Blanks are all that trimming takes
(`exists_trimStart`, `exists_trimEnd`), and it takes them all from around a text that has none at
its ends (`trimStart_append`, `trimEnd_append`).  The bytes of a text add up over its parts
(`byteLength_append`).
-/

namespace ClusterWatch.Text

/-- A text of blanks. -/
def Blanks (s : List Char) : Prop := ∀ c ∈ s, isBlank c = true

theorem Blanks.nil : Blanks [] := fun _ h => nomatch h

/-- Only blanks are taken from the start. -/
theorem exists_trimStart (s : List Char) : ∃ b, Blanks b ∧ s = b ++ trimStart s :=
  ⟨s.takeWhile isBlank, fun c hc => List.all_eq_true.1 List.all_takeWhile c hc,
    List.takeWhile_append_dropWhile.symm⟩

/-- Blanks before a text are trimmed, and nothing else. -/
theorem trimStart_append {b s : List Char} (hb : Blanks b)
    (hs : ∀ c, s.head? = some c → isBlank c = false) : trimStart (b ++ s) = s := by
  rw [trimStart, List.dropWhile_append_of_pos hb]
  cases s with
  | nil => rfl
  | cons c s => exact List.dropWhile_cons_of_neg (by simp [hs c rfl])

/-- Trimming ends at a character that is no blank. -/
theorem trimStart_append_cons (s : List Char) {c : Char} (hc : isBlank c = false) (r : List Char) :
    trimStart (s ++ c :: r) = trimStart s ++ c :: r := by
  rw [trimStart, trimStart, List.dropWhile_append, List.dropWhile_cons_of_neg (by simp [hc])]
  split
  next h => rw [List.isEmpty_iff.1 h, List.nil_append]
  next => rfl

/-- Blanks behind a text are trimmed, and nothing else. -/
theorem trimEnd_append {s b : List Char} (hb : Blanks b)
    (hs : ∀ c, s.getLast? = some c → isBlank c = false) : trimEnd (s ++ b) = s := by
  have hreverse : trimStart (b.reverse ++ s.reverse) = s.reverse :=
    trimStart_append (fun c hc => hb c (List.mem_reverse.1 hc)) fun c hc => by
      rw [List.head?_reverse] at hc
      exact hs c hc
  rw [trimEnd, List.reverse_append, ← trimStart, hreverse, List.reverse_reverse]

theorem trimEnd_eq_self {s : List Char} (hs : ∀ c, s.getLast? = some c → isBlank c = false) :
    trimEnd s = s := by
  simpa using trimEnd_append .nil hs

theorem head?_trimStart {s : List Char} {c : Char} (h : (trimStart s).head? = some c) :
    isBlank c = false := by
  have hnot := List.head?_dropWhile_not isBlank s
  rw [trimStart] at h
  rw [h] at hnot
  exact hnot

/-- Only blanks are taken from the end. -/
theorem exists_trimEnd (s : List Char) : ∃ b, Blanks b ∧ s = trimEnd s ++ b := by
  refine ⟨(s.reverse.takeWhile isBlank).reverse, fun c hc => ?_, ?_⟩
  · exact List.all_eq_true.1 List.all_takeWhile c (List.mem_reverse.1 hc)
  · rw [trimEnd, ← List.reverse_append, List.takeWhile_append_dropWhile, List.reverse_reverse]

/-- A trimmed text begins with no blank. -/
theorem head?_trim {s : List Char} {c : Char} (h : (trim s).head? = some c) :
    isBlank c = false := by
  obtain ⟨b, -, hb⟩ := exists_trimEnd (trimStart s)
  refine head?_trimStart (s := s) ?_
  rw [hb, List.head?_append]
  rw [trim] at h
  rw [h]
  rfl

/-- A trimmed text ends with no blank. -/
theorem getLast?_trim {s : List Char} {c : Char} (h : (trim s).getLast? = some c) :
    isBlank c = false := by
  rw [trim, trimEnd, List.getLast?_reverse] at h
  have hnot := List.head?_dropWhile_not isBlank (trimStart s).reverse
  rw [h] at hnot
  exact hnot

theorem byteLength_append (s r : List Char) :
    byteLength (s ++ r) = byteLength s + byteLength r := by
  induction s with
  | nil => exact (Nat.zero_add _).symm
  | cons c s ih => rw [List.cons_append, byteLength, ih, byteLength, Nat.add_assoc]

end ClusterWatch.Text
