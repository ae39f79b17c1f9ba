import Mathlib.Data.List.Basic

/-!
# Lines — a text is cut at its line feeds

The lines of a text are what its line feeds stand between, so there is one line behind the last of
them.  A line feed between two texts puts their lines one behind the other
(`splitOn_append_newline`), and a text without one is a single line (`OneLine.splitOn`).  So lines
that are written one after another, each with its end, are read back as they were (`splitOn_join`).
-/

namespace ClusterWatch.Text

/-- A line end cuts a text into the lines before it and those behind it. -/
theorem splitOn_append_newline (s r : List Char) :
    (s ++ '\n' :: r).splitOn '\n' = s.splitOn '\n' ++ r.splitOn '\n' :=
  List.splitOnP_append_cons s r BEq.rfl

/-- A line begins with the character that begins the text, unless that ends the line. -/
theorem exists_splitOn {c : Char} (hc : c ≠ '\n') (s : List Char) :
    ∃ line, (c :: s).splitOn '\n' = (c :: line) :: (s.splitOn '\n').tail := by
  obtain ⟨line, lines, hlines⟩ := List.exists_cons_of_ne_nil (List.splitOnP_ne_nil (· == '\n') s)
  refine ⟨line, ?_⟩
  rw [List.splitOn, List.splitOnP_cons_eq_if_modifyHead, if_neg (by simpa using hc), List.splitOn,
    hlines]
  rfl

/-! ### Single lines -/

/-- Whether a text has no line feed. -/
def OneLine (s : List Char) : Prop := '\n' ∉ s

instance (s : List Char) : Decidable (OneLine s) := inferInstanceAs (Decidable ('\n' ∉ s))

theorem OneLine.append {s t : List Char} (hs : OneLine s) (ht : OneLine t) : OneLine (s ++ t) :=
  fun h => (List.mem_append.1 h).elim hs ht

theorem OneLine.append_string {s t : String} (hs : OneLine s.toList) (ht : OneLine t.toList) :
    OneLine (s ++ t).toList := by
  rw [String.toList_append]
  exact hs.append ht

/-- A text without a line end is one line. -/
theorem OneLine.splitOn {s : List Char} (h : OneLine s) : s.splitOn '\n' = [s] :=
  List.splitOnP_eq_singleton fun _ hc => beq_eq_false_iff_ne.2 (ne_of_mem_of_not_mem hc h)

/-- **Written lines are read back**, and behind the last of them nothing is left. -/
theorem splitOn_join {lines : List String} (h : ∀ line ∈ lines, OneLine line.toList) :
    (String.join (lines.map (· ++ "\n"))).toList.splitOn '\n' =
      lines.map String.toList ++ [[]] := by
  induction lines with
  | nil => exact List.splitOn_nil '\n'
  | cons line lines ih =>
      rw [List.forall_mem_cons] at h
      have htext : (String.join ((line :: lines).map (· ++ "\n"))).toList =
          line.toList ++ '\n' :: (String.join (lines.map (· ++ "\n"))).toList := by
        rw [List.map_cons, String.join_cons, String.toList_append, String.toList_append,
          List.append_assoc]
        rfl
      rw [htext, splitOn_append_newline, h.1.splitOn, ih h.2]
      rfl

end ClusterWatch.Text
