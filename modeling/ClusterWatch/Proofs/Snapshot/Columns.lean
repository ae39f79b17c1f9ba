import ClusterWatch.Proofs.Text.Lines
import ClusterWatch.Snapshot.Table
import Mathlib.Algebra.GroupWithZero.Nat

/-!
# Columns — where the cells of a row stand

Cells take no less room than their columns (`length_spaced`), so a row is as wide as the table just
when all of its cells fit (`Fits`).  Then each of them takes the room of its column, and begins
where the column does (`inPlace_spaced`).  Hence a row is aligned just when its cells fit
(`aligned_tableRow_iff`), and the titles are.
-/

namespace ClusterWatch

namespace Table

/-- Where the columns begin, and their widths. -/
def places : List (ℕ × ℕ) := [(2, 20), (23, 10), (34, 22), (57, 22), (80, 6)]

/-- `Fits widths cells`: no cell is longer than its column is wide. -/
def Fits (widths : List ℕ) (cells : List (List Char)) : Prop :=
  List.Forall₂ (fun w c => c.length ≤ w) widths cells

/-- `Aligned cells line`: a line that is as wide as the table, on which each cell, filled up to its
width, begins where its column does. -/
structure Aligned (cells : List (List Char)) (line : List Char) : Prop where
  oneLine : Text.OneLine line
  width : line.length = 86
  inPlace : List.Forall₂ (fun p c => cell p.2 c <+: line.drop p.1) places cells

/-! ### Cells -/

/-- A cell is as wide as its column, or as what it holds. -/
theorem length_cell (w : ℕ) (c : List Char) : (cell w c).length = max w c.length := by
  rw [cell, List.length_append, List.length_replicate]
  omega

theorem mem_cell {w : ℕ} {c : List Char} {x : Char} (h : x ∈ cell w c) : x ∈ c ∨ x = ' ' :=
  (List.mem_append.1 h).imp_right List.eq_of_mem_replicate

/-- Cells in columns of the given widths, a space before each of them. -/
def spaced (widths : List ℕ) (cells : List (List Char)) : List Char :=
  (List.zipWith cell widths cells).flatMap (' ' :: ·)

theorem spaced_cons (w : ℕ) (ws : List ℕ) (c : List Char) (cs : List (List Char)) :
    spaced (w :: ws) (c :: cs) = ' ' :: cell w c ++ spaced ws cs := rfl

theorem space_cons_intercalate (c : List Char) (cs : List (List Char)) :
    ' ' :: List.intercalate [' '] (c :: cs) = (c :: cs).flatMap (' ' :: ·) := by
  induction cs generalizing c with
  | nil => simp
  | cons d cs ih =>
      rw [List.intercalate_cons_cons, List.flatMap_cons, ← ih d]
      simp

/-- A row begins with one space more. -/
theorem row_eq (w : ℕ) (ws : List ℕ) (c : List Char) (cs : List (List Char)) :
    row (w :: ws) (c :: cs) = ' ' :: spaced (w :: ws) (c :: cs) := by
  rw [row, List.zipWith_cons_cons, spaced, List.zipWith_cons_cons, ← space_cons_intercalate]
  rfl

/-- A row holds nothing but its cells and spaces. -/
theorem mem_spaced {ws : List ℕ} {cs : List (List Char)} {x : Char} (h : x ∈ spaced ws cs) :
    x = ' ' ∨ ∃ c ∈ cs, x ∈ c := by
  induction ws generalizing cs with
  | nil => cases h
  | cons w ws ih =>
      cases cs with
      | nil => cases h
      | cons c cs =>
          rw [spaced_cons, List.cons_append] at h
          rcases List.mem_cons.1 h with h | h
          · exact .inl h
          · rcases List.mem_append.1 h with h | h
            · exact (mem_cell h).symm.imp_right fun h => ⟨c, List.mem_cons_self .., h⟩
            · exact (ih h).imp_right fun ⟨d, hd, h⟩ => ⟨d, List.mem_cons_of_mem _ hd, h⟩

/-- **Cells take no less room than their columns, and no more just when they all fit.** -/
theorem length_spaced {ws : List ℕ} {cs : List (List Char)} (h : ws.length = cs.length) :
    ws.sum + ws.length ≤ (spaced ws cs).length ∧
      ((spaced ws cs).length = ws.sum + ws.length ↔ Fits ws cs) := by
  induction ws generalizing cs with
  | nil =>
      obtain rfl := List.length_eq_zero_iff.1 h.symm
      exact ⟨Nat.le_refl 0, iff_of_true rfl .nil⟩
  | cons w ws ih =>
      cases cs with
      | nil => cases h
      | cons c cs =>
          obtain ⟨hle, hiff⟩ := ih (Nat.succ.inj h)
          rw [Fits] at hiff ⊢
          rw [List.forall₂_cons, ← hiff, spaced_cons, List.cons_append]
          simp only [List.length_cons, List.length_append, length_cell, List.sum_cons]
          omega

/-! ### Columns -/

/-- The columns of the given widths behind `start` characters, a space before each of them. -/
def placesFrom (start : ℕ) : List ℕ → List (ℕ × ℕ)
  | [] => []
  | w :: ws => (start + 1, w) :: placesFrom (start + 1 + w) ws

/-- The places of the columns follow from their widths. -/
theorem placesFrom_columns : placesFrom 1 (columns.map (·.2)) = places := rfl

/-- **Cells that fit begin where their columns do**, for each takes the room of its column. -/
theorem inPlace_spaced {ws : List ℕ} {cs : List (List Char)} (h : Fits ws cs)
    (front : List Char) :
    List.Forall₂ (fun p c => cell p.2 c <+: (front ++ spaced ws cs).drop p.1)
      (placesFrom front.length ws) cs := by
  -- one cell after the other joins what stands in front of the rest
  induction h generalizing front with
  | nil => exact .nil
  | @cons w c ws cs hc _ ih =>
      have hsplit : front ++ spaced (w :: ws) (c :: cs) =
          front ++ [' '] ++ (cell w c ++ spaced ws cs) := by
        rw [spaced_cons]
        simp
      have hstart : (front ++ [' ']).length = front.length + 1 := by simp
      have hend : (front ++ [' '] ++ cell w c).length = front.length + 1 + w := by
        rw [List.length_append, hstart, length_cell, Nat.max_eq_left hc]
      refine .cons ?_ ?_
      · rw [hsplit, ← hstart, List.drop_left]
        exact List.prefix_append _ _
      · rw [hsplit, ← List.append_assoc, ← hend]
        exact ih _

/-- Cells without a line end make a row without one. -/
theorem oneLine_tableRow {cells : List (List Char)} (h : ∀ c ∈ cells, Text.OneLine c) :
    Text.OneLine (tableRow cells) := by
  cases cells with
  | nil => decide
  | cons c cs =>
      intro hmem
      rw [tableRow, columns, List.map_cons, row_eq] at hmem
      rcases List.mem_cons.1 hmem with hmem | hmem
      · cases hmem
      · rcases mem_spaced hmem with hmem | ⟨d, hd, hmem⟩
        · cases hmem
        · exact h d hd hmem

/-- **A row is aligned just when its cells fit.** -/
theorem aligned_tableRow_iff {cells : List (List Char)} (hlength : cells.length = 5)
    (h : ∀ c ∈ cells, Text.OneLine c) :
    Aligned cells (tableRow cells) ↔ Fits (columns.map (·.2)) cells := by
  have hcolumns : (columns.map (·.2)).length = cells.length := hlength.symm
  have hspaced := (length_spaced hcolumns).2
  have hrow : tableRow cells = [' '] ++ spaced (columns.map (·.2)) cells := by
    obtain ⟨c, cs, rfl⟩ := List.exists_cons_of_length_eq_add_one hlength
    exact row_eq ..
  constructor
  · -- the width alone leaves no cell room for more
    intro haligned
    have hwidth := haligned.width
    rw [hrow, List.length_append] at hwidth
    exact hspaced.1 (Nat.add_left_cancel hwidth)
  · intro hfits
    refine ⟨oneLine_tableRow h, ?_, ?_⟩
    · rw [hrow, List.length_append, hspaced.2 hfits]
      rfl
    · rw [hrow, ← placesFrom_columns]
      exact inPlace_spaced hfits [' ']

/-- The titles are aligned. -/
theorem aligned_header : Aligned (columns.map (·.1.toList)) header := by
  refine (aligned_tableRow_iff rfl (by decide)).2 ?_
  simp [Fits, columns]

theorem length_rule : rule.length = 86 := rfl

end Table

end ClusterWatch
