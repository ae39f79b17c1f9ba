import ClusterWatch.Proofs.ByteSize.Width
import ClusterWatch.Proofs.Snapshot.Columns

/-!
# Table — how far the columns hold

The cell of two byte counts fits its column unless both are huge (`Agent.length_byteCell_le_iff`),
and is at most one character too long.  So that is what keeps the row of an agent aligned whose
other cells fit (`Agent.aligned_row_iff`).

No cell can break a line but a host, so the lines of a snapshot are read back from its text
(`Snapshot.splitOn_render`): behind the rule, one line for each agent.
-/

namespace ClusterWatch

theorem Decimal.oneLine_text (n : ℕ) : Text.OneLine (text n).toList := by
  rw [text, String.toList_ofList]
  exact newline_notMem_numeral n

/-! ### Rows of agents -/

namespace Agent
open ByteSize (textOfCount IsHuge)

/-- The cells of an agent. -/
def cells (a : Agent) : List (List Char) :=
  [a.host.toList, a.cpuCell, byteCell a.released.memory a.resource.memory,
    byteCell a.released.space a.resource.space, Decimal.numeral a.tasks.toNat]

theorem row_eq_tableRow (a : Agent) : a.row = Table.tableRow a.cells := rfl

section
variable (free whole : UInt64)

theorem length_byteCell :
    (byteCell free whole).length =
      (textOfCount free).length + 3 + (textOfCount whole).length := by
  rw [byteCell, String.length_toList, String.length_append, String.length_append]
  rfl

/-- **The cell of two byte counts fits unless both are huge.** -/
theorem length_byteCell_le_iff :
    (byteCell free whole).length ≤ 22 ↔
      ¬ (IsHuge (textOfCount free) ∧ IsHuge (textOfCount whole)) := by
  have hfree := ByteSize.length_textOfCount_le_ten free
  have hwhole := ByteSize.length_textOfCount_le_ten whole
  rw [length_byteCell, not_and_or, ← ByteSize.length_textOfCount_le_nine_iff,
    ← ByteSize.length_textOfCount_le_nine_iff]
  omega

theorem length_byteCell_le : (byteCell free whole).length ≤ 23 := by
  have hfree := ByteSize.length_textOfCount_le_ten free
  have hwhole := ByteSize.length_textOfCount_le_ten whole
  rw [length_byteCell]
  omega

end

/-! ### Lines of agents -/

theorem oneLine_byteCell (free whole : UInt64) : Text.OneLine (byteCell free whole) :=
  ((ByteSize.oneLine_textOfCount free).append_string (by decide)).append_string
    (ByteSize.oneLine_textOfCount whole)

/-- No cell can break a line but the host. -/
theorem oneLine_cells {a : Agent} (h : Text.OneLine a.host.toList) :
    ∀ c ∈ a.cells, Text.OneLine c := by
  have hcpus : Text.OneLine a.cpuCell :=
    ((Decimal.oneLine_text _).append_string (by decide)).append_string (Decimal.oneLine_text _)
  have hbytes := oneLine_byteCell
  have htasks : Text.OneLine (Decimal.numeral a.tasks.toNat) := Decimal.newline_notMem_numeral _
  simp only [cells, List.forall_mem_cons]
  exact ⟨h, hcpus, hbytes _ _, hbytes _ _, htasks, fun _ h => nomatch h⟩

/-- **A row is aligned as far as its byte counts are not huge**, where its other cells fit. -/
theorem aligned_row_iff {a : Agent} (hhost : a.host.length ≤ 20)
    (hline : Text.OneLine a.host.toList)
    (hcpus : a.cpuCell.length ≤ 10) (htasks : a.tasks.toNat < 10 ^ 6) :
    Table.Aligned a.cells a.row ↔
      ¬ (IsHuge (textOfCount a.released.memory) ∧ IsHuge (textOfCount a.resource.memory)) ∧
      ¬ (IsHuge (textOfCount a.released.space) ∧ IsHuge (textOfCount a.resource.space)) := by
  have htasks' := (Decimal.length_numeral_le_iff (by decide)).2 htasks
  have hhost' : a.host.toList.length ≤ 20 := by rwa [String.length_toList]
  rw [row_eq_tableRow, Table.aligned_tableRow_iff rfl (oneLine_cells hline), Table.Fits,
    ← length_byteCell_le_iff, ← length_byteCell_le_iff]
  simp [Table.columns, cells, hhost', hcpus, htasks']

end Agent

/-! ### The lines of a snapshot -/

namespace Snapshot
open Decimal (oneLine_text)
open Text (OneLine)

theorem oneLine_ago (t now : Instant) : OneLine (t.ago now).toList := by
  simp only [Instant.ago]
  split_ifs
  · decide
  · exact (oneLine_text _).append_string (by decide)
  · exact ((oneLine_text _).append_string (by decide)).append_string (oneLine_text _)
      |>.append_string (by decide)

theorem oneLine_masterLines {m : Master} (h : OneLine m.host.toList) (t : Option Instant)
    (now : Instant) : ∀ line ∈ masterLines m t now, OneLine line.toList := by
  have hupdated : ∀ line ∈ (t.map fun t => "  Updated: " ++ t.ago now).toList,
      OneLine line.toList := by
    cases t with
    | none => exact fun _ h => nomatch h
    | some t =>
        intro line hline
        rw [List.mem_singleton.1 hline]
        exact .append_string (by decide) (oneLine_ago t now)
  have hhost : OneLine ("  Host:    " ++ m.host).toList := .append_string (by decide) h
  have hcount : ∀ n, OneLine ("  Agents:  " ++ Decimal.text n).toList ∧
      OneLine ("  Graphs:  " ++ Decimal.text n).toList := fun n =>
    ⟨.append_string (by decide) (oneLine_text n), .append_string (by decide) (oneLine_text n)⟩
  rw [masterLines, List.forall_mem_append]
  refine ⟨?_, hupdated⟩
  simp only [List.forall_mem_cons]
  exact ⟨by decide, by decide, hhost, (hcount _).1, (hcount _).2, fun _ h => nomatch h⟩

/-- The lines before the table of agents. -/
def preamble (m : Master) (t : Option Instant) (now : Instant) : List String :=
  ["", "=== dtcraft Cluster ==="] ++ masterLines m t now ++ ["", "[Agents]"]

/-- **The table has one line for each agent**, between the rule and the last, empty line. -/
theorem splitOn_render {s : Snapshot} {m : Master} (hmaster : s.master = some m)
    (hagents : s.agents ≠ []) (hhost : OneLine m.host.toList)
    (hhosts : ∀ a ∈ s.agents, OneLine a.host.toList) (now : Instant) :
    (s.render now).toList.splitOn '\n' =
      (preamble m s.updatedAt now).map String.toList ++ [Table.header, Table.rule] ++
        s.agents.map Agent.row ++ [[], []] := by
  have hlines : s.lines now = preamble m s.updatedAt now ++
      String.ofList Table.header :: String.ofList Table.rule ::
        (s.agents.map fun a => String.ofList a.row) ++ [""] := by
    rw [lines, hmaster, agentLines, if_neg (by simpa using hagents)]
    simp [preamble]
  have hrows : ∀ a ∈ s.agents, OneLine a.row := fun a ha =>
    Table.oneLine_tableRow (Agent.oneLine_cells (hhosts a ha))
  have hone : ∀ line ∈ s.lines now, OneLine line.toList := by
    rw [hlines, preamble]
    simp only [List.forall_mem_append, List.forall_mem_cons, List.forall_mem_map,
      String.toList_ofList]
    exact ⟨⟨⟨⟨⟨by decide, by decide, fun _ h => nomatch h⟩, oneLine_masterLines hhost _ _⟩,
      by decide, by decide, fun _ h => nomatch h⟩,
      Table.aligned_header.oneLine, by decide, hrows⟩, by decide, fun _ h => nomatch h⟩
  rw [render, Text.splitOn_join hone, hlines]
  simp [Function.comp_def]

end Snapshot

open ByteSize (textOfCount IsHuge)
open Text (OneLine)

/-- **The table of agents is aligned as far as its cells fit.**  The row of an agent whose other
cells fit is aligned just when neither of its cells of byte counts shows two huge ones; no such cell
is more than one character too long; the titles are aligned, and the rule is as wide.  The lines of
a snapshot have, behind the rule, one line for each agent and an empty one. -/
theorem agents_table_aligned :
    (∀ a : Agent, a.host.length ≤ 20 → OneLine a.host.toList → a.cpuCell.length ≤ 10 →
      a.tasks.toNat < 10 ^ 6 →
      (Table.Aligned a.cells a.row ↔
        ¬ (IsHuge (textOfCount a.released.memory) ∧ IsHuge (textOfCount a.resource.memory)) ∧
        ¬ (IsHuge (textOfCount a.released.space) ∧ IsHuge (textOfCount a.resource.space)))) ∧
    (∀ free whole, (Agent.byteCell free whole).length ≤ 23) ∧
    (Table.Aligned (Table.columns.map (·.1.toList)) Table.header ∧ Table.rule.length = 86) ∧
    ∀ (s : Snapshot) (m : Master) (now : Instant), s.master = some m → s.agents ≠ [] →
      OneLine m.host.toList → (∀ a ∈ s.agents, OneLine a.host.toList) →
      (s.render now).toList.splitOn '\n' =
        (Snapshot.preamble m s.updatedAt now).map String.toList ++ [Table.header, Table.rule] ++
          s.agents.map Agent.row ++ [[], []] :=
  ⟨fun _ => Agent.aligned_row_iff, Agent.length_byteCell_le,
    ⟨Table.aligned_header, Table.length_rule⟩,
    fun _ _ now hmaster hagents hhost hhosts =>
      Snapshot.splitOn_render hmaster hagents hhost hhosts now⟩

/-- An agent with a pair of counts of which only one is huge, in a snapshot of its own; and one with
two huge counts, which push its row to the right. -/
theorem agents_table_aligned_widest :
    (∃ a : Agent, a.host.length ≤ 20 ∧ OneLine a.host.toList ∧ a.cpuCell.length ≤ 10 ∧
      a.tasks.toNat < 10 ^ 6 ∧ textOfCount a.released.memory = "9999.9 PB" ∧
      textOfCount a.resource.memory = "18446.7 PB" ∧ Table.Aligned a.cells a.row ∧
      ∃ (s : Snapshot) (m : Master) (now : Instant), s.master = some m ∧ s.agents = [a] ∧
        OneLine m.host.toList ∧ (s.render now).toList.splitOn '\n' =
          (Snapshot.preamble m s.updatedAt now).map String.toList ++
            [Table.header, Table.rule, a.row, [], []]) ∧
    ∃ a : Agent, a.host.length ≤ 20 ∧ OneLine a.host.toList ∧ a.cpuCell.length ≤ 10 ∧
      a.tasks.toNat < 10 ^ 6 ∧ textOfCount a.released.memory = "10000.0 PB" ∧
      textOfCount a.resource.memory = "18446.7 PB" ∧ ¬ Table.Aligned a.cells a.row := by
  have hmost : textOfCount 18446744073709551615 = "18446.7 PB" := by decide +kernel
  have hless : textOfCount 9999900000000000000 = "9999.9 PB" := by decide +kernel
  have hleast : textOfCount 10000000000000000000 = "10000.0 PB" := by decide +kernel
  have hmost' : IsHuge (textOfCount 18446744073709551615) := by
    rw [hmost]
    exact ⟨⟨184467 / 10, .peta⟩, by decide +kernel, rfl, by norm_num⟩
  have hless' : ¬ IsHuge (textOfCount 9999900000000000000) :=
    (ByteSize.length_textOfCount_le_nine_iff _).1 (by rw [hless]; decide)
  have hleast' : IsHuge (textOfCount 10000000000000000000) := by
    rw [hleast]
    exact ⟨⟨10000, .peta⟩, by decide +kernel, rfl, by norm_num⟩
  have hzero : ¬ IsHuge (textOfCount 0) :=
    (ByteSize.length_textOfCount_le_nine_iff _).1 (by decide +kernel)
  obtain ⟨haligned, -, -, hlines⟩ := agents_table_aligned
  refine ⟨⟨⟨"10.0.0.7", ⟨8, 18446744073709551615, 0⟩, ⟨6, 9999900000000000000, 0⟩, 2⟩,
    by decide, by decide, by decide +kernel, by decide, hless, hmost, ?_,
    ⟨some ⟨"10.0.0.1", 1, 3⟩, [_], none⟩, ⟨"10.0.0.1", 1, 3⟩, ⟨0, 0⟩, rfl, rfl, by decide, ?_⟩,
    ⟨"10.0.0.7", ⟨8, 18446744073709551615, 0⟩, ⟨6, 10000000000000000000, 0⟩, 2⟩,
    by decide, by decide, by decide +kernel, by decide, hleast, hmost, fun h => ?_⟩
  · exact (haligned _ (by decide) (by decide) (by decide +kernel) (by decide)).2
      ⟨fun h => hless' h.1, fun h => hzero h.1⟩
  · refine (hlines _ _ _ rfl (by simp) (by decide) ?_).trans (by simp)
    exact fun a ha => by rw [List.mem_singleton.1 ha]; decide
  · exact ((haligned _ (by decide) (by decide) (by decide +kernel) (by decide)).1 h).1
      ⟨hleast', hmost'⟩

end ClusterWatch
