import ClusterWatch.ByteSize
import ClusterWatch.Snapshot

/-!
# Table — a snapshot as text to read

A snapshot is shown as a few lines about the master and a table with one row per agent.  The cells
of a row stand in columns of fixed width, counted in characters; a cell that is longer than its
column pushes the rest of its row to the right.
-/

namespace ClusterWatch

namespace Table

/-- The columns of the table: their titles and their widths. -/
def columns : List (String × Nat) :=
  [("Host", 20), ("CPUs", 10), ("Memory", 22), ("Disk", 22), ("Tasks", 6)]

/-- A text filled up with spaces to a width. -/
def cell (width : Nat) (s : List Char) : List Char :=
  s ++ List.replicate (width - s.length) ' '

/-- Cells in columns of the given widths, a space between columns, two before the first. -/
def row (widths : List Nat) (cells : List (List Char)) : List Char :=
  [' ', ' '] ++ List.intercalate [' '] (List.zipWith cell widths cells)

/-- Cells in the columns of the table. -/
def tableRow (cells : List (List Char)) : List Char := row (columns.map (·.2)) cells

/-- The row of titles. -/
def header : List Char := tableRow (columns.map (·.1.toList))

/-- The line under the titles. -/
def rule : List Char := [' ', ' '] ++ List.replicate 84 '-'

end Table

/-- The free and the whole amount of a resource that is counted. -/
def Agent.cpuCell (a : Agent) : List Char :=
  (Decimal.text a.released.cpus.toNat ++ "/" ++ Decimal.text a.resource.cpus.toNat).toList

/-- The free and the whole amount of a resource that is measured in bytes. -/
def Agent.byteCell (free whole : UInt64) : List Char :=
  (ByteSize.textOfCount free ++ " / " ++ ByteSize.textOfCount whole).toList

/-- The row of an agent. -/
def Agent.row (a : Agent) : List Char :=
  Table.tableRow
    [a.host.toList, a.cpuCell, byteCell a.released.memory a.resource.memory,
      byteCell a.released.space a.resource.space, Decimal.numeral a.tasks.toNat]

/-- How long ago an instant is. -/
def Instant.ago (t now : Instant) : String :=
  let seconds := t.secondsUntil now
  if seconds = 0 then "just now"
  else if seconds < 60 then Decimal.text seconds ++ "s ago"
  else Decimal.text (seconds / 60) ++ "m" ++ Decimal.text (seconds % 60) ++ "s ago"

namespace Snapshot

/-- The lines about the master. -/
def masterLines (m : Master) (updatedAt : Option Instant) (now : Instant) : List String :=
  ["", "[Master]", "  Host:    " ++ m.host, "  Agents:  " ++ Decimal.text m.agents.toNat,
    "  Graphs:  " ++ Decimal.text m.graphs.toNat] ++
    (updatedAt.map fun t => "  Updated: " ++ t.ago now).toList

/-- The lines of the table of agents, or a line that says that there are none. -/
def agentLines (agents : List Agent) : List String :=
  if agents.isEmpty then ["  (No agents registered)"]
  else String.ofList Table.header :: String.ofList Table.rule ::
    agents.map fun a => String.ofList a.row

/-- The lines of a snapshot that is looked at at a time. -/
def lines (s : Snapshot) (now : Instant) : List String :=
  ["", "=== dtcraft Cluster ==="] ++
    match s.master with
    | none => ["", "  (waiting for master...)", ""]
    | some m => masterLines m s.updatedAt now ++ ["", "[Agents]"] ++ agentLines s.agents ++ [""]

/-- The text of a snapshot that is looked at at a time, each line with its end. -/
def render (s : Snapshot) (now : Instant) : String :=
  String.join ((s.lines now).map (· ++ "\n"))

end Snapshot

end ClusterWatch
