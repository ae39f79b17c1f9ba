import ClusterWatch.Instant.Calendar
import ClusterWatch.Json.Document
import ClusterWatch.Snapshot

/-!
# Raw — a snapshot as a JSON document

The raw form of a snapshot names its members as a status on the wire does and adds the time of the
update, so the raw form of a loaded snapshot is itself the text of a status.
-/

namespace ClusterWatch
open Json

/-- A resource as a document. -/
def Resource.document (r : Resource) : Document :=
  .object [("num_cpus", .count r.cpus.toNat), ("memory_limit_in_bytes", .count r.memory.toNat),
    ("space_limit_in_bytes", .count r.space.toNat)]

/-- A master as a document. -/
def Master.document (m : Master) : Document :=
  .object [("host", .text m.host), ("num_agents", .count m.agents.toNat),
    ("num_graphs", .count m.graphs.toNat)]

/-- An agent as a document. -/
def Agent.document (a : Agent) : Document :=
  .object [("host", .text a.host), ("resource", a.resource.document),
    ("released", a.released.document), ("num_tasks", .count a.tasks.toNat)]

namespace Snapshot

/-- A snapshot as a document. -/
def document (s : Snapshot) : Document :=
  .object [("master", (s.master.map Master.document).getD .null),
    ("agents", .list (s.agents.map Agent.document)),
    ("updated_at", (s.updatedAt.map fun t => .text (String.ofList t.text)).getD .null)]

/-- The raw form of a snapshot. -/
def raw (s : Snapshot) : List Char := s.document.pretty

end Snapshot

end ClusterWatch
