import ClusterWatch.Cluster
import ClusterWatch.Json.Shape.Reader

/-!
# Wire — the JSON form of a status

A status is a record of records (`Status.shape`), so a text is decoded by the reader of that shape,
with nothing but blanks behind the value (`Status.decode`).
-/

namespace ClusterWatch
open Json

/-- The JSON form of a resource. -/
def Resource.shape : Shape :=
  .record "Resource" (.cons "num_cpus" .count (.cons "memory_limit_in_bytes" .count
    (.cons "space_limit_in_bytes" .count .nil)))

/-- The resource that a value of its form denotes. -/
def Resource.ofValue : Resource.shape.Value → Resource
  | (cpus, memory, space, ()) => ⟨cpus, memory, space⟩

/-- The JSON form of a master. -/
def Master.shape : Shape :=
  .record "MasterInfo" (.cons "host" .text (.cons "num_agents" .count
    (.cons "num_graphs" .count .nil)))

/-- The master that a value of its form denotes. -/
def Master.ofValue : Master.shape.Value → Master
  | (host, agents, graphs, ()) => ⟨host, agents, graphs⟩

/-- The JSON form of an agent. -/
def Agent.shape : Shape :=
  .record "AgentInfo" (.cons "host" .text (.cons "resource" Resource.shape
    (.cons "released" Resource.shape (.cons "num_tasks" .count .nil))))

/-- The agent that a value of its form denotes. -/
def Agent.ofValue : Agent.shape.Value → Agent
  | (host, resource, released, tasks, ()) =>
    ⟨host, Resource.ofValue resource, Resource.ofValue released, tasks⟩

/-- The JSON form of a status. -/
def Status.shape : Shape :=
  .record "ClusterStatus" (.cons "master" Master.shape (.cons "agents" (.list Agent.shape) .nil))

/-- The status that a value of its form denotes. -/
def Status.ofValue : Status.shape.Value → Status
  | (master, agents, ()) => ⟨Master.ofValue master, List.map Agent.ofValue agents⟩

/-- Reads a status that is all of a text. -/
def Status.read (s : List Char) : Except Fault Status :=
  match Status.shape.reader.run s with
  | .error e => .error e
  | .ok (v, r) =>
    match skipSpace r with
    | [] => .ok (.ofValue v)
    | c :: r => .error (.ahead .trailingCharacters (c :: r))

/-- The status that a text is, blanks at its ends aside. -/
def Status.decode (s : List Char) : Except Problem Status :=
  match Status.read (Text.trim s) with
  | .ok status => .ok status
  | .error e => .error (e.inText (Text.trim s))

end ClusterWatch
