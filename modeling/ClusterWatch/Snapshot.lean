import ClusterWatch.Cluster
import ClusterWatch.Instant

/-!
# Snapshot — what is shown of a cluster

A snapshot is empty until a first status arrives; from then on it is the latest status as a whole,
with the time of its arrival.
-/

namespace ClusterWatch

/-- What is shown of a cluster. -/
structure Snapshot where
  master : Option Master
  agents : List Agent
  updatedAt : Option Instant
  deriving DecidableEq, Repr

namespace Snapshot

/-- What is shown before a status has arrived. -/
def empty : Snapshot := ⟨none, [], none⟩

/-- What is shown of a status that arrived at a time. -/
def ofStatus (s : Status) (t : Instant) : Snapshot := ⟨some s.master, s.agents, some t⟩

/-- Whether a status has arrived. -/
def isLoaded (s : Snapshot) : Bool := s.updatedAt.isSome

end Snapshot

end ClusterWatch
