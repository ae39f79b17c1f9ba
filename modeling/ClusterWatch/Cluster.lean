/-!
# Cluster — what a master reports

A cluster has a master, which knows its agents and counts its graphs.  An agent has registered with
a capacity (`resource`), of which a part is not claimed by running tasks (`released`).
-/

namespace ClusterWatch

/-- An amount of processors, memory and disk space. -/
structure Resource where
  cpus : UInt64
  memory : UInt64
  space : UInt64
  deriving DecidableEq, Repr

/-- The master of a cluster. -/
structure Master where
  host : String
  agents : UInt64
  graphs : UInt64
  deriving DecidableEq, Repr

/-- A machine that runs tasks: its capacity, what of it is free, and its running tasks. -/
structure Agent where
  host : String
  resource : Resource
  released : Resource
  tasks : UInt64
  deriving DecidableEq, Repr

/-- What a master reports about its cluster. -/
structure Status where
  master : Master
  agents : List Agent
  deriving DecidableEq, Repr

end ClusterWatch
