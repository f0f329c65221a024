import PeerCache.Cluster.History
/-!
# PeerCache — who waits for whom

A load that asks a peer waits for its question. A node that serves the question looks the key up,
and the question waits there for a load of that node, which may be one that others have started.
`Cluster.WaitsFor` is this relation between the loads of a cluster. Loads wait for one another in no
other way.
-/

namespace PeerCache

namespace Cluster

/-- Nothing has been looked up or asked yet. Which peers a node has, and under which base path it
answers, is left open. -/
structure Unasked (c : Cluster) : Prop where
  questions : c.questions = []
  groups : ∀ n ∈ c.nodes, ∀ name g, n.groups.find? name = some g →
    ∃ cacheBytes policy hasRouter,
      g = { (Group.new name cacheBytes policy : Group Caller) with hasRouter := hasRouter }

/-- Load `l` waits for load `m`, which is in flight: it waits for a peer, and its question is open
and waits for `m`. -/
structure WaitsFor (c : Cluster) (l m : LoadId) : Prop where
  asks : ∃ key baseUrl, c.load? l = some (key, .asking baseUrl)
  question : ∃ (q : Nat) (x : Question), c.questions[q]? = some x ∧ x.load = l ∧
    x.stage ≠ .closed ∧ c.waits m (.question q) = true
  inFlight : ∃ key phase, c.load? m = some (key, phase)

end Cluster

end PeerCache
