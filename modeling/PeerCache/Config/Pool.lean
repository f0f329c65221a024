import PeerCache.Config.Settings
/-!
# PeerCache — the pool of a node

A node makes its pool of its settings and then tells it the nodes of the cluster. Between the two
the pool may have been told other nodes, any number of times.
-/

namespace PeerCache.Settings

/-- The pool of a node that has been told the nodes of its settings, after those of `earlier`. -/
def pool (s : Settings) (earlier : List (List String)) : Except CacheError Peer.Pool := do
  let p ← Peer.Pool.withOptions s.selfAddr s.poolOptions
  pure ((earlier.foldl Peer.Pool.setPeers p).setPeers s.peerAddrs)

end PeerCache.Settings
