import PeerCache.Error
import PeerCache.Table
import PeerCache.Ring.Basic
import PeerCache.Peer.BasePath
/-!
# PeerCache — the pool of peers

A pool knows the nodes of the cluster by address and puts them on a ring. For a key it picks the
peer that owns it, or none if this node is the owner or nobody is known. A node is this node if
its address reads the same, slashes at the end left out.
-/

namespace PeerCache.Peer

/-- How a pool is set up. -/
structure PoolOptions where
  basePath : String
  /-- The number of points of each node on the ring. -/
  replicas : Nat
  /-- The time that one question to a peer may take, in milliseconds. -/
  timeout : Nat
deriving DecidableEq, Repr

namespace PoolOptions

/-- The options of a pool that is not told others. -/
def default : PoolOptions := ⟨defaultBasePath, 50, 3000⟩

end PoolOptions

/-- The nodes of the cluster as one of them sees them. -/
structure Pool where
  /-- The address of this node. -/
  selfAddr : String
  basePath : String
  replicas : Nat
  ring : Ring
  /-- The base URL of each node, by address. -/
  endpoints : Table String String

namespace Pool

/-- The pool of a node that knows nobody. -/
def withOptions (selfAddr : String) (o : PoolOptions) : Except CacheError Pool :=
  if isValidBasePath o.basePath then
    .ok {
      selfAddr := Text.trimSlashes selfAddr
      basePath := o.basePath
      replicas := o.replicas
      ring := .new o.replicas HashFn.crc32
      endpoints := .empty }
  else .error (.configuration (basePathRefusal o.basePath))

/-- Replaces the nodes. The list should hold this node's own address, so that its ring agrees with
those of the others. -/
def setPeers (p : Pool) (peers : List String) : Pool :=
  let addrs := peers.map Text.trimSlashes
  { p with
    ring := (Ring.new p.replicas HashFn.crc32).add addrs
    -- An address that is listed twice is one node, with its points counted twice.
    endpoints := Table.ofList (addrs.map fun a => (a, a ++ p.basePath)) }

/-- The base URL of the peer to ask for a key; none if the key is resolved on this node. -/
def pickPeer (p : Pool) (key : String) : Option String :=
  match p.ring.get key with
  | none => none
  | some owner => if owner = p.selfAddr then none else p.endpoints.find? owner

end Pool

end PeerCache.Peer
