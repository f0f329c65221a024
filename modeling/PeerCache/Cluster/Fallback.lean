import PeerCache.Cluster.History
import PeerCache.Url.Origin
/-!
# PeerCache — loads whose peer fails

A load that asks a peer and gets an error goes on to its group's own source. `Cluster.Fails` tells
this of one event, `Cluster.Failed` of a run.

`Cluster.LeadsTo` is where a question may arrive in a network in which each address leads to the
node that has it as its own.
-/

namespace PeerCache

/-- Where an address leads to. -/
def Peer.originOf? (addr : String) : Option (String × Option Url.Host × Option Nat) :=
  (Url.parse addr).toOption.map Url.origin

namespace Cluster

/-- The node that the ring of some addresses names for a key. -/
def ownerOf (addrs : List String) (replicas : Nat) (key : String) : Option String :=
  ((Ring.new replicas HashFn.crc32).add addrs).get key

/-- The own address of a node. -/
def selfAddr? (c : Cluster) (i : Nat) : Option String :=
  (c.nodes[i]?.bind Node.pool).map Peer.Pool.selfAddr

/-- The peer that the pool of a load's node picks for a key. -/
def peerFor (c : Cluster) (l : LoadId) (key : String) : Option String :=
  (c.nodes[l.node]?.bind Node.pool).bind fun p => p.pickPeer key

/-- The number of peer errors that the group of a load has counted. -/
def peerErrors? (c : Cluster) (l : LoadId) : Option Nat :=
  (c.group? l.node l.group).map fun g => g.counters.peerErrors

/-- The event brings the load an error from the peer at `baseUrl`, which it asks for `key`. -/
structure Fails (c : Cluster) (e : Event) (l : LoadId) (baseUrl key : String) : Prop where
  /-- The load waits for this peer, or it is about to start and its pool picks the peer for it. -/
  asks : c.load? l = some (key, .asking baseUrl) ∨
    c.load? l = some (key, .queued true) ∧ c.usesPool l = true ∧ c.peerFor l key = some baseUrl
  /-- The load has to turn to the source. -/
  turns : (c.step e).load? l = some (key, .loading)
  counted : (c.step e).peerErrors? l = (c.peerErrors? l).map (· + 1)

/-- In a run, the load has got an error from the peer at `baseUrl`, which it asked for `key`. -/
def Failed (c : Cluster) (events : List Event) (l : LoadId) (baseUrl key : String) : Prop :=
  ∃ before e after, events = before ++ e :: after ∧ (c.run before).Fails e l baseUrl key

/-- In a run, a load of a group that had got an error from the peer at the address `o` was given the
entry by the group's own source. -/
def FellBack (c : Cluster) (events : List Event) (i : Nat) (name : String)
    (entry : String × ByteView) (o : String) : Prop :=
  ∃ before l after, events = before ++ .sourceReply l (.ok entry.2.bytes) :: after ∧
    l.node = i ∧ l.group = name ∧ (c.run before).load? l = some (entry.1, .loading) ∧
    c.Failed before l (o ++ Peer.defaultBasePath) entry.1

/-- A question goes to the node whose own address has the origin of the question's URL. -/
def LeadsTo (c : Cluster) (q i : Nat) : Prop :=
  ∀ x, c.questions[q]? = some x → (c.selfAddr? i).bind Peer.originOf? = some x.url.origin

end Cluster

end PeerCache
