import PeerCache.Cluster.Basic
import PeerCache.Group.History
/-!
# PeerCache — what the nodes of a cluster produce

A group produces bytes for a key in two ways: it has them in its store when it looks the key up, or
its own source supplies them. `Cluster.produced` lists all that the groups of a cluster produce in
a run, each with its node, its group and its key; a value that a node gets from a peer is to be one
of these.

`Cluster.asked?` is what a node takes a question for: the group and the key that it reads off the
question's URL.
-/

namespace PeerCache

namespace Group

variable {ι : Type} [DecidableEq ι]

/-- The bytes that an event makes a group produce, with their key: those of a hit, or those that
its own source supplies. -/
def produces (g : Group ι) : Event ι → List (String × List UInt8)
  | .lookup caller _ key =>
    if caller ∈ g.callers ∨ key = "" then []
    else
      match (g.store.get key).2 with
      | some value => [(key, value.bytes)]
      | none => []
  | .sourceReply access leader (.ok bytes) =>
    match g.request? access leader with
    | some (.source key) => [(key, bytes)]
    | _ => []
  | _ => []

end Group

/-- The node has not been asked for anything. Its pool has the default base path. -/
structure Node.Fresh (n : Node) : Prop where
  basePath : ∀ p, n.pool = some p → p.basePath = Peer.defaultBasePath
  groups : ∀ name g, n.groups.find? name = some g → ∃ cacheBytes policy hasRouter,
    g = { (Group.new name cacheBytes policy : Group Caller) with hasRouter := hasRouter }

namespace Cluster

/-- The cluster before its first event. -/
structure Fresh (c : Cluster) : Prop where
  questions : c.questions = []
  nodes : ∀ n ∈ c.nodes, n.Fresh

/-- Bytes that a group of a node produced for a key. -/
structure Product where
  node : Nat
  group : String
  key : String
  bytes : List UInt8
deriving DecidableEq, Repr

/-- The group and the key that a URL asks a node with a base path for. -/
def asked? (basePath : String) (u : Url) : Option (String × String) :=
  match Peer.Route.ofRequest basePath (requestOf u) with
  | .value group key => some (group, key)
  | _ => none

/-- What an event makes the group of a node produce when it is one for the group. -/
def productsOf (c : Cluster) (i : Nat) (name : String) (e : Group.Event Caller) : List Product :=
  match c.group? i name with
  | some g => (g.produces e).map fun p => ⟨i, name, p.1, p.2⟩
  | none => []

/-- What an event makes the groups of a cluster produce. -/
def produces (c : Cluster) : Event → List Product
  | .lookup i name access client key => c.productsOf i name (.lookup (.client client) access key)
  | .sourceReply l reply => c.productsOf l.node l.group (.sourceReply l.access l.leader reply)
  | .arrive q i =>
    match c.questions[q]?, c.nodes[i]?.bind Node.pool with
    | some ⟨_, url, .sent⟩, some p =>
      match asked? p.basePath url with
      | some (name, key) => c.productsOf i name (.lookup (.question q) .direct key)
      | none => []
    | _, _ => []
  | _ => []

/-- What the groups of a cluster produce in a run, in order. -/
def produced (c : Cluster) : List Event → List Product
  | [] => []
  | e :: es => c.produces e ++ (c.step e).produced es

/-- Whether a caller waits for a load. -/
def waits (c : Cluster) (l : LoadId) (caller : Caller) : Bool :=
  ((c.group? l.node l.group).bind fun g => (g.flight l.access).leaderOf? caller) = some l.leader

/-- What a caller was answered. -/
def answer? (c : Cluster) (i : Nat) (name : String) (access : Access) (caller : Caller) :
    Option (Outcome ByteView) :=
  (c.group? i name).bind fun g => g.answer? access caller

/-- How a load has ended, if it has. -/
def ended? (c : Cluster) (l : LoadId) : Option (Ending ByteView) :=
  (c.group? l.node l.group).bind fun g => (g.flight l.access).ending? l.leader

end Cluster

end PeerCache
