import PeerCache.Group.Registry
import PeerCache.Peer.Pool
import PeerCache.Peer.Route
import PeerCache.Api.Route
/-!
# PeerCache — nodes

A node has a registry of groups and, if it takes part in a cluster, a pool of peers. It answers
other nodes on the peer endpoint and clients on the front endpoint.

Answering is split in two: `accept…` either makes the response at once or starts a lookup on
behalf of the request, and `response?` makes the response once that lookup has its outcome. The
peer endpoint looks up directly, so answering a peer never asks another one.
-/

namespace PeerCache

/-- Who looks a key up. -/
inductive Caller where
  /-- A client of the node, by number. -/
  | client (n : Nat)
  /-- A question of another node, by number. -/
  | question (n : Nat)
deriving DecidableEq, Repr

/-- Where the router of a group comes from. -/
inductive Router where
  /-- It is the pool of the group's node. -/
  | pool
  /-- It was made elsewhere. -/
  | foreign
deriving DecidableEq, Repr

/-- A node. -/
structure Node where
  pool : Option Peer.Pool
  groups : Registry Caller
  /-- The routers of the groups that have one. -/
  routers : Table String Router

namespace Node

/-- A node without groups. -/
def new (pool : Option Peer.Pool) : Node := ⟨pool, .empty, .empty⟩

/-- Adds a group, unless its name is taken. -/
def register (n : Node) (g : Group Caller) : Except CacheError Node := do
  pure { n with groups := ← n.groups.register g }

/-- Installs the router of a group; this can be done once. Nothing happens to a group that does
not exist. -/
def registerPeers (n : Node) (name : String) (router : Router) : Except CacheError Node :=
  match n.groups.find? name with
  | none => .ok n
  | some g => do
    let g ← g.registerPeers
    pure { n with
      groups := n.groups.modify name fun _ => g
      routers := n.routers.insert name router }

/-- Replaces the peers of the pool. -/
def setPeers (n : Node) (peers : List String) : Node :=
  { n with pool := n.pool.map fun p => p.setPeers peers }

/-- Changes a group. -/
def updateGroup (n : Node) (name : String) (f : Group Caller → Group Caller) : Node :=
  { n with groups := n.groups.modify name f }

/-- The statistics of the groups by ascending name. -/
def stats (n : Node) : List GroupStats := Registry.stats n.groups

/-- A lookup on behalf of a request: where its outcome will be found. -/
structure Inquiry where
  group : String
  access : Access
  method : String
deriving DecidableEq, Repr

/-- The outcome of a lookup on behalf of a request, as a response; none while it is waited for. -/
def response? (n : Node) (caller : Caller) (i : Inquiry) : Option Http.Response :=
  ((n.groups.find? i.group).bind fun g => g.answer? i.access caller).map fun o =>
    (Http.Response.ofOutcome o).forMethod i.method

/-- Takes a request to the peer endpoint. -/
def acceptPeer (n : Node) (basePath : String) (caller : Caller) (r : Http.Request) :
    Node × (Http.Response ⊕ Inquiry) :=
  match Peer.Route.ofRequest basePath r with
  | .value name key =>
    match n.groups.find? name with
    | none =>
      (n, .inl ((Http.Response.text 404 (CacheError.groupNotFound name).message).forMethod
        r.method))
    | some _ =>
      (n.updateGroup name fun g => g.lookup caller .direct key,
        .inr ⟨name, .direct, r.method⟩)
  | route =>
    let response := (Peer.refusal? route).getD .notFound
    (n, .inl (if Peer.isRouted route then response.forMethod r.method else response))

/-- Takes a request to the front endpoint, which serves one of the node's groups. -/
def acceptApi (n : Node) (name : String) (caller : Caller) (r : Http.Request) :
    Node × (Http.Response ⊕ Inquiry) :=
  match Api.Route.ofRequest r with
  | .value key =>
    (n.updateGroup name fun g => g.lookup caller .routed key, .inr ⟨name, .routed, r.method⟩)
  | route => (n, .inl (((Api.response? n.stats route).getD .notFound).forMethod r.method))

end Node

end PeerCache
