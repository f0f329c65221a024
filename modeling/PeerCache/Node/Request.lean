import PeerCache.Group.Alone
import PeerCache.Node.Basic
/-!
# PeerCache — one request to the peer endpoint

The peer endpoint takes a request, then things happen in the groups of the node, and by then there
is a response or there is none. `Node.serve` is the node and the response. `Endpoint` says what they
are, told from what the request asks for, the groups that there are, and what a group itself answers
to a direct lookup.
-/

namespace PeerCache

/-- What stands below the base path names a group and a key: the group ends at the first slash and
may be empty, the key is all that follows and is not. -/
def Peer.Names (rest : List UInt8) (group key : String) : Prop :=
  ∃ g k, rest = g ++ 0x2F :: k ∧ (0x2F : UInt8) ∉ g ∧ k ≠ [] ∧
    Text.utf8? (Text.Percent.decode g) = some group ∧ Text.utf8? (Text.Percent.decode k) = some key

namespace Group

variable {ι : Type}

/-- The source answers the load of `leader`, and `caller` picks the outcome up. -/
def completing (leader caller : ι) (reply : Except String (List UInt8)) : List (Event ι) :=
  [.start .direct leader none, .sourceReply .direct leader reply, .deliver .direct caller]

/-- What a direct lookup of `caller` has been answered once `events` have happened. -/
def directly [DecidableEq ι] (g : Group ι) (caller : ι) (key : String) (events : List (Event ι)) :
    Option (Outcome ByteView) :=
  ((g.lookup caller .direct key).run events).answer? .direct caller

end Group

namespace Node

/-- Each group has come from its making by some events. -/
def Reached (n : Node) : Prop :=
  ∀ name g, n.groups.find? name = some g → ∃ cacheBytes policy before,
    g = (Group.new name cacheBytes policy : Group Caller).run before

/-- One thing that happens in a group of a node. -/
abbrev GroupEvent := String × Group.Event Caller

/-- What a list of events does, one after another. -/
def play (n : Node) (events : List GroupEvent) : Node :=
  events.foldl (fun n e => n.updateGroup e.1 fun g => g.step e.2) n

/-- What happens in one group. -/
def eventsIn (name : String) (events : List GroupEvent) : List (Group.Event Caller) :=
  (events.filter fun e => e.1 = name).map Prod.snd

/-- The same events, in a group. -/
def inGroup (name : String) (events : List (Group.Event Caller)) : List GroupEvent :=
  events.map fun e => (name, e)

/-- The peer endpoint takes a request of `caller`, and then `later` happens: the node after that,
and the response that it has by then. -/
def serve (n : Node) (caller : Caller) (r : Http.Request) (later : List GroupEvent) :
    Node × Option Http.Response :=
  match n.acceptPeer Peer.defaultBasePath caller r with
  | (m, .inl response) => (m.play later, some response)
  | (m, .inr inquiry) => (m.play later, (m.play later).response? caller inquiry)

/-- The status of the response. -/
def status? (n : Node) (caller : Caller) (r : Http.Request) (later : List GroupEvent) :
    Option Nat :=
  (n.serve caller r later).2.map Http.Response.status

/-- The changes from node `n` to node `m` are in one group, which `g` has been and `h` is. There is
a response with some status, or none yet. -/
structure Confined (n m : Node) (group : String) (g h : Group Caller) (status : Option Nat) :
    Prop where
  pool : m.pool = n.pool
  routers : m.routers = n.routers
  others : ∀ name, name ≠ group → m.groups.find? name = n.groups.find? name
  group : m.groups.find? group = some h
  aside : Group.Aside .direct g h
  /-- With the response, nothing is in flight that was not before. -/
  markers : status ≠ none → ∀ key leader, h.direct.markers.find? key = some leader →
    g.direct.markers.find? key = some leader
  /-- A failure leaves the cache as it was. -/
  failed : status = some 500 → h.store = g.store ∧ h.evicted = g.evicted
  /-- Who waits for a peer has done so before. -/
  peers : ∀ access leader request, h.request? access leader = some request →
    request.isRemote = true → g.request? access leader = some request

/-- A request for a key of a group that there is: what the response is, and what has changed if
nothing happens but what is about the load that the request waits for. -/
structure Serves (n : Node) (caller : Caller) (r : Http.Request) (group key : String)
    (g : Group Caller) : Prop where
  /-- There is no response as long as the lookup is not answered. -/
  waits : ∀ later, (n.serve caller r later).2 = none ↔
    g.directly caller key (eventsIn group later) = none
  success : ∀ later, n.status? caller r later = some 200 ↔
    ∃ value, g.directly caller key (eventsIn group later) = some (.ok value)
  /-- The body is the raw value. -/
  value : ∀ later value, g.directly caller key (eventsIn group later) = some (.ok value) →
    (n.serve caller r later).2 = some ⟨200, some "application/octet-stream", none, value.bytes⟩
  failure : ∀ later, n.status? caller r later = some 500 ↔
    ∃ e, g.directly caller key (eventsIn group later) = some (.error e)
  /-- The body is the text of the error. -/
  text : ∀ later e, g.directly caller key (eventsIn group later) = some (.error e) →
    (n.serve caller r later).2 = some (.text 500 e.message)
  /-- Whatever has happened, one answer of the source is enough for a response, unless the request
  was given up. -/
  answered : ∀ later reply, (group, .abandon .direct caller) ∉ later →
    (n.serve caller r (later ++ inGroup group
      (Group.completing (g.direct.attached caller key) caller reply))).2 ≠ none
  confined : ∀ own, (∀ e ∈ own, e.IsOwn .direct (g.direct.attached caller key) caller) →
    ∃ h, Confined n (n.serve caller r (inGroup group own)).1 group g h
      (n.status? caller r (inGroup group own))

/-- A request of `caller` for what is `rest` below the base path: what the response is, and what has
changed. -/
structure Endpoint (n : Node) (caller : Caller) (r : Http.Request) (rest : List UInt8) : Prop where
  malformed : ∀ later, n.status? caller r later = some 400 ↔
    ∀ group key, ¬ Peer.Names rest group key
  unknown : ∀ later group key, Peer.Names rest group key →
    (n.status? caller r later = some 404 ↔ n.groups.find? group = none)
  /-- The body says which group there is none of. -/
  missing : ∀ later group key, Peer.Names rest group key → n.groups.find? group = none →
    (n.serve caller r later).2 = some (.text 404 (CacheError.groupNotFound group).message)
  found : ∀ group key g, Peer.Names rest group key → n.groups.find? group = some g →
    n.Serves caller r group key g
  /-- A request that is refused changes nothing. -/
  unchanged : ∀ later, n.status? caller r later = some 400 ∨ n.status? caller r later = some 404 →
    (n.serve caller r later).1 = n.play later
  /-- Whatever happens, a load that requests can wait for asks no peer. -/
  stays : ∀ later name h leader request,
    (n.serve caller r later).1.groups.find? name = some h →
    h.request? .direct leader = some request → request.isRemote = false

end Node

end PeerCache
