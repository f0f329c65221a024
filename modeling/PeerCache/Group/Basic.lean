import PeerCache.Flight.Basic
import PeerCache.Store.Basic
/-!
# PeerCache — groups

A group is a named part of the cache. A lookup reads through it: the store first, then the node
that owns the key if the group has a router and the lookup may use it, then the group's own
source. Lookups of one key that miss at the same time share one load.

## Two ways in

A *routed* lookup may ask another node, a *direct* one never does; other nodes are answered by
direct lookups. Each way in has a board of shared executions of its own, so a lookup on behalf of
another node never waits for a load that itself waits for another node.

## A load

A load is `queued` until it runs. It then asks the router it was given, if any, and waits for the
peer that was picked (`asking`); when there is none, or the peer fails, it waits for the source
(`loading`). What the router picks, and what the peer and the source answer, comes from outside:
it is part of the events, and nothing is assumed of it.

## What is one event

A lookup is one event up to its answer or its place on a board, and the way of a load from the
answer it waited for to its end is another, with what it counts, what it puts into the store and
what the eviction hook is told. The states in between, such as the one in which the hook is told of
an entry while the load that evicted it is still in flight, are left out here; `Group.Moment` has
them, where each of these events is a list of moves that those of others can come between.
-/

namespace PeerCache

/-- What to do with a value that came from another node. -/
inductive RemotePolicy where
  /-- Hand it to the callers only. -/
  | skip
  /-- Keep it in the own store as well. -/
  | populate
deriving DecidableEq, Repr, Inhabited

/-- The two ways into a group. -/
inductive Access where
  /-- The lookup may ask another node. -/
  | routed
  /-- The lookup stays on this node. -/
  | direct
deriving DecidableEq, Repr

/-- What a load that has not ended is doing. -/
inductive Phase where
  /-- It has not started; `router` tells whether it may ask the group's router. -/
  | queued (router : Bool)
  /-- It waits for a peer. -/
  | asking (peer : String)
  /-- It waits for the group's own source. -/
  | loading
deriving DecidableEq, Repr

/-- What a group counts. The numbers are not bounded: that a counter of 64 bits would begin again at
zero is not told of. -/
structure Counters where
  gets : Nat
  hits : Nat
  peerLoads : Nat
  peerErrors : Nat
  localLoads : Nat
  localErrors : Nat
deriving DecidableEq, Repr, Inhabited

namespace Counters

/-- Nothing counted yet. -/
def zero : Counters := ⟨0, 0, 0, 0, 0, 0⟩

end Counters

/-- A group's counters and the size of its store at one moment. -/
structure GroupStats where
  name : String
  counters : Counters
  cache : Store.Stats
deriving DecidableEq, Repr

/-- A named part of the cache; `ι` names its callers. -/
structure Group (ι : Type) where
  name : String
  policy : RemotePolicy
  store : Store
  /-- Whether a router has been registered. -/
  hasRouter : Bool
  counters : Counters
  routed : Flight ι Phase ByteView
  direct : Flight ι Phase ByteView
  /-- The callers that were answered at once, by the store or because their key is empty. -/
  immediate : List (ι × Outcome ByteView)
  /-- The entries that the eviction hook was told of, in order. -/
  evicted : List (String × ByteView)
  /-- Everybody who has called. -/
  callers : List ι

namespace Group

variable {ι : Type}

/-- A group without a router whose store has not been used. -/
def new (name : String) (cacheBytes : Nat) (policy : RemotePolicy) : Group ι where
  name := name
  policy := policy
  store := .new cacheBytes
  hasRouter := false
  counters := .zero
  routed := .empty
  direct := .empty
  immediate := []
  evicted := []
  callers := []

/-- The counters and the size of the store. -/
def stats (g : Group ι) : GroupStats := ⟨g.name, g.counters, g.store.stats⟩

/-- The board of one way in. -/
def flight (g : Group ι) : Access → Flight ι Phase ByteView
  | .routed => g.routed
  | .direct => g.direct

/-- Replaces the board of one way in. -/
def setFlight (g : Group ι) (access : Access) (f : Flight ι Phase ByteView) : Group ι :=
  match access with
  | .routed => { g with routed := f }
  | .direct => { g with direct := f }

/-- Changes the counters. -/
def count (g : Group ι) (f : Counters → Counters) : Group ι :=
  { g with counters := f g.counters }

/-- Puts a value into the store; the hook is told of what that evicts. -/
def keep (g : Group ι) (key : String) (value : ByteView) : Group ι :=
  let (store, evicted) := g.store.insert key value
  { g with store := store, evicted := g.evicted ++ evicted }

/-- The text of the refusal of an empty key. -/
def keyRequired : CacheError := .invalidArgument "key is required"

variable [DecidableEq ι]

/-- Installs a router; this can be done once. -/
def registerPeers (g : Group ι) : Except CacheError (Group ι) :=
  if g.hasRouter then
    .error (.configuration ("peers already registered for group " ++ g.name))
  else .ok { g with hasRouter := true }

/-- A caller looks a key up. -/
def lookup (g : Group ι) (caller : ι) (access : Access) (key : String) : Group ι :=
  if caller ∈ g.callers then g
  else
    let g := { g with callers := g.callers ++ [caller] }
    -- An empty key is refused before anything is counted.
    if key = "" then { g with immediate := g.immediate ++ [(caller, .error keyRequired)] }
    else
      let g := g.count fun c => { c with gets := c.gets + 1 }
      match g.store.get key with
      | (store, some value) =>
        { g.count fun c => { c with hits := c.hits + 1 } with
          store := store
          immediate := g.immediate ++ [(caller, .ok value)] }
      | (store, none) =>
        -- A router that is installed later is not asked by this load.
        let router := access = .routed && g.hasRouter
        { g with store := store }.setFlight access
          ((g.flight access).call caller key (.queued router))

/-- A load starts to run. If it may ask the router, `picked` is the router's answer. -/
def start (g : Group ι) (access : Access) (leader : ι) (picked : Option String) : Group ι :=
  match (g.flight access).work? leader with
  | some (.queued router) =>
    let next := match (if router then picked else none) with
      | some peer => Phase.asking peer
      | none => Phase.loading
    g.setFlight access ((g.flight access).advance leader next)
  | _ => g

/-- Ends a load. -/
def finish (g : Group ι) (access : Access) (leader : ι) (how : Ending ByteView) : Group ι :=
  g.setFlight access ((g.flight access).finish leader how)

/-- The peer that a load waits for answers, with the value's bytes or an error. -/
def peerReply (g : Group ι) (access : Access) (leader : ι)
    (reply : Except CacheError (List UInt8)) : Group ι :=
  match (g.flight access).work? leader, (g.flight access).key? leader with
  | some (.asking _), some key =>
    match reply with
    | .ok bytes =>
      let g := g.count fun c => { c with peerLoads := c.peerLoads + 1 }
      -- The callers get the value whether it is kept or not.
      let g := if g.policy = .populate then g.keep key ⟨bytes⟩ else g
      g.finish access leader (.value ⟨bytes⟩)
    | .error _ =>
      let g := g.count fun c => { c with peerErrors := c.peerErrors + 1 }
      -- The load does not end here: the source may still have the value.
      g.setFlight access ((g.flight access).advance leader .loading)
  | _, _ => g

/-- The group's own source answers a load, with the value's bytes or the text of an error. -/
def sourceReply (g : Group ι) (access : Access) (leader : ι)
    (reply : Except String (List UInt8)) : Group ι :=
  match (g.flight access).work? leader, (g.flight access).key? leader with
  | some .loading, some key =>
    match reply with
    | .ok bytes =>
      let g := (g.keep key ⟨bytes⟩).count fun c => { c with localLoads := c.localLoads + 1 }
      g.finish access leader (.value ⟨bytes⟩)
    | .error text =>
      let g := g.count fun c => { c with localErrors := c.localErrors + 1 }
      g.finish access leader (.failed (.source text))
  | _, _ => g

/-- The peer or the source that a load waits for panics. -/
def panic (g : Group ι) (access : Access) (leader : ι) (text : String) : Group ι :=
  match (g.flight access).work? leader with
  | some (.asking _) => g.finish access leader (.panicked text)
  | some .loading => g.finish access leader (.panicked text)
  | _ => g

/-- A waiting caller picks up its outcome. -/
def deliver (g : Group ι) (access : Access) (caller : ι) : Group ι :=
  g.setFlight access ((g.flight access).deliver caller)

/-- A waiting caller stops waiting. -/
def abandon (g : Group ι) (access : Access) (caller : ι) : Group ι :=
  g.setFlight access ((g.flight access).abandon caller)

/-- What a caller was answered. -/
def answer? (g : Group ι) (access : Access) (caller : ι) : Option (Outcome ByteView) :=
  match (g.immediate.find? fun a => a.1 = caller).map Prod.snd with
  | some o => some o
  | none => (g.flight access).answer? caller

/-! ## Runs -/

/-- One thing that happens in a group. -/
inductive Event (ι : Type) where
  | registerPeers
  | lookup (caller : ι) (access : Access) (key : String)
  | start (access : Access) (leader : ι) (picked : Option String)
  | peerReply (access : Access) (leader : ι) (reply : Except CacheError (List UInt8))
  | sourceReply (access : Access) (leader : ι) (reply : Except String (List UInt8))
  | panic (access : Access) (leader : ι) (text : String)
  | deliver (access : Access) (caller : ι)
  | abandon (access : Access) (caller : ι)

/-- What an event does; one that does not apply changes nothing. -/
def step (g : Group ι) : Event ι → Group ι
  | .registerPeers => (g.registerPeers).toOption.getD g
  | .lookup caller access key => g.lookup caller access key
  | .start access leader picked => g.start access leader picked
  | .peerReply access leader reply => g.peerReply access leader reply
  | .sourceReply access leader reply => g.sourceReply access leader reply
  | .panic access leader text => g.panic access leader text
  | .deliver access caller => g.deliver access caller
  | .abandon access caller => g.abandon access caller

/-- What a list of events does, one after another. -/
def run (g : Group ι) (events : List (Event ι)) : Group ι := events.foldl step g

end Group

end PeerCache
