import PeerCache.Store.History
/-!
# PeerCache — a cache with an eviction callback

There is a plainer way to be told of evictions than a hook: a cache that is set up before it is used
and gives each entry that an `add` evicts to a callback, within that `add`. `Reaction.seen` is all
that there is to see of it while a client uses it: what the callback is given, and what the client
is answered. Some of what happens at a store can be seen just so (`Event.isSeen`), and `replay` does
to a cache what happened at a store.
-/

namespace PeerCache

/-- The number of entries of a cache and what they cost. -/
def Lru.stats (c : Lru ByteView) : Store.Stats := ⟨c.length, c.bytes⟩

/-- The cache of a store, set up if it has not been. -/
def Store.cache (s : Store) : Lru ByteView := s.lru.getD (.new s.cacheBytes)

/-- The body takes notes and leaves the store alone. -/
inductive Reaction.Quiet : Reaction → Prop
  | done : Quiet .done
  | note {n : Note} {next : Reaction} (hnext : Quiet next) : Quiet (.note n next)

/-- The hook never uses the store. -/
def Hook.Quiet (hook : Hook) : Prop := ∀ key value, (hook key value).Quiet

namespace Session

/-- The hook, or the callback, is called with an entry. -/
def calling (e : String × ByteView) : Event := .call e.1 e.2

/-- What happens outside the store: calls and answers. -/
def Event.isSeen : Event → Bool
  | .call _ _ => true
  | .get _ _ => true
  | .stats _ => true
  | _ => false

/-- Does to a cache what happened at a store. -/
def Event.replay (c : Lru ByteView) : Event → Lru ByteView
  | .insert key value _ => (c.add key value).1
  | .get key _ => (c.get key).1
  | _ => c

end Session

open Session (Event calling)

/-- What is seen of a cache while a client uses it. -/
def Reaction.seen : Reaction → Lru ByteView → List Event
  | .done, _ => []
  | .note _ next, c => next.seen c
  | .get key next, c => .get key (c.get key).2 :: (next (c.get key).2).seen (c.get key).1
  | .stats next, c => .stats c.stats :: (next c.stats).seen c
  | .add key value next, c => (c.add key value).2.map calling ++ next.seen (c.add key value).1

end PeerCache
