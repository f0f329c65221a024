import PeerCache.Lru.Basic
/-!
# PeerCache — the store of a group

A `Store` is a cache of byte views that is set up by the first `insert`; until then it is empty
and its budget is a promise. `insert` hands the evicted entries back, so that whoever is to be
told of them is told after the store itself is done.
-/

namespace PeerCache

/-- A cache of byte views, set up on first use. -/
structure Store where
  /-- The budget in bytes; zero means that there is none. -/
  cacheBytes : Nat
  lru : Option (Lru ByteView)
deriving DecidableEq, Repr

namespace Store

/-- How full a store is. -/
structure Stats where
  entries : Nat
  bytes : Nat
deriving DecidableEq, Repr, Inhabited

/-- A store that has not been used. -/
def new (cacheBytes : Nat) : Store := ⟨cacheBytes, none⟩

/-- Whether the cache has been set up. -/
def isInitialized (s : Store) : Bool := s.lru.isSome

/-- The number of entries and what they cost; zeros for a store that has not been used. -/
def stats (s : Store) : Stats :=
  match s.lru with
  | none => ⟨0, 0⟩
  | some c => ⟨c.length, c.bytes⟩

/-- The entries from the most to the least recently used. -/
def entries (s : Store) : List (String × ByteView) :=
  match s.lru with
  | none => []
  | some c => c.entries

/-- The value of a key, which becomes the most recently used. A store that has not been used
stays so. -/
def get (s : Store) (key : String) : Store × Option ByteView :=
  match s.lru with
  | none => (s, none)
  | some c =>
    let (c, v) := c.get key
    ({ s with lru := some c }, v)

/-- Sets the value of a key, which becomes the most recently used. The answer lists the evicted
entries, least recently used first. -/
def insert (s : Store) (key : String) (value : ByteView) :
    Store × List (String × ByteView) :=
  let (c, evicted) := (s.lru.getD (.new s.cacheBytes)).add key value
  ({ s with lru := some c }, evicted)

end Store

end PeerCache
