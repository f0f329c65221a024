import PeerCache.Lru.Recency
/-!
# PeerCache — runs of a cache

An `Lru.Op` is one operation of a cache. A `Report` is what can be seen of it from outside: its
answer, what the eviction callback was given, and the keys and sizes afterwards. `trace` lists the
reports of a run; the slab cache and the recency list have one each, and the two are to agree.
-/

namespace PeerCache

namespace Lru

/-- One operation of a cache. -/
inductive Op (ν : Type) where
  | add (key : String) (value : ν)
  | get (key : String)
  | peek (key : String)
  | contains (key : String)
  | remove (key : String)
  | removeOldest
deriving DecidableEq, Repr

/-- What an operation answers. -/
inductive Answer (ν : Type) where
  | nothing
  | value (v : Option ν)
  | flag (b : Bool)
deriving DecidableEq, Repr

/-- What can be seen of an operation. -/
structure Report (ν : Type) where
  answer : Answer ν
  /-- The entries that the eviction callback was given, in order. -/
  evicted : List (String × ν)
  keys : List String
  length : Nat
  isEmpty : Bool
  bytes : Nat
deriving DecidableEq, Repr

variable {ν : Type} [Sized ν]

/-- Performs an operation: the cache after it, its answer, and what was evicted. -/
def step (c : Lru ν) : Op ν → Lru ν × Answer ν × List (String × ν)
  | .add key value => ((c.add key value).1, .nothing, (c.add key value).2)
  | .get key => ((c.get key).1, .value (c.get key).2, [])
  | .peek key => (c, .value (c.peek key), [])
  | .contains key => (c, .flag (c.contains key), [])
  | .remove key => ((c.remove key).1, .value (c.remove key).2, [])
  | .removeOldest =>
    (c.removeOldest.1, .flag c.removeOldest.2.isSome, c.removeOldest.2.toList)

/-- The reports of a list of operations. -/
def trace (c : Lru ν) : List (Op ν) → List (Report ν)
  | [] => []
  | op :: rest =>
    let (c, answer, evicted) := c.step op
    ⟨answer, evicted, c.keys, c.length, c.isEmpty, c.bytes⟩ :: c.trace rest

end Lru

namespace Recency

open Lru (Op Answer Report)

variable {ν : Type} [Sized ν]

/-- Performs an operation on the recency list. -/
def step (r : Recency ν) : Op ν → Recency ν × Answer ν × List (String × ν)
  | .add key value => ((r.add key value).1, .nothing, (r.add key value).2)
  | .get key => ((r.get key).1, .value (r.get key).2, [])
  | .peek key => (r, .value (r.peek key), [])
  | .contains key => (r, .flag (r.contains key), [])
  | .remove key => ((r.remove key).1, .value (r.remove key).2, [])
  | .removeOldest =>
    (r.removeOldest.1, .flag r.removeOldest.2.isSome, r.removeOldest.2.toList)

/-- The reports of a list of operations. -/
def trace (r : Recency ν) : List (Op ν) → List (Report ν)
  | [] => []
  | op :: rest =>
    let (r, answer, evicted) := r.step op
    ⟨answer, evicted, r.keys, r.length, r.isEmpty, r.bytes⟩ :: r.trace rest

end Recency

end PeerCache
