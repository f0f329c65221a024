import PeerCache.Lru.Run
/-!
# PeerCache — where the entries of a cache go

Every entry that is added to a cache is in one of four places afterwards: it is live, the eviction
callback was given it, a removal has answered with it, or a later addition of its key has replaced
its value. `adds` is what one operation brings, `evicts`, `removes` and `replaces` are what it takes
away from the live entries, and `ledger` collects one of these over a run.
-/

namespace PeerCache

namespace Lru

variable {ν : Type}

/-- The entry of `key` that an answer gives away. -/
def Answer.entry (key : String) : Answer ν → List (String × ν)
  | .value (some v) => [(key, v)]
  | _ => []

/-- The entry that an operation adds. -/
def adds (_ : Lru ν) : Op ν → List (String × ν)
  | .add key value => [(key, value)]
  | _ => []

/-- The live entries whose key is added again. -/
def replaces (c : Lru ν) : Op ν → List (String × ν)
  | .add key _ => c.entries.filter fun e => e.1 = key
  | _ => []

variable [Sized ν]

/-- The entries that the eviction callback is given. -/
def evicts (c : Lru ν) (op : Op ν) : List (String × ν) := (c.step op).2.2

/-- The entry that a removal answers with. -/
def removes (c : Lru ν) : Op ν → List (String × ν)
  | .remove key => (c.step (.remove key)).2.1.entry key
  | _ => []

/-- The cache after a list of operations. -/
def run (c : Lru ν) (ops : List (Op ν)) : Lru ν := ops.foldl (fun c op => (c.step op).1) c

/-- What the operations of a run put in one place, in order. -/
def ledger (line : Lru ν → Op ν → List (String × ν)) (c : Lru ν) :
    List (Op ν) → List (String × ν)
  | [] => []
  | op :: ops => line c op ++ ledger line (c.step op).1 ops

end Lru

end PeerCache
