import PeerCache.Lru.Ledger
/-!
# PeerCache — an intact slab

What it means that the parts of a cache fit together, told from its slots, links, table, free list
and count alone:

* `Walk` — the slots that are met when links are followed to their end. There is no bound on the
  steps: a chain that runs in a circle has no walk.
* `Intact` — both chains, the table, the free list and the count tell of the same slots.
* `peak` — how many entries a run has alive at once, at most.
* `Roomy` — a run whose entries fit a machine word.
-/

namespace PeerCache

namespace Lru

variable {ν : Type}

/-- From a slot on, the links lead through the slots `ids`, in this order, and come to an end. -/
inductive Walk (c : Lru ν) (link : Slot ν → Option Nat) : Option Nat → List Nat → Prop where
  | stop : Walk c link none []
  | visit {id : Nat} {n : Slot ν} {ids : List Nat} (hslot : c.slot? id = some n)
      (hrest : Walk c link (link n) ids) : Walk c link (some id) (id :: ids)

/-- The slots in use, by number. -/
def used (c : Lru ν) : List Nat := (List.range c.slots.size).filter fun id => (c.slot? id).isSome

variable [Sized ν]

/-- The parts of a cache fit together, and `ids` are the slots of its entries, newest first. -/
structure Intact (c : Lru ν) (ids : List Nat) : Prop where
  older : Walk c Slot.older c.newest ids
  newer : Walk c Slot.newer c.oldest ids.reverse
  once : ids.Nodup
  /-- The table leads to these slots and to no others. -/
  index : c.index.values.Perm ids
  /-- The key of an entry leads to the slot that the entry is in. -/
  own : ∀ id ∈ ids, ∃ n, c.slot? id = some n ∧ c.index.find? n.key = some id
  /-- No slot is in use that the chain does not lead to. -/
  used : c.used.Perm ids
  /-- Every slot is in use or free, not both, and none is free twice. -/
  slots : (c.used ++ c.free).Perm (List.range c.slots.size)
  /-- The count is what the entries in these slots cost together. -/
  bytes : c.bytes = Recency.cost ((ids.filterMap c.slot?).map fun n => (n.key, n.value))

/-- How many entries are alive at once during an operation: a new one stands beside all the others
before any of them is evicted. -/
def crowd (c : Lru ν) : Op ν → Nat
  | .add key _ => if c.contains key then c.length else c.length + 1
  | _ => c.length

/-- The largest number of entries that are alive at once in a run. -/
def peak (c : Lru ν) : List (Op ν) → Nat
  | [] => c.length
  | op :: ops => max (c.crowd op) (peak (c.step op).1 ops)

/-- Throughout a run, what is live and the entry that comes in take less than a machine word can
count. -/
def Roomy (c : Lru ν) : List (Op ν) → Prop
  | [] => True
  | op :: ops => Recency.cost (c.entries ++ c.adds op) < UInt64.size ∧ Roomy (c.step op).1 ops

instance decidableRoomy (c : Lru ν) : (ops : List (Op ν)) → Decidable (Roomy c ops)
  | [] => .isTrue trivial
  | op :: ops =>
    have := decidableRoomy (c.step op).1 ops
    inferInstanceAs (Decidable (_ ∧ _))

end Lru

end PeerCache
