import PeerCache.Table
import PeerCache.ByteView
/-!
# PeerCache — the recency cache

`Lru ν` holds values of type `ν` under text keys within a budget of bytes and forgets the least
recently used entry first. An entry costs the bytes of its key plus those of its value.

## Layout

Entries live in numbered slots. The slots in use form one chain from the newest entry to the
oldest; a table leads from each key to its slot, and the numbers of the slots not in use wait in
a list, the one freed last in front.

```text
  newest ─► [3] ◄──► [0] ◄──► [2] ◄─ oldest
  index: { "k3" ↦ 3, "k0" ↦ 0, "k2" ↦ 2 }    free: [1]
```

`Lru/Recency.lean` holds the same cache as a plain list of entries.
-/

namespace PeerCache

/-- A slot in use: an entry and its neighbours on the chain. -/
structure Slot (ν : Type) where
  key : String
  value : ν
  newer : Option Nat
  older : Option Nat
deriving DecidableEq, Repr

/-- A cache that forgets the least recently used entry first. -/
structure Lru (ν : Type) where
  /-- The budget in bytes; zero means that there is none. -/
  maxBytes : Nat
  /-- What the entries cost together. -/
  bytes : Nat
  slots : Array (Option (Slot ν))
  free : List Nat
  newest : Option Nat
  oldest : Option Nat
  index : Table String Nat
deriving DecidableEq, Repr

namespace Lru

variable {ν : Type}

/-- The empty cache with a budget. -/
def new (maxBytes : Nat) : Lru ν where
  maxBytes := maxBytes
  bytes := 0
  slots := #[]
  free := []
  newest := none
  oldest := none
  index := .empty

/-! ## Slots -/

/-- The entry in a slot, if the slot is in use. -/
def slot? (c : Lru ν) (id : Nat) : Option (Slot ν) := c.slots[id]?.join

/-- Changes the entry in a slot that is in use. -/
def modifySlot (c : Lru ν) (id : Nat) (f : Slot ν → Slot ν) : Lru ν :=
  match c.slot? id with
  | some n => { c with slots := c.slots.setIfInBounds id (some (f n)) }
  | none => c

/-- Puts an entry into the slot freed last, or into a new one, and gives the slot's number. -/
def alloc (c : Lru ν) (n : Slot ν) : Lru ν × Nat :=
  match c.free with
  | id :: rest => ({ c with slots := c.slots.setIfInBounds id (some n), free := rest }, id)
  | [] => ({ c with slots := c.slots.push (some n) }, c.slots.size)

/-! ## The chain -/

/-- Makes `next?` the slot behind a slot on the chain; in front of the whole chain, the newest. -/
def linkOlder (c : Lru ν) (slot? next? : Option Nat) : Lru ν :=
  match slot? with
  | some j => c.modifySlot j fun m => { m with older := next? }
  | none => { c with newest := next? }

/-- Makes `next?` the slot in front of a slot on the chain; behind the whole chain, the oldest. -/
def linkNewer (c : Lru ν) (slot? next? : Option Nat) : Lru ν :=
  match slot? with
  | some j => c.modifySlot j fun m => { m with newer := next? }
  | none => { c with oldest := next? }

/-- Takes a slot off the chain and joins its neighbours. -/
def detach (c : Lru ν) (id : Nat) : Lru ν :=
  match c.slot? id with
  | none => c
  | some n =>
    -- A missing neighbour is an end of the chain, which then gets a new end.
    ((c.linkOlder n.newer n.older).linkNewer n.older n.newer).modifySlot id
      fun m => { m with newer := none, older := none }

/-- Puts a slot that is on no chain in front of the newest entry. -/
def attachFront (c : Lru ν) (id : Nat) : Lru ν :=
  ((c.modifySlot id fun m => { m with newer := none, older := c.newest }).linkNewer
    c.newest (some id)).linkOlder none (some id)

/-- Makes a slot on the chain the newest. -/
def moveToFront (c : Lru ν) (id : Nat) : Lru ν :=
  if c.newest = some id then c else (c.detach id).attachFront id

/-- Empties a slot and frees it; the answer is the entry that was in it. -/
def release (c : Lru ν) (id : Nat) : Lru ν × Option (Slot ν) :=
  let c := c.detach id
  match c.slot? id with
  | none => (c, none)
  | some n => ({ c with slots := c.slots.setIfInBounds id none, free := id :: c.free }, some n)

/-- Follows the chain from a slot toward older entries, for at most `fuel` slots. -/
def walkOlder (c : Lru ν) : Nat → Option Nat → List (Slot ν)
  | 0, _ => []
  | _, none => []
  | fuel + 1, some id =>
    match c.slot? id with
    | none => []
    | some n => n :: c.walkOlder fuel n.older

/-- The entries from the most to the least recently used. No chain is longer than the number of
slots. -/
def entries (c : Lru ν) : List (String × ν) :=
  (c.walkOlder c.slots.size c.newest).map fun n => (n.key, n.value)

/-- The keys from the most to the least recently used. -/
def keys (c : Lru ν) : List String := c.entries.map Prod.fst

/-- The number of entries. -/
def length (c : Lru ν) : Nat := c.index.size

/-- Whether there are no entries. -/
def isEmpty (c : Lru ν) : Bool := c.index.entries.isEmpty

/-! ## Reading -/

/-- The value of a key; its recency stays as it is. -/
def peek (c : Lru ν) (key : String) : Option ν := do
  let id ← c.index.find? key
  let n ← c.slot? id
  pure n.value

/-- Whether a key has an entry; its recency stays as it is. -/
def contains (c : Lru ν) (key : String) : Bool := c.index.contains key

/-- The value of a key, which becomes the most recently used. -/
def get (c : Lru ν) (key : String) : Lru ν × Option ν :=
  match c.index.find? key with
  | none => (c, none)
  | some id =>
    let c := c.moveToFront id
    (c, (c.slot? id).map Slot.value)

/-! ## Writing -/

variable [Sized ν]

/-- What an entry costs. -/
def cost (key : String) (value : ν) : Nat := key.utf8ByteSize + size value

/-- Takes out the least recently used entry. -/
def popOldest (c : Lru ν) : Lru ν × Option (String × ν) :=
  match c.oldest with
  | none => (c, none)
  | some id =>
    -- The slot at the end of the chain is in use, so the first case never comes up.
    match c.release id with
    | (c, none) => (c, none)
    | (c, some n) =>
      ({ c with index := c.index.erase n.key, bytes := c.bytes - cost n.key n.value },
        some (n.key, n.value))

/-- Whether the entries cost more than the budget. -/
def overBudget (c : Lru ν) : Bool := c.maxBytes != 0 && c.maxBytes < c.bytes

/-- Takes out least recently used entries until the rest fits the budget, `fuel` of them at most.
The answer lists what was taken out, in that order. -/
def evict : Nat → Lru ν → Lru ν × List (String × ν)
  | 0, c => (c, [])
  | fuel + 1, c =>
    if c.overBudget then
      match c.popOldest with
      | (c, none) => (c, [])
      | (c, some e) =>
        let (c, es) := evict fuel c
        (c, e :: es)
    else (c, [])

/-- Sets the value of a key, which becomes the most recently used, before anything is evicted. -/
def put (c : Lru ν) (key : String) (value : ν) : Lru ν :=
  match c.index.find? key with
  | some id =>
    -- Only the value changes: what the key costs has been counted already.
    let c := match c.slot? id with
      | some n =>
        { c.modifySlot id fun m => { m with value := value } with
          bytes := c.bytes + size value - size n.value }
      | none => c
    c.moveToFront id
  | none =>
    let c := { c with bytes := c.bytes + cost key value }
    let (c, id) := c.alloc { key, value, newer := none, older := none }
    let c := c.attachFront id
    { c with index := c.index.insert key id }

/-- Sets the value of a key, which becomes the most recently used, and evicts from the other end
until the budget holds. The answer lists the evicted entries, least recently used first. A value
that was replaced is not evicted. -/
def add (c : Lru ν) (key : String) (value : ν) : Lru ν × List (String × ν) :=
  -- Every round takes one entry out, so there are no more rounds than entries.
  let c := c.put key value
  evict c.length c

/-- Evicts the least recently used entry, if there is one. -/
def removeOldest (c : Lru ν) : Lru ν × Option (String × ν) := c.popOldest

/-- Takes the entry of a key out and gives its value; this is no eviction. -/
def remove (c : Lru ν) (key : String) : Lru ν × Option ν :=
  match c.index.find? key with
  | none => (c, none)
  | some id =>
    match { c with index := c.index.erase key }.release id with
    | (c, none) => (c, none)
    | (c, some n) => ({ c with bytes := c.bytes - cost n.key n.value }, some n.value)

end Lru

end PeerCache
