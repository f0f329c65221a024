import PeerCache.Lru.Run
/-!
# PeerCache — the cache with its checks

The operations of `Lru` once more, with everything looked at that could go wrong in them: a slot
number has to be one of the slab whenever it is used, a count of bytes has to fit a machine word
and never to fall below zero, and entries that are over the budget have to include one that can be
evicted. What is violated is a `Fault`.

The loops are checked as well. `keys` follows the links until there are none, and `evict` goes on
for as long as the entries are over the budget; neither may take more rounds than there are
entries. A loop that is not at its end by then does not just stop, it is a fault too.
-/

namespace PeerCache

namespace Lru

/-- What must not happen to a cache. -/
inductive Fault where
  /-- A slot is used that the slab does not have. -/
  | noSlot (id : Nat)
  /-- A count does not fit a machine word. -/
  | overflow
  /-- More bytes are taken off a count than it has. -/
  | underflow
  /-- The entries are over the budget, and none is there to be evicted. -/
  | nothingToEvict
  /-- A loop has gone over all entries and goes on. -/
  | endless
deriving DecidableEq, Repr

/-- A computation that may meet a fault. -/
abbrev Checked (α : Type) : Type := Except Fault α

namespace Checked

variable {ν : Type}

/-- A count with some bytes more, as far as a machine word goes. -/
def more (count bytes : Nat) : Checked Nat :=
  if count + bytes < UInt64.size then pure (count + bytes) else throw .overflow

/-- A count with some bytes less. -/
def less (count bytes : Nat) : Checked Nat :=
  if bytes ≤ count then pure (count - bytes) else throw .underflow

/-! ## Slots -/

/-- The entry in a slot, if the slot is in use. -/
def slotAt (c : Lru ν) (id : Nat) : Checked (Option (Slot ν)) :=
  if id < c.slots.size then pure (c.slot? id) else throw (.noSlot id)

/-- Overwrites what is in a slot. -/
def setSlot (c : Lru ν) (id : Nat) (n : Option (Slot ν)) : Checked (Lru ν) :=
  if id < c.slots.size then pure { c with slots := c.slots.setIfInBounds id n }
  else throw (.noSlot id)

/-- Changes the entry in a slot that is in use. -/
def modifySlot (c : Lru ν) (id : Nat) (f : Slot ν → Slot ν) : Checked (Lru ν) := do
  match ← slotAt c id with
  | none => pure c
  | some n => setSlot c id (some (f n))

/-- Puts an entry into the slot freed last, or into a new one, and gives the slot's number. -/
def alloc (c : Lru ν) (n : Slot ν) : Checked (Lru ν × Nat) :=
  match c.free with
  | id :: rest => do
    let c ← setSlot { c with free := rest } id (some n)
    pure (c, id)
  | [] => pure ({ c with slots := c.slots.push (some n) }, c.slots.size)

/-! ## The chain -/

/-- Makes `next?` the slot behind a slot on the chain; in front of the whole chain, the newest. -/
def linkOlder (c : Lru ν) (slot? next? : Option Nat) : Checked (Lru ν) :=
  match slot? with
  | some j => modifySlot c j fun m => { m with older := next? }
  | none => pure { c with newest := next? }

/-- Makes `next?` the slot in front of a slot on the chain; behind the whole chain, the oldest. -/
def linkNewer (c : Lru ν) (slot? next? : Option Nat) : Checked (Lru ν) :=
  match slot? with
  | some j => modifySlot c j fun m => { m with newer := next? }
  | none => pure { c with oldest := next? }

/-- Takes a slot off the chain and joins its neighbours. -/
def detach (c : Lru ν) (id : Nat) : Checked (Lru ν) := do
  match ← slotAt c id with
  | none => pure c
  | some n =>
    -- A missing neighbour is an end of the chain, and no slot is looked up for it.
    let c ← linkOlder c n.newer n.older
    let c ← linkNewer c n.older n.newer
    modifySlot c id fun m => { m with newer := none, older := none }

/-- Puts a slot that is on no chain in front of the newest entry. -/
def attachFront (c : Lru ν) (id : Nat) : Checked (Lru ν) := do
  let front := c.newest
  let c ← modifySlot c id fun m => { m with newer := none, older := front }
  let c ← linkNewer c front (some id)
  linkOlder c none (some id)

/-- Makes a slot on the chain the newest. -/
def moveToFront (c : Lru ν) (id : Nat) : Checked (Lru ν) :=
  if c.newest = some id then pure c
  else do
    let c ← detach c id
    attachFront c id

/-- Empties a slot and frees it; the answer is the entry that was in it. -/
def release (c : Lru ν) (id : Nat) : Checked (Lru ν × Option (Slot ν)) := do
  let c ← detach c id
  match ← slotAt c id with
  | none => pure (c, none)
  | some n =>
    let c ← setSlot c id none
    pure ({ c with free := id :: c.free }, some n)

/-- The keys from a slot on toward older entries, until the links come to an end. -/
def keysFrom (c : Lru ν) : Nat → Option Nat → Checked (List String)
  | _, none => pure []
  | 0, some _ => throw .endless
  | rounds + 1, some id => do
    match ← slotAt c id with
    | none => pure []
    | some n =>
      let rest ← keysFrom c rounds n.older
      pure (n.key :: rest)

/-- The keys from the most to the least recently used. -/
def keys (c : Lru ν) : Checked (List String) := keysFrom c c.length c.newest

/-! ## Reading -/

/-- The value of a key; its recency stays as it is. -/
def peek (c : Lru ν) (key : String) : Checked (Option ν) :=
  match c.index.find? key with
  | none => pure none
  | some id => do
    let n ← slotAt c id
    pure (n.map Slot.value)

/-- The value of a key, which becomes the most recently used. -/
def get (c : Lru ν) (key : String) : Checked (Lru ν × Option ν) :=
  match c.index.find? key with
  | none => pure (c, none)
  | some id => do
    let c ← moveToFront c id
    let n ← slotAt c id
    pure (c, n.map Slot.value)

/-! ## Writing -/

variable [Sized ν]

/-- Takes out the least recently used entry. -/
def popOldest (c : Lru ν) : Checked (Lru ν × Option (String × ν)) :=
  match c.oldest with
  | none => pure (c, none)
  | some id => do
    match ← release c id with
    | (c, none) => pure (c, none)
    | (c, some n) =>
      let bytes ← less c.bytes (cost n.key n.value)
      pure ({ c with index := c.index.erase n.key, bytes }, some (n.key, n.value))

/-- Takes out least recently used entries until the rest fits the budget. The answer lists what
was taken out, in that order. -/
def evict (rounds : Nat) (c : Lru ν) : Checked (Lru ν × List (String × ν)) :=
  if c.overBudget then
    match rounds with
    | 0 => throw .endless
    | rounds + 1 => do
      match ← popOldest c with
      -- To stop here would leave the entries over the budget.
      | (_, none) => throw .nothingToEvict
      | (c, some e) =>
        let (c, es) ← evict rounds c
        pure (c, e :: es)
  else pure (c, [])

/-- Sets the value of a key, which becomes the most recently used, before anything is evicted. -/
def put (c : Lru ν) (key : String) (value : ν) : Checked (Lru ν) :=
  match c.index.find? key with
  | some id => do
    match ← slotAt c id with
    | none => moveToFront c id
    | some n =>
      let c ← setSlot c id (some { n with value := value })
      -- The count holds both values for a moment.
      let bytes ← more c.bytes (size value)
      let bytes ← less bytes (size n.value)
      moveToFront { c with bytes } id
  | none => do
    let bytes ← more c.bytes (cost key value)
    let (c, id) ← alloc { c with bytes } { key, value, newer := none, older := none }
    let c ← attachFront c id
    pure { c with index := c.index.insert key id }

/-- Sets the value of a key and evicts from the other end until the budget holds. -/
def add (c : Lru ν) (key : String) (value : ν) : Checked (Lru ν × List (String × ν)) := do
  let c ← put c key value
  evict c.length c

/-- Takes the entry of a key out and gives its value; this is no eviction. -/
def remove (c : Lru ν) (key : String) : Checked (Lru ν × Option ν) :=
  match c.index.find? key with
  | none => pure (c, none)
  | some id => do
    match ← release { c with index := c.index.erase key } id with
    | (c, none) => pure (c, none)
    | (c, some n) =>
      let bytes ← less c.bytes (cost n.key n.value)
      pure ({ c with bytes }, some n.value)

/-! ## Runs -/

/-- Performs an operation: the cache after it, its answer, and what was evicted. -/
def step (c : Lru ν) : Op ν → Checked (Lru ν × Answer ν × List (String × ν))
  | .add key value => do
    let (c, evicted) ← add c key value
    pure (c, .nothing, evicted)
  | .get key => do
    let (c, v) ← get c key
    pure (c, .value v, [])
  | .peek key => do
    let v ← peek c key
    pure (c, .value v, [])
  | .contains key => pure (c, .flag (c.contains key), [])
  | .remove key => do
    let (c, v) ← remove c key
    pure (c, .value v, [])
  | .removeOldest => do
    let (c, e) ← popOldest c
    pure (c, .flag e.isSome, e.toList)

/-- The cache after a list of operations and their reports; the keys are read after each. -/
def run (c : Lru ν) : List (Op ν) → Checked (Lru ν × List (Report ν))
  | [] => pure (c, [])
  | op :: ops => do
    let (c, answer, evicted) ← step c op
    let keys ← keys c
    let (last, reports) ← run c ops
    pure (last, ⟨answer, evicted, keys, c.length, c.isEmpty, c.bytes⟩ :: reports)

end Checked

end Lru

end PeerCache
