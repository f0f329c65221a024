import PeerCache.Lru.Basic
/-!
# PeerCache — the recency list

The cache as a plain list of entries from the most to the least recently used, without slots or
links. Each operation is one equation on the list:

* `add` drops the old entry of the key, puts the new one in front and keeps the longest run from
  the front that fits the budget; what is cut off is evicted from its far end on.
* `get` moves a found entry to the front; `peek` and `contains` change nothing.
* `remove` deletes the entry and `removeOldest` drops the last one.
-/

namespace PeerCache

/-- Entries from the most to the least recently used, under a budget in bytes (zero: none). -/
structure Recency (ν : Type) where
  maxBytes : Nat
  entries : List (String × ν)
deriving DecidableEq, Repr

namespace Recency

variable {ν : Type}

/-- The empty list with a budget. -/
def new (maxBytes : Nat) : Recency ν := ⟨maxBytes, []⟩

/-- The entries without the one of a key. -/
def without (key : String) (es : List (String × ν)) : List (String × ν) :=
  es.filter fun e => e.1 ≠ key

/-- The value of a key. -/
def peek (r : Recency ν) (key : String) : Option ν :=
  (r.entries.find? fun e => e.1 = key).map Prod.snd

/-- Whether a key has an entry. -/
def contains (r : Recency ν) (key : String) : Bool := (r.peek key).isSome

/-- The keys from the most to the least recently used. -/
def keys (r : Recency ν) : List String := r.entries.map Prod.fst

/-- The number of entries. -/
def length (r : Recency ν) : Nat := r.entries.length

/-- Whether there are no entries. -/
def isEmpty (r : Recency ν) : Bool := r.entries.isEmpty

/-- The value of a key, which moves to the front. -/
def get (r : Recency ν) (key : String) : Recency ν × Option ν :=
  match r.peek key with
  | none => (r, none)
  | some v => ({ r with entries := (key, v) :: without key r.entries }, some v)

/-- Deletes the entry of a key and gives its value. -/
def remove (r : Recency ν) (key : String) : Recency ν × Option ν :=
  ({ r with entries := without key r.entries }, r.peek key)

/-- Drops the last entry, if there is one. -/
def removeOldest (r : Recency ν) : Recency ν × Option (String × ν) :=
  ({ r with entries := r.entries.dropLast }, r.entries.getLast?)

variable [Sized ν]

/-- What a list of entries costs. -/
def cost : List (String × ν) → Nat
  | [] => 0
  | e :: rest => Lru.cost e.1 e.2 + cost rest

/-- What the entries cost together. -/
def bytes (r : Recency ν) : Nat := cost r.entries

/-- The longest run from the front that costs at most `budget`. -/
def within (budget : Nat) : List (String × ν) → List (String × ν)
  | [] => []
  | e :: rest =>
    if Lru.cost e.1 e.2 ≤ budget then e :: within (budget - Lru.cost e.1 e.2) rest else []

/-- The part of the entries that a budget keeps: all of them if there is none. -/
def kept (maxBytes : Nat) (es : List (String × ν)) : List (String × ν) :=
  if maxBytes = 0 then es else within maxBytes es

/-- Sets the value of a key, which moves to the front; the answer lists what the budget cuts off,
least recently used first. -/
def add (r : Recency ν) (key : String) (value : ν) : Recency ν × List (String × ν) :=
  let es := (key, value) :: without key r.entries
  -- The new entry itself is cut off if it alone is over the budget.
  let k := kept r.maxBytes es
  ({ r with entries := k }, (es.drop k.length).reverse)

end Recency

end PeerCache
