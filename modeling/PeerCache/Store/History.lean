import PeerCache.Lru.Recency
import PeerCache.Store.Hook
/-!
# PeerCache — what happens at a store with hooks

Whoever uses a store is a `Reaction`, as a hook is: it adds, looks up and asks how full the store
is, one thing after another, and what it does next may depend on what it was answered. `ofClient`
puts such a client to an unused store. A hook may remember what it was told before, so every step of
a session is done with a hook of its own.

`trace` writes down what the steps do, in order. `Acts` says, without a stack of tasks, what a
proper trace looks like: the events of a body up to its end, where all the calls that an `add` owes
(`Tells`) stand right behind it, each with the whole body of the hook.
-/

namespace PeerCache

namespace Session

/-- Something that happens at a store. -/
inductive Event where
  /-- Under the lock, a key gets a value and entries are evicted. -/
  | insert (key : String) (value : ByteView) (evicted : List (String × ByteView))
  /-- The lock is given back. -/
  | unlock
  /-- The hook is called. -/
  | call (key : String) (value : ByteView)
  | get (key : String) (answer : Option ByteView)
  | stats (answer : Store.Stats)
  /-- A hook returns, or the client is done. -/
  | done
deriving DecidableEq, Repr

/-- What happens while a hook is played up to its end or to the next thing it adds. -/
def played : Reaction → Store → List Event
  | .done, _ => [.done]
  | .note _ next, s => played next s
  | .get key next, s => .get key (s.get key).2 :: played (next (s.get key).2) (s.get key).1
  | .stats next, s => .stats s.stats :: played (next s.stats) s
  | .add _ _ _, _ => []

/-- What happens in one step; nothing if there is no step. -/
def happens (hook : Hook) (x : Session) : List Event :=
  match x.tasks with
  | [] => []
  | .unlock :: _ => [.unlock]
  | .insert key value :: _ =>
    if x.locked then [] else [.insert key value (x.store.insert key value).2]
  | .tell key value :: _ =>
    if x.locked then [] else .call key value :: played (hook key value) x.store
  | .resume r :: _ => if x.locked then [] else played r x.store

/-- The session after a step with each of some hooks; it stays as it is if there is no step. -/
def after (x : Session) : List Hook → Session
  | [] => x
  | hook :: hooks => ((x.step hook).getD x).after hooks

/-- What happens in these steps. -/
def trace (x : Session) : List Hook → List Event
  | [] => []
  | hook :: hooks => x.happens hook ++ ((x.step hook).getD x).trace hooks

/-- A client that is about to use a store that nobody has used. -/
def ofClient (cacheBytes : Nat) (client : Reaction) : Session where
  store := .new cacheBytes
  locked := false
  tasks := [.resume client]
  notes := []

/-- The entry that the hook is told of, if it is called. -/
def Event.told? : Event → Option (String × ByteView)
  | .call key value => some (key, value)
  | _ => none

/-- The entries that are evicted. -/
def Event.evicted : Event → List (String × ByteView)
  | .insert _ _ evicted => evicted
  | _ => []

/-- The entries that the hook was told of, in order. -/
def calls (tr : List Event) : List (String × ByteView) := tr.filterMap Event.told?

/-- The entries that were evicted, in order. -/
def evictions (tr : List Event) : List (String × ByteView) := tr.flatMap Event.evicted

mutual

/-- `Acts maxBytes es tr fs`: with the entries `es`, the most recently used in front, a body can do
what `tr` says and leaves the entries `fs`. -/
inductive Acts (maxBytes : Nat) :
    List (String × ByteView) → List Event → List (String × ByteView) → Prop
  | done {es} : Acts maxBytes es [.done] es
  | get {es fs : List (String × ByteView)} {key : String} {rest : List Event}
      (hrest : Acts maxBytes ((Recency.mk maxBytes es).get key).1.entries rest fs) :
      Acts maxBytes es (.get key ((Recency.mk maxBytes es).get key).2 :: rest) fs
  | stats {es fs : List (String × ByteView)} {rest : List Event}
      (hfits : maxBytes = 0 ∨ Recency.cost es ≤ maxBytes)
      (hrest : Acts maxBytes es rest fs) :
      Acts maxBytes es (.stats ⟨es.length, Recency.cost es⟩ :: rest) fs
  -- The value that the new one replaces is in neither part, and the calls stand behind `unlock`.
  | add {es fs hs kept evicted : List (String × ByteView)} {key : String} {value : ByteView}
      {told rest : List Event}
      (hparts : (key, value) :: Recency.without key es = kept ++ evicted.reverse)
      (hkept : kept = Recency.kept maxBytes ((key, value) :: Recency.without key es))
      (htold : Tells maxBytes kept evicted told hs)
      (hrest : Acts maxBytes hs rest fs) :
      Acts maxBytes es (.insert key value evicted :: .unlock :: (told ++ rest)) fs

/-- `Tells maxBytes es evicted tr fs`: with the entries `es`, the hook is told of all the evicted
entries in order, which takes what `tr` says and leaves the entries `fs`. -/
inductive Tells (maxBytes : Nat) : List (String × ByteView) → List (String × ByteView) →
    List Event → List (String × ByteView) → Prop
  | nil {es} : Tells maxBytes es [] [] es
  | cons {es fs hs evicted : List (String × ByteView)} {key : String} {value : ByteView}
      {body rest : List Event}
      (hfits : maxBytes = 0 ∨ Recency.cost es ≤ maxBytes)
      (hbody : Acts maxBytes es body hs)
      (hrest : Tells maxBytes hs evicted rest fs) :
      Tells maxBytes es ((key, value) :: evicted) (.call key value :: (body ++ rest)) fs

end

end Session

end PeerCache
