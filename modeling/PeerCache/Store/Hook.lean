import PeerCache.Store.Basic
/-!
# PeerCache — eviction hooks

A store tells its hook of every entry that an `add` evicted. The hook may use the same store,
also to add, so hooks nest. A `Session` is a store at work on one `add`: its lock, what is still
to be done, and what the hooks noted so far.

## Order

The evictions of an `add` happen while the lock is held, and the hook is told of them one after
another once it is released. What a hook itself adds, and everything that this brings about, is
done before the hook goes on and before the next entry is told: the tasks form a stack, and an
`add` puts its own tasks on top of it.
-/

namespace PeerCache

/-- What a hook saw of its store. -/
inductive Sight where
  /-- It did not look. -/
  | nothing
  /-- How full the store was. -/
  | stats (s : Store.Stats)
  /-- What a lookup gave. -/
  | found (value : Option ByteView)
deriving DecidableEq, Repr

/-- What a hook writes down about an evicted entry. -/
structure Note where
  key : String
  value : ByteView
  sight : Sight
deriving DecidableEq, Repr

/-- What a hook does with its store, step by step. -/
inductive Reaction where
  | done
  | note (n : Note) (next : Reaction)
  | get (key : String) (next : Option ByteView → Reaction)
  | stats (next : Store.Stats → Reaction)
  | add (key : String) (value : ByteView) (next : Reaction)

/-- What to do about an evicted entry. -/
abbrev Hook := String → ByteView → Reaction

namespace Hook

/-- Does nothing. -/
def silent : Hook := fun _ _ => .done

/-- Notes the entry. -/
def log : Hook := fun key value => .note ⟨key, value, .nothing⟩ .done

/-- Notes the entry and how full the store is: to try out what a hook sees of the store. -/
def logStats : Hook := fun key value =>
  .stats fun s => .note ⟨key, value, .stats s⟩ .done

/-- Notes the entry and what looking up `wanted` gives: to try out that a hook may use the store. -/
def logGet (wanted : String) : Hook := fun key value =>
  .get wanted fun v => .note ⟨key, value, .found v⟩ .done

/-- Notes the entry and puts the first half of its value back, unless the value is empty. -/
def halve : Hook := fun key value =>
  .note ⟨key, value, .nothing⟩
    (if value.isEmpty then .done
     else .add key ⟨value.bytes.take (value.length / 2)⟩ .done)

end Hook

/-- What a store at work has still to do. -/
inductive Task where
  /-- Take the lock, set the value of a key and evict what no longer fits. -/
  | insert (key : String) (value : ByteView)
  /-- Give the lock back. -/
  | unlock
  /-- Tell the hook of an evicted entry. -/
  | tell (key : String) (value : ByteView)
  /-- Go on with a hook. -/
  | resume (rest : Reaction)

/-- A store at work on an `add`. -/
structure Session where
  store : Store
  locked : Bool
  tasks : List Task
  notes : List Note

namespace Session

/-- A store that is about to add. -/
def start (s : Store) (key : String) (value : ByteView) : Session where
  store := s
  locked := false
  tasks := [.insert key value]
  notes := []

/-- Whether nothing is left to do. -/
def isFinished (x : Session) : Bool := x.tasks.isEmpty

/-- Plays a hook up to its end or to the next thing it adds. The third part of the answer is
what that leaves to do. -/
def play : Reaction → Store → List Note → Store × List Note × List Task
  | .done, s, notes => (s, notes, [])
  | .note n next, s, notes => play next s (notes ++ [n])
  | .get key next, s, notes =>
    let (s, v) := s.get key
    play (next v) s notes
  | .stats next, s, notes => play (next s.stats) s notes
  | .add key value next, s, notes => (s, notes, [.insert key value, .resume next])

/-- Does the first task; `none` if there is no task left or the task needs the lock while it is
held. -/
def step (hook : Hook) (x : Session) : Option Session :=
  match x.tasks with
  | [] => none
  | .unlock :: rest => some { x with locked := false, tasks := rest }
  | .insert key value :: rest =>
    if x.locked then none
    else
      let (s, evicted) := x.store.insert key value
      -- Nobody is told before the lock is given back.
      some { x with
        store := s
        locked := true
        tasks := .unlock :: evicted.map (fun e => .tell e.1 e.2) ++ rest }
  | .tell key value :: rest =>
    if x.locked then none
    else
      -- What the hook adds comes before the entries that are still to be told.
      let (s, notes, more) := play (hook key value) x.store x.notes
      some { x with store := s, notes := notes, tasks := more ++ rest }
  | .resume r :: rest =>
    if x.locked then none
    else
      let (s, notes, more) := play r x.store x.notes
      some { x with store := s, notes := notes, tasks := more ++ rest }

/-- Does at most `fuel` tasks. -/
def run (hook : Hook) : Nat → Session → Session
  | 0, x => x
  | fuel + 1, x =>
    match x.step hook with
    | none => x
    | some y => run hook fuel y

end Session

namespace Store

/-- What a list of entries weighs: every entry one more than the bytes of its value. A hook that
puts back less than it was told of makes the weight of all entries, evicted ones included, go
down. -/
def weight : List (String × ByteView) → Nat
  | [] => 0
  | e :: rest => e.2.length + 1 + weight rest

/-- Sets the value of a key and tells the hook of the evicted entries, to the end of everything
that brings about. Four tasks for every unit of weight are enough for each hook that puts back
less than it was told of, or nothing; any other is cut off there. -/
def addWith (hook : Hook) (s : Store) (key : String) (value : ByteView) : Session :=
  Session.run hook (4 * (weight s.entries + value.length + 1) + 2) (.start s key value)

end Store

end PeerCache
