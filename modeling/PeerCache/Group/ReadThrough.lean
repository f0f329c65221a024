import PeerCache.Group.Alone
/-!
# PeerCache — calls without the help of a peer

A call reads through the store to the group's source when no peer helps it: there is no router, or
nobody is picked, or whoever is picked fails. `readThrough` tells what such a call comes to from the
group before it, the key, and what the source does. It does not ask for the way in. What is really
seen of a call is its `Trace`.
-/

namespace PeerCache

namespace Group

/-- What the source does when it is called. -/
inductive SourceAct where
  | reply (reply : Except String (List UInt8))
  | panic (text : String)

namespace SourceAct

variable {ι : Type}

/-- The event that the source brings to a load. -/
def event (access : Access) (leader : ι) : SourceAct → Event ι
  | reply r => .sourceReply access leader r
  | panic text => .panic access leader text

/-- How the load ends. -/
def ending : SourceAct → Ending ByteView
  | reply (.ok bytes) => .value ⟨bytes⟩
  | reply (.error text) => .failed (.source text)
  | panic text => .panicked text

/-- As what the end is counted. -/
def closing : SourceAct → Closing
  | reply (.ok _) => .source
  | reply (.error _) => .failed
  | panic _ => .panicked

/-- The store afterwards, and what was evicted from it. Only a value is kept. -/
def keep (s : Store) (key : String) : SourceAct → Store × List (String × ByteView)
  | reply (.ok bytes) => s.insert key ⟨bytes⟩
  | _ => (s, [])

end SourceAct

/-- What is seen of a call. -/
@[ext]
structure Trace where
  /-- The caller's answer, if it has one. -/
  answer : Option (Outcome ByteView)
  store : Store
  /-- What the eviction hook has been told of so far. -/
  evicted : List (String × ByteView)
  /-- The keys that the source was called for, in order. -/
  asked : List String
  counters : Counters

/-- The same, but some failures of peers were counted as well. -/
def Trace.rebuffed (t : Trace) (n : Nat) : Trace :=
  { t with counters := { t.counters with peerErrors := t.counters.peerErrors + n } }

variable {ι : Type}

/-- What a call comes to that finds the value in the store or has it from the source. -/
def readThrough (g : Group ι) (source : String → SourceAct) (key : String) : Trace :=
  if key = "" then ⟨some (.error keyRequired), g.store, g.evicted, [], g.counters⟩
  else
    let counters := { g.counters with gets := g.counters.gets + 1 }
    match g.store.get key with
    | (store, some value) =>
      ⟨some (.ok value), store, g.evicted, [], { counters with hits := counters.hits + 1 }⟩
    | (store, none) =>
      let (store, evicted) := (source key).keep store key
      ⟨some (source key).ending.outcome, store, g.evicted ++ evicted, [key],
        (source key).closing.tally counters⟩

variable [DecidableEq ι]

/-! ## What happens in a run -/

/-- The keys that the source is called for. -/
def asks (g : Group ι) (e : Event ι) : List String :=
  (g.callsSource e).filterMap fun load => (g.flight load.1).key? load.2

/-- What the source does, and for which key. -/
def sourceActs (g : Group ι) : Event ι → List (String × SourceAct)
  | .sourceReply access leader reply =>
    match g.request? access leader with
    | some (.source key) => [(key, .reply reply)]
    | _ => []
  | .panic access leader text =>
    match g.request? access leader with
    | some (.source key) => [(key, .panic text)]
    | _ => []
  | _ => []

/-- The load that its peer ends, with a value or by a panic. A peer that fails ends none. -/
def endedByPeer (g : Group ι) : Event ι → List (Load ι)
  | .peerReply access leader (.ok _) =>
    match g.request? access leader with
    | some (.peer _ _ _) => [(access, leader)]
    | _ => []
  | .panic access leader _ =>
    match g.request? access leader with
    | some (.peer _ _ _) => [(access, leader)]
    | _ => []
  | _ => []

/-- What is seen of a call of `caller`, of which `events` are all that has happened. -/
def trace (g : Group ι) (access : Access) (caller : ι) (events : List (Event ι)) : Trace where
  answer := (g.run events).answer? access caller
  store := (g.run events).store
  evicted := (g.run events).evicted
  asked := ledger asks g events
  counters := (g.run events).counters

/-- The call of `caller` for `key` is answered, after its lookup nothing has happened but what is
its own, no peer is of help, and the source does what `source` says. -/
structure Unaided (g : Group ι) (source : String → SourceAct) (access : Access) (caller : ι)
    (key : String) (own : List (Event ι)) : Prop where
  alone : ∀ e ∈ own, e.IsOwn access caller caller
  peers : ledger endedByPeer g (.lookup caller access key :: own) = []
  acts : ∀ act ∈ ledger sourceActs g (.lookup caller access key :: own), act.2 = source act.1
  answered : ∃ o, (g.run (.lookup caller access key :: own)).answer? access caller = some o

/-- All that happens after the lookup of a call if the router picks `picked`, and whoever is picked
fails with `error`. What does not apply changes nothing. -/
def fallback (act : SourceAct) (picked : Option String) (error : CacheError) (access : Access)
    (caller : ι) : List (Event ι) :=
  [.start access caller picked, .peerReply access caller (.error error), act.event access caller,
    .deliver access caller]

end Group

end PeerCache
