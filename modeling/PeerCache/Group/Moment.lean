import PeerCache.Group.Loads
/-!
# PeerCache — a group between two steps

An `Event` of a group is a whole lookup, or the whole way of a load from the answer it waited for to
its end. Others are not kept out that long: while the eviction hook is told of an entry, say, the
load that evicted it still has its marker, and anybody may look a key up. A `Moment` is a group
together with what the lookups and the loads that are on their way are about to do. A `Move` adds to
one counter, or looks into the store, or changes it, or changes a board, or tells the hook of one
entry, and never does two of these, so that whatever another caller can see of the group is the
group of a moment. The state that an event leaves behind is a moment `rest` at which nothing is on
its way.

## A lookup

It is counted as a get when it is made. Then it looks into the store (`counted`). If the value is
there it counts a hit and answers (`found`). Otherwise it sees whether there is a router (`missed`),
and joins the load that is in flight for the key, or starts its own (`ready`).

## The landing of a load

A value that a peer has sent is counted first (`fetched`), and put into the store after that, if at
all. A value of the source is put into the store first (`keeping`) and counted when the hook has
been told of all entries that this evicts (`telling`). The load ends, and its marker goes, when all
this is done (`done`). An error of a peer is counted (`rebuffed`), and then the source is called
(`turning`); an error of the source is counted, and the load ends with it (`failed`).

The counters are exact and read as they stand at the moment: that a processor may show one thread
the changes of another in a different order is not told of.
-/

namespace PeerCache

namespace Group

/-- What a lookup that has been counted as a get is about to do. -/
inductive Looking where
  /-- It looks into the store. -/
  | counted
  /-- It counts a hit and answers with the value. -/
  | found (value : ByteView)
  /-- It sees whether its load may ask a router. -/
  | missed
  /-- It joins a load or starts one. -/
  | ready (router : Bool)
deriving DecidableEq, Repr

/-- A lookup on its way. -/
structure Visit where
  access : Access
  key : String
  looking : Looking
deriving DecidableEq, Repr

/-- Where the value of a load is from. -/
inductive Origin where
  | peer
  | source
deriving DecidableEq, Repr

/-- What a load that has had its answer from outside is about to do. -/
inductive Landing where
  /-- It counts the value that a peer has sent. -/
  | fetched (bytes : List UInt8)
  /-- It counts the failure of its peer. -/
  | rebuffed
  /-- It calls the source. -/
  | turning
  /-- It puts the value into the store. -/
  | keeping (origin : Origin) (bytes : List UInt8)
  /-- It tells the hook of these entries; after the last one it counts a value of the source. -/
  | telling (origin : Origin) (bytes : List UInt8) (evicted : List (String × ByteView))
  /-- It counts the failure of the source. -/
  | failed (text : String)
  /-- It ends. -/
  | done (how : Ending ByteView)
deriving DecidableEq, Repr

/-- Whether what the load has come to has been counted. -/
def Landing.isCounted : Landing → Bool
  | .fetched _ => false
  | .rebuffed => false
  | .turning => false
  | .keeping origin _ => origin = .peer
  | .telling origin _ _ => origin = .peer
  | .failed _ => false
  | .done _ => true

/-- As what the load is counted by what it does next. -/
def Landing.counts : Landing → Option Closing
  | .fetched _ => some .peer
  | .telling .source _ [] => some .source
  | .failed _ => some .failed
  | _ => none

/-- A group at one moment, with the lookups and the loads that are on their way. -/
structure Moment (ι : Type) where
  group : Group ι
  visits : Table ι Visit
  landings : Table (Load ι) Landing

namespace Moment

variable {ι : Type}

/-- A group in which nothing is on its way. -/
def rest (g : Group ι) : Moment ι := ⟨g, .empty, .empty⟩

/-- A group that has just been made. -/
def fresh (name : String) (cacheBytes : Nat) (policy : RemotePolicy) : Moment ι :=
  rest (new name cacheBytes policy)

variable [DecidableEq ι]

/-- What a load waits for outside, if it does. A load that is landing waits for nothing. -/
def request? (m : Moment ι) (access : Access) (leader : ι) : Option Request :=
  match m.landings.find? (access, leader) with
  | some _ => none
  | none => m.group.request? access leader

/-- A caller makes a lookup, which counts as a get unless the key is empty. -/
def enter (m : Moment ι) (caller : ι) (access : Access) (key : String) : Moment ι :=
  if caller ∈ m.group.callers then m
  else
    let g := { m.group with callers := m.group.callers ++ [caller] }
    if key = "" then
      { m with group := { g with immediate := g.immediate ++ [(caller, .error keyRequired)] } }
    else
      { m with
        group := g.count fun c => { c with gets := c.gets + 1 }
        visits := m.visits.insert caller ⟨access, key, .counted⟩ }

/-- A lookup is about to do something else. -/
def setVisit (m : Moment ι) (caller : ι) (access : Access) (key : String) (looking : Looking) :
    Moment ι :=
  { m with visits := m.visits.insert caller ⟨access, key, looking⟩ }

/-- What a lookup does next. -/
def lookOn (m : Moment ι) (caller : ι) (access : Access) (key : String) : Looking → Moment ι
  | .counted =>
    let (store, value?) := m.group.store.get key
    { m with group := { m.group with store := store } }.setVisit caller access key
      (match value? with
      | some value => .found value
      | none => .missed)
  | .found value =>
    { m with
      group := { m.group.count fun c => { c with hits := c.hits + 1 } with
        immediate := m.group.immediate ++ [(caller, .ok value)] }
      visits := m.visits.erase caller }
  -- A router that is installed from now on is not asked by this load.
  | .missed => m.setVisit caller access key (.ready (access = .routed && m.group.hasRouter))
  | .ready router =>
    { m with
      group := m.group.setFlight access
        ((m.group.flight access).call caller key (.queued router))
      visits := m.visits.erase caller }

/-- The lookup of a caller goes on. -/
def look (m : Moment ι) (caller : ι) : Moment ι :=
  match m.visits.find? caller with
  | some visit => m.lookOn caller visit.access visit.key visit.looking
  | none => m

/-- A load is about to do something else. -/
def setLanding (m : Moment ι) (access : Access) (leader : ι) (landing : Landing) : Moment ι :=
  { m with landings := m.landings.insert (access, leader) landing }

/-- The peer that a load waits for answers. -/
def peerReply (m : Moment ι) (access : Access) (leader : ι)
    (reply : Except CacheError (List UInt8)) : Moment ι :=
  match m.request? access leader, reply with
  | some (.peer _ _ _), .ok bytes => m.setLanding access leader (.fetched bytes)
  | some (.peer _ _ _), .error _ => m.setLanding access leader .rebuffed
  | _, _ => m

/-- The source that a load waits for answers. -/
def sourceReply (m : Moment ι) (access : Access) (leader : ι)
    (reply : Except String (List UInt8)) : Moment ι :=
  match m.request? access leader, reply with
  | some (.source _), .ok bytes => m.setLanding access leader (.keeping .source bytes)
  | some (.source _), .error text => m.setLanding access leader (.failed text)
  | _, _ => m

/-- The peer or the source that a load waits for panics. -/
def panic (m : Moment ι) (access : Access) (leader : ι) (text : String) : Moment ι :=
  match m.request? access leader with
  | some _ => { m with group := m.group.finish access leader (.panicked text) }
  | none => m

/-- What a landing load does next. -/
def landOn (m : Moment ι) (access : Access) (leader : ι) (key : String) : Landing → Moment ι
  | .fetched bytes =>
    -- The callers get the value whether it is kept or not.
    { m with group := m.group.count fun c => { c with peerLoads := c.peerLoads + 1 } }.setLanding
      access leader
      (if m.group.policy = RemotePolicy.populate then .keeping .peer bytes
        else .done (.value ⟨bytes⟩))
  | .rebuffed =>
    { m with group := m.group.count fun c => { c with peerErrors := c.peerErrors + 1 } }.setLanding
      access leader .turning
  | .turning =>
    { m with
      group := m.group.setFlight access ((m.group.flight access).advance leader .loading)
      landings := m.landings.erase (access, leader) }
  | .keeping origin bytes =>
    let (store, evicted) := m.group.store.insert key ⟨bytes⟩
    { m with group := { m.group with store := store } }.setLanding access leader
      (.telling origin bytes evicted)
  | .telling origin bytes (entry :: evicted) =>
    { m with group := { m.group with evicted := m.group.evicted ++ [entry] } }.setLanding access
      leader (.telling origin bytes evicted)
  | .telling .peer bytes [] => m.setLanding access leader (.done (.value ⟨bytes⟩))
  | .telling .source bytes [] =>
    { m with group := m.group.count fun c => { c with localLoads := c.localLoads + 1 } }.setLanding
      access leader (.done (.value ⟨bytes⟩))
  | .failed text =>
    { m with group := m.group.count fun c =>
        { c with localErrors := c.localErrors + 1 } }.setLanding access leader
      (.done (.failed (.source text)))
  | .done how =>
    { m with
      group := m.group.finish access leader how
      landings := m.landings.erase (access, leader) }

/-- A landing load goes on. -/
def land (m : Moment ι) (access : Access) (leader : ι) : Moment ι :=
  match m.landings.find? (access, leader), (m.group.flight access).key? leader with
  | some landing, some key => m.landOn access leader key landing
  | _, _ => m

/-! ## Runs -/

/-- One thing that happens at a moment. -/
inductive Move (ι : Type) where
  | registerPeers
  | enter (caller : ι) (access : Access) (key : String)
  | look (caller : ι)
  | start (access : Access) (leader : ι) (picked : Option String)
  | peerReply (access : Access) (leader : ι) (reply : Except CacheError (List UInt8))
  | sourceReply (access : Access) (leader : ι) (reply : Except String (List UInt8))
  | panic (access : Access) (leader : ι) (text : String)
  | land (access : Access) (leader : ι)
  | deliver (access : Access) (caller : ι)
  | abandon (access : Access) (caller : ι)

/-- What a move does; one that does not apply changes nothing. -/
def step (m : Moment ι) : Move ι → Moment ι
  | .registerPeers => { m with group := (m.group.registerPeers).toOption.getD m.group }
  | .enter caller access key => m.enter caller access key
  | .look caller => m.look caller
  | .start access leader picked => { m with group := m.group.start access leader picked }
  | .peerReply access leader reply => m.peerReply access leader reply
  | .sourceReply access leader reply => m.sourceReply access leader reply
  | .panic access leader text => m.panic access leader text
  | .land access leader => m.land access leader
  | .deliver access caller => { m with group := m.group.deliver access caller }
  | .abandon access caller => { m with group := m.group.abandon access caller }

/-- What a list of moves does, one after another. -/
def run (m : Moment ι) (moves : List (Move ι)) : Moment ι := moves.foldl step m

/-- The moves of a lookup that misses, up to its board. -/
def miss (caller : ι) (access : Access) (key : String) : List (Move ι) :=
  [.enter caller access key, .look caller, .look caller, .look caller]

end Moment

end Group

end PeerCache
