import PeerCache.Flight.History
import PeerCache.Group.Basic
/-!
# PeerCache — what a group asks for outside

A load that has started and not ended waits for an answer from outside: of a peer, which is asked
for the group's name and the key, or of the group's own source, which is asked for the key. This is
its `Request`. A `Supply` is a request that was answered with a value; `supplied` lists those of a
run in order.
-/

namespace PeerCache

namespace Group

/-- What a load asks for. -/
inductive Request where
  | peer (address group key : String)
  | source (key : String)
deriving DecidableEq, Repr

/-- The key that is asked for. -/
def Request.key : Request → String
  | .peer _ _ key => key
  | .source key => key

/-- Whether a peer is asked. -/
def Request.isRemote : Request → Bool
  | .peer _ _ _ => true
  | .source _ => false

/-- A load's request and the bytes that answered it. -/
structure Supply (ι : Type) where
  access : Access
  leader : ι
  request : Request
  bytes : List UInt8
deriving DecidableEq, Repr

variable {ι : Type} [DecidableEq ι]

/-- What a load waits for outside, if it does. -/
def request? (g : Group ι) (access : Access) (leader : ι) : Option Request :=
  match (g.flight access).work? leader, (g.flight access).key? leader with
  | some (.asking peer), some key => some (.peer peer g.name key)
  | some .loading, some key => some (.source key)
  | _, _ => none

/-- The supply that an event brings, if it brings one. -/
def supplies (g : Group ι) : Event ι → List (Supply ι)
  | .peerReply access leader (.ok bytes) =>
    match g.request? access leader with
    | some (.peer address group key) => [⟨access, leader, .peer address group key, bytes⟩]
    | _ => []
  | .sourceReply access leader (.ok bytes) =>
    match g.request? access leader with
    | some (.source key) => [⟨access, leader, .source key, bytes⟩]
    | _ => []
  | _ => []

/-- The supplies of a run, in order. -/
def supplied (g : Group ι) : List (Event ι) → List (Supply ι)
  | [] => []
  | e :: es => g.supplies e ++ (g.step e).supplied es

end Group

end PeerCache
