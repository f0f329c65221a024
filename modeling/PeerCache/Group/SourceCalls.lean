import PeerCache.Group.Account
/-!
# PeerCache — calls of the source

A load calls the group's source when it starts and has no peer to ask, or when its peer has failed
and this has been counted. The call is in progress until the source answers or panics; by then the
load has not ended, and it may be long before it does. `callsSource` and `sourceReturns` tell of the
beginning and of the end of a call, on the moment before the move; `atSource` lists the calls in
progress.
-/

namespace PeerCache

namespace Group

namespace Moment

variable {ι : Type} [DecidableEq ι]

/-- The load that calls the source. -/
def callsSource (m : Moment ι) : Move ι → List (Load ι)
  | .start access leader picked =>
    match (m.group.flight access).work? leader with
    | some (.queued router) => if router ∧ picked ≠ none then [] else [(access, leader)]
    | _ => []
  | .land access leader =>
    match m.landings.find? (access, leader) with
    | some .turning => [(access, leader)]
    | _ => []
  | _ => []

/-- The load whose call of the source is over, by an answer or a panic. -/
def sourceReturns (m : Moment ι) : Move ι → List (Load ι)
  | .sourceReply access leader _ =>
    match m.request? access leader with
    | some (.source _) => [(access, leader)]
    | _ => []
  | .panic access leader _ =>
    match m.request? access leader with
    | some (.source _) => [(access, leader)]
    | _ => []
  | _ => []

/-- The loads whose call of the source for a key is in progress. -/
def atSource (m : Moment ι) (key : String) : List (Load ι) :=
  m.group.inFlight.filter fun load => m.request? load.1 load.2 = some (.source key)

end Moment

end Group

end PeerCache
