import PeerCache.Group.History
import PeerCache.Told
/-!
# PeerCache — the loads of a group

What an event does to the loads of a group, told on the state before it: which load it starts, which
one a peer fails, which one calls the source, and which one ends, and how. `ledger` has the lines of
a run in order. An event that changes nothing adds none.
-/

namespace PeerCache

namespace Group

/-- A load of a group: its way in and its leader. -/
abbrev Load (ι : Type) := Access × ι

/-- How a load ends, as far as a group counts ends. -/
inductive Closing where
  /-- A peer had the value. -/
  | peer
  /-- The source had the value. -/
  | source
  /-- The source failed. -/
  | failed
  | panicked
deriving DecidableEq, Repr

/-- What is counted at an end; a panic is not. -/
def Closing.tally (c : Counters) : Closing → Counters
  | .peer => { c with peerLoads := c.peerLoads + 1 }
  | .source => { c with localLoads := c.localLoads + 1 }
  | .failed => { c with localErrors := c.localErrors + 1 }
  | .panicked => c

variable {ι : Type}

/-- The loads in flight. -/
def inFlight (g : Group ι) : List (Load ι) :=
  [Access.routed, Access.direct].flatMap fun access =>
    (g.flight access).markers.values.map fun leader => (access, leader)

variable [DecidableEq ι]

/-- The load that is started. -/
def opens (g : Group ι) : Event ι → List (Load ι)
  | .lookup caller access key =>
    if caller ∉ g.callers ∧ key ≠ "" ∧ (g.store.get key).2 = none ∧
        (g.flight access).markers.find? key = none then [(access, caller)]
    else []
  | _ => []

/-- The load whose peer fails. -/
def rebuffs (g : Group ι) : Event ι → List (Load ι)
  | .peerReply access leader (.error _) =>
    match g.request? access leader with
    | some (.peer _ _ _) => [(access, leader)]
    | _ => []
  | _ => []

/-- The load that calls the source: when it starts and has no peer to ask, or when its peer has
failed. -/
def callsSource (g : Group ι) : Event ι → List (Load ι)
  | .start access leader picked =>
    match (g.flight access).work? leader with
    | some (.queued router) => if router ∧ picked ≠ none then [] else [(access, leader)]
    | _ => []
  | .peerReply access leader reply => g.rebuffs (.peerReply access leader reply)
  | _ => []

/-- The load that ends, and how. -/
def closes (g : Group ι) : Event ι → List (Load ι × Closing)
  | .peerReply access leader (.ok _) =>
    match g.request? access leader with
    | some (.peer _ _ _) => [((access, leader), .peer)]
    | _ => []
  | .sourceReply access leader reply =>
    match g.request? access leader, reply with
    | some (.source _), .ok _ => [((access, leader), .source)]
    | some (.source _), .error _ => [((access, leader), .failed)]
    | _, _ => []
  | .panic access leader _ =>
    match g.request? access leader with
    | some _ => [((access, leader), .panicked)]
    | none => []
  | _ => []

/-- The lines that the events of a run add, in order. -/
def ledger {β : Type} (line : Group ι → Event ι → List β) (g : Group ι)
    (events : List (Event ι)) : List β := told step line g events

end Group

end PeerCache
