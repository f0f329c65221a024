import PeerCache.Group.Moment
/-!
# PeerCache — the account of a group

The counters of a group are numbers. Its `Account` says what they are numbers of: which callers were
refused, which joined a load that was in flight, which loads were started, which of these were
failed by a peer, which have been counted and as what, and which have ended. Each line is told of
one move, on the moment before it; a move that changes nothing adds none.

A load is counted some time before it ends: a value that a peer has sent is counted before it is put
into the store, so the load is still in flight while the hook is told of what it evicts. In between
it is in flight and counted, which is why `Balanced` has the loads in flight that are `uncounted`
stand beside the counters. In the same way a lookup is counted as a get before it is known to be a
hit. `AtRest` nothing is in between, and a load that is in flight has not been counted.
-/

namespace PeerCache

namespace Group

namespace Moment

variable {ι : Type}

/-- The lines that a group's counters stand for, each list in the order of the moves. -/
structure Account (ι : Type) where
  /-- The callers that were refused because their key is empty. -/
  refused : List ι := []
  /-- The callers that joined a load in flight. -/
  joined : List ι := []
  /-- The loads that were started. -/
  opened : List (Load ι) := []
  /-- The loads that a peer has failed. -/
  rebuffed : List (Load ι) := []
  /-- The loads that have been counted, and as what. One that panics is counted as nothing. -/
  counted : List (Load ι × Closing) := []
  /-- The loads that have ended. -/
  ended : List (Load ι) := []

variable [DecidableEq ι]

/-- What a load has come to has been counted. -/
def IsCounted (m : Moment ι) (load : Load ι) : Prop :=
  ∃ landing, m.landings.find? load = some landing ∧ landing.isCounted = true

instance (m : Moment ι) (load : Load ι) : Decidable (m.IsCounted load) :=
  decidable_of_iff ((m.landings.find? load).any Landing.isCounted = true)
    (by
      unfold IsCounted
      cases m.landings.find? load with
      | none => simp
      | some landing => simp)

/-- The loads in flight of which nothing has been counted that they come to. -/
def uncounted (m : Moment ι) : List (Load ι) :=
  m.group.inFlight.filter fun load => ¬ m.IsCounted load

/-- The number of loads whose peer has failed and that have not counted this yet. -/
def unheard (m : Moment ι) : Nat := m.landings.values.count .rebuffed

/-- Nothing is on its way. -/
def AtRest (m : Moment ι) : Prop := m.visits.size = 0 ∧ m.landings.size = 0

instance (m : Moment ι) : Decidable m.AtRest := inferInstanceAs (Decidable (_ ∧ _))

/-! ## The lines -/

/-- The caller that is refused because its key is empty. -/
def refuses (m : Moment ι) : Move ι → List ι
  | .enter caller _ key => if caller ∉ m.group.callers ∧ key = "" then [caller] else []
  | _ => []

/-- The caller that joins a load in flight. -/
def joins (m : Moment ι) : Move ι → List ι
  | .look caller =>
    match m.visits.find? caller with
    | some ⟨access, key, .ready _⟩ =>
      if (m.group.flight access).markers.find? key = none then [] else [caller]
    | _ => []
  | _ => []

/-- The load that is started. -/
def opens (m : Moment ι) : Move ι → List (Load ι)
  | .look caller =>
    match m.visits.find? caller with
    | some ⟨access, key, .ready _⟩ =>
      if (m.group.flight access).markers.find? key = none then [(access, caller)] else []
    | _ => []
  | _ => []

/-- The load whose peer fails. -/
def rebuffs (m : Moment ι) : Move ι → List (Load ι)
  | .peerReply access leader (.error _) =>
    match m.request? access leader with
    | some (.peer _ _ _) => [(access, leader)]
    | _ => []
  | _ => []

/-- The load that is counted, and as what. -/
def counts (m : Moment ι) : Move ι → List (Load ι × Closing)
  | .land access leader =>
    match m.landings.find? (access, leader) with
    | some landing => landing.counts.toList.map fun closing => ((access, leader), closing)
    | none => []
  | .panic access leader _ =>
    match m.request? access leader with
    | some _ => [((access, leader), .panicked)]
    | none => []
  | _ => []

/-- The load that ends. -/
def ends (m : Moment ι) : Move ι → List (Load ι)
  | .land access leader =>
    match m.landings.find? (access, leader) with
    | some (.done _) => [(access, leader)]
    | _ => []
  | .panic access leader _ =>
    match m.request? access leader with
    | some _ => [(access, leader)]
    | none => []
  | _ => []

/-- The account of a run. -/
def account (m : Moment ι) (moves : List (Move ι)) : Account ι where
  refused := told step refuses m moves
  joined := told step joins m moves
  opened := told step opens m moves
  rebuffed := told step rebuffs m moves
  counted := told step counts m moves
  ended := told step ends m moves

/-! ## The balance -/

/-- The counters at a moment that a group has come to from its making by what the account tells. -/
structure Balanced (a : Account ι) (m : Moment ι) : Prop where
  /-- A caller counts as a get unless it is refused. -/
  callers : m.group.callers.length = m.group.counters.gets + a.refused.length
  /-- A get is a hit, a caller that joined, a load that was started, or a lookup on its way. -/
  gets : m.group.counters.gets =
    m.group.counters.hits + a.joined.length + a.opened.length + m.visits.size
  /-- A load is started once. -/
  once : a.opened.Nodup
  /-- A load is in flight from its start to its one end. -/
  loads : a.opened.Perm (a.ended ++ m.group.inFlight)
  /-- The loads in flight are those that have work left. -/
  inFlight : ∀ access leader, (access, leader) ∈ m.group.inFlight ↔
    ∃ phase, (m.group.flight access).work? leader = some phase
  /-- A load is counted once; it is in flight until then, and for some time after that. -/
  counted : a.opened.Perm (a.counted.map Prod.fst ++ m.uncounted)
  /-- A load that has ended has been counted. -/
  ended : a.ended ⊆ a.counted.map Prod.fst
  peerLoads : m.group.counters.peerLoads = (a.counted.map Prod.snd).count .peer
  localLoads : m.group.counters.localLoads = (a.counted.map Prod.snd).count .source
  localErrors : m.group.counters.localErrors = (a.counted.map Prod.snd).count .failed
  opened : a.opened.length = m.uncounted.length + m.group.counters.peerLoads +
    m.group.counters.localLoads + m.group.counters.localErrors +
    (a.counted.map Prod.snd).count .panicked
  peerErrors : a.rebuffed.length = m.group.counters.peerErrors + m.unheard
  /-- A load is failed by a peer once at most. -/
  rebuffed : a.rebuffed.Nodup ∧ a.rebuffed ⊆ a.opened

/-- The counters of a group in which nothing is on its way. -/
structure BalancedAtRest (a : Account ι) (g : Group ι) : Prop where
  gets : g.counters.gets = g.counters.hits + a.joined.length + a.opened.length
  opened : a.opened.length = g.inFlight.length + g.counters.peerLoads + g.counters.localLoads +
    g.counters.localErrors + (a.counted.map Prod.snd).count .panicked
  peerErrors : g.counters.peerErrors = a.rebuffed.length

/-- Everybody who has called has been answered. -/
def Settled (m : Moment ι) : Prop :=
  ∀ c ∈ m.group.callers, ∃ access o, m.group.answer? access c = some o

instance (m : Moment ι) : Decidable m.Settled :=
  decidable_of_iff (∀ c ∈ m.group.callers,
      (m.group.answer? .routed c).isSome = true ∨ (m.group.answer? .direct c).isSome = true)
    (by
      refine forall_congr' fun c => imp_congr_right fun _ => ?_
      simp only [Option.isSome_iff_exists]
      constructor
      · rintro (h | h)
        · exact ⟨.routed, h⟩
        · exact ⟨.direct, h⟩
      · rintro ⟨access, h⟩
        cases access with
        | routed => exact Or.inl h
        | direct => exact Or.inr h)

/-- Nobody looks anything up before all earlier callers have been answered. -/
def OneAtATime (m : Moment ι) (moves : List (Move ι)) : Prop :=
  ∀ before caller access key after, moves = before ++ .enter caller access key :: after →
    (m.run before).Settled

end Moment

end Group

end PeerCache
