import PeerCache.Group.Loads
/-!
# PeerCache — a call that runs alone

A call has a group to itself if nothing happens from its lookup to its answer but what it brings
about: the load that it waits for goes on, and the caller picks up the answer. These events are its
*own*. `Aside` is what they leave alone in any case, and `Failure` is what such a call leaves behind
if the answer is an error: the trace of it in the counters, and nothing else.
-/

namespace PeerCache

namespace Group

variable {ι : Type}

/-- The event is about the load of `leader` on one way in, or hands its outcome to `caller`. -/
def Event.IsOwn (access : Access) (leader caller : ι) : Event ι → Prop
  | .start a l _ => a = access ∧ l = leader
  | .peerReply a l _ => a = access ∧ l = leader
  | .sourceReply a l _ => a = access ∧ l = leader
  | .panic a l _ => a = access ∧ l = leader
  | .deliver a c => a = access ∧ c = caller
  | _ => False

/-- The event fails the load of `leader`: how this ends it, and as what it is counted. -/
inductive Event.Fails (access : Access) (leader : ι) : Event ι → Ending ByteView → Closing →
    Prop where
  | source (text : String) :
    Fails access leader (.sourceReply access leader (.error text)) (.failed (.source text)) .failed
  | panic (text : String) :
    Fails access leader (.panic access leader text) (.panicked text) .panicked

/-- What the events of a call on one way in leave alone: how the group was set up, and the other way
in. -/
structure Aside (access : Access) (g h : Group ι) : Prop where
  name : h.name = g.name
  policy : h.policy = g.policy
  router : h.hasRouter = g.hasRouter
  other : ∀ a, a ≠ access → h.flight a = g.flight a

variable [DecidableEq ι]

/-- What a call of `caller` for `key` leaves behind, of which `events` are all that has happened and
which was answered with the error `e`. -/
structure Failure (g : Group ι) (caller : ι) (access : Access) (key : String)
    (events : List (Event ι)) (e : CacheError) : Prop where
  /-- The store is the same: its entries and their order, their cost, and that it has not been used
  if it had not. -/
  store : (g.run events).store = g.store
  /-- The eviction hook has been told of nothing. -/
  evicted : (g.run events).evicted = g.evicted
  /-- The keys in flight are those of before. -/
  markers : ∀ a, ((g.run events).flight a).markers = (g.flight a).markers
  /-- An empty key is refused, and nothing is counted. -/
  refused : key = "" → e = keyRequired ∧ (g.run events).counters = g.counters
  /-- Any other key is a get, and what failed on the way is counted. -/
  counted : key ≠ "" → (g.run events).counters = { g.counters with
    gets := g.counters.gets + 1
    peerErrors := g.counters.peerErrors +
      if (access, caller) ∈ ledger rebuffs g events then 1 else 0
    localErrors := g.counters.localErrors +
      if ((access, caller), .failed) ∈ ledger closes g events then 1 else 0 }
  /-- The load was the caller's own; it was ended once, by the event that the error tells of. -/
  ended : key ≠ "" → ∃ event ∈ events, ∃ how closing, event.Fails access caller how closing ∧
    ledger closes g events = [((access, caller), closing)] ∧ .error e = how.outcome
  /-- To the caller, all failures of a load are failures of the source. -/
  source : key ≠ "" → ∃ text, e = .source text
  /-- The next caller starts a load again. -/
  again : key ≠ "" → ∀ next a, next ∉ (g.run events).callers →
    (g.flight a).markers.find? key = none →
    (g.run events).opens (.lookup next a key) = [(a, next)] ∧
    ∃ router, (((g.run events).lookup next a key).flight a).work? next = some (.queued router)

end Group

end PeerCache
