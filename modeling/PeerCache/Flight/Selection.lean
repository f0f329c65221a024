import PeerCache.Flight.History
/-!
# PeerCache — parts of a run of a board

Two ways to leave events out of a run, to compare what is left with the whole:

* **`patient`** — the run in which some callers keep waiting: their abandonments are left out.
* **`concerns`** — whether an event concerns a key. Every event has a party, the caller whose call,
  work or wait it is about, and the party asks for one key only, with its first call in the run. The
  events that concern a key are those of the parties that ask for no other one.

An event of somebody who never calls changes nothing and concerns every key. `SameFor` is what two
boards have in common when those who ask for one key cannot tell them apart.
-/

namespace PeerCache

namespace Flight

variable {ι σ α : Type}

/-- Whether an event is that one of these callers stops waiting. -/
def Event.isAbandonBy (who : ι → Bool) : Event ι σ α → Bool
  | .abandon caller => who caller
  | _ => false

/-- The same run, but these callers keep waiting. -/
def patient (who : ι → Bool) (events : List (Event ι σ α)) : List (Event ι σ α) :=
  events.filter fun e => !e.isAbandonBy who

/-- Whose call, work or wait an event is about. -/
def Event.party : Event ι σ α → ι
  | .call caller _ _ => caller
  | .advance leader _ => leader
  | .finish leader _ => leader
  | .deliver caller => caller
  | .abandon caller => caller

variable [DecidableEq ι]

/-- The key that an event asks for on behalf of a caller. -/
def Event.keyFor? (caller : ι) : Event ι σ α → Option String
  | .call c key _ => if c = caller then some key else none
  | _ => none

/-- The key of a caller's first call in a run. -/
def askedFor? (events : List (Event ι σ α)) (caller : ι) : Option String :=
  events.findSome? (Event.keyFor? caller)

/-- Whether a caller asks for no other key than this one. -/
def asksOnly (events : List (Event ι σ α)) (key : String) (caller : ι) : Bool :=
  (askedFor? events caller).all fun k => k = key

/-- Whether an event of a run concerns a key. -/
def concerns (events : List (Event ι σ α)) (key : String) (e : Event ι σ α) : Bool :=
  asksOnly events key e.party

/-- Two boards that are the same for the key: it is in flight on both, by the same leader, or on
none, and for everybody who asks for no other key it is the same whether they have called, how far
their own execution has come, for whom they wait and what they were answered. -/
structure SameFor (events : List (Event ι σ α)) (key : String) (f g : Flight ι σ α) : Prop where
  marker : f.markers.find? key = g.markers.find? key
  called : ∀ c, asksOnly events key c = true → (c ∈ f.callers ↔ c ∈ g.callers)
  execution : ∀ c, asksOnly events key c = true → f.execution? c = g.execution? c
  leader : ∀ c, asksOnly events key c = true → f.leaderOf? c = g.leaderOf? c
  answer : ∀ c, asksOnly events key c = true → f.answer? c = g.answer? c

end Flight

end PeerCache
