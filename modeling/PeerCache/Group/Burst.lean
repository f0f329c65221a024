import PeerCache.Group.Loads
import PeerCache.Group.Solo
/-!
# PeerCache — calls made together

Many callers at once: each looks its key up, and joins a load or starts one, before any load goes
on. What comes of them can be told from the group as it was before the first of them. A call
`Needs` a load if its key is not held and no load for it is in flight on its way in; the loads that
are started are as many as there are different calls that need one. `Burst` says so, and what the
callers are answered and what is counted.
-/

namespace PeerCache

namespace Group

variable {ι : Type}

/-- The key has an entry in the store. -/
def Stores (g : Group ι) (key : String) : Prop := key ∈ g.store.entries.map Prod.fst

instance (g : Group ι) (key : String) : Decidable (g.Stores key) :=
  inferInstanceAs (Decidable (key ∈ g.store.entries.map Prod.fst))

/-- A load of the call's key is in flight on the call's way in. -/
def Underway (g : Group ι) (call : Call) : Prop :=
  ((g.flight call.access).markers.find? call.key).isSome = true

instance (g : Group ι) (call : Call) : Decidable (g.Underway call) :=
  inferInstanceAs (Decidable (_ = true))

/-- The call has a key, which is not held and not being loaded on its way in. -/
def Needs (g : Group ι) (call : Call) : Prop :=
  call.key ≠ "" ∧ ¬ g.Stores call.key ∧ ¬ g.Underway call

instance (g : Group ι) (call : Call) : Decidable (g.Needs call) :=
  inferInstanceAs (Decidable (_ ∧ _))

/-- The lookups of calls that are made together, each by a caller of its own. -/
def together (calls : List (ι × Call)) : List (Event ι) :=
  calls.map fun c => .lookup c.1 c.2.access c.2.key

variable [DecidableEq ι]

/-- What becomes of calls that are made together. -/
structure Burst (g : Group ι) (calls : List (ι × Call)) : Prop where
  /-- One load is started for each call that needs one, however many callers make it. -/
  loads : (ledger opens g (together calls)).length =
    ((calls.map Prod.snd).filter fun c => g.Needs c).dedup.length
  /-- A load that is started ends once; as long as it is in flight it has not ended. -/
  runs : ∀ later, ∀ load ∈ ledger opens g (together calls),
    ((ledger closes g (together calls ++ later)).map Prod.fst).count load =
      if load ∈ (g.run (together calls ++ later)).inFlight then 0 else 1
  /-- A caller counts as a hit if its key was held. -/
  hits : (g.run (together calls)).counters.hits =
    g.counters.hits + calls.countP fun c => g.Stores c.2.key
  /-- A caller counts as a get if it has a key. -/
  gets : (g.run (together calls)).counters.gets =
    g.counters.gets + calls.countP fun c => c.2.key ≠ ""
  /-- Whoever makes the same call gets the same outcome, whatever happens afterwards. -/
  same : ∀ later caller₁ caller₂ call o₁ o₂, (caller₁, call) ∈ calls → (caller₂, call) ∈ calls →
    (g.run (together calls ++ later)).answer? call.access caller₁ = some o₁ →
    (g.run (together calls ++ later)).answer? call.access caller₂ = some o₂ → o₁ = o₂
  /-- Whoever keeps waiting can pick up an outcome when no load is in flight any more. -/
  answered : ∀ later caller call, (caller, call) ∈ calls →
    .abandon call.access caller ∉ later →
    (g.run (together calls ++ later)).inFlight = [] →
    ∃ o, ((g.run (together calls ++ later)).deliver call.access caller).answer? call.access
      caller = some o
  /-- None of the three numbers depends on the order of the calls. -/
  order : ∀ others : List (ι × Call), others.Perm calls →
    (ledger opens g (together others)).length = (ledger opens g (together calls)).length ∧
    (g.run (together others)).counters.hits = (g.run (together calls)).counters.hits ∧
    (g.run (together others)).counters.gets = (g.run (together calls)).counters.gets

end Group

end PeerCache
