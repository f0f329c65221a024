import PeerCache.Group.Solo
import PeerCache.Proofs.Group.Loads
/-!
# PeerCache — a call alone

A call that is made while no load is in flight has the group to itself:

* **`rest_of_none`**, **`rest_of_load`** — what happens after the lookup: nothing if no load was
  started, and otherwise the load goes to the source, and its marker with it.
* **`took_call`** — the four ways in which a call can go, each with what it does to the store and to
  the count of hits. Afterwards no load is in flight again, so the next call is alone too.
-/

namespace PeerCache

namespace Flight

variable {ι σ α : Type} [DecidableEq ι]

/-- A first call for a key that is not in flight starts an execution and marks the key. -/
theorem call_new {f : Flight ι σ α} (hsound : Sound f) {c : ι} (hc : c ∉ f.callers) {key : String}
    (hmark : f.markers.find? key = none) (work : σ) :
    (f.call c key work).execution? c = some ⟨c, key, .underway work⟩ ∧
      (f.call c key work).markers = f.markers.insert key c := by
  rcases call_cases f c key work with ⟨hcalled, -⟩ | ⟨l, -, hsome, -⟩ | ⟨-, -, hnew⟩
  · exact absurd hcalled hc
  · rw [hmark] at hsome
    cases hsome
  · rw [hnew]
    have hpush := execution?_push f ⟨c, key, .underway work⟩ c
    rw [hsound.execution?_eq_none hc] at hpush
    rw [Option.none_or, if_pos rfl] at hpush
    exact ⟨hpush, rfl⟩

theorem execution?_advance {f : Flight ι σ α} {l : ι} {key : String} {v : σ}
    (hx : f.execution? l = some ⟨l, key, .underway v⟩) (w : σ) :
    (f.advance l w).execution? l = some ⟨l, key, .underway w⟩ := by
  unfold advance
  rw [work?_eq_some.2 ⟨key, hx⟩]
  exact execution?_setProgress_self hx (.underway w)

/-- An end takes the marker of its key away. -/
theorem markers_finish {f : Flight ι σ α} {l : ι} {key : String} {w : σ}
    (hx : f.execution? l = some ⟨l, key, .underway w⟩) (how : Ending α) :
    (f.finish l how).markers = f.markers.erase key := by
  simp [finish, hx]

end Flight

namespace Group

/-! ## After the lookup -/

section Rest

variable {ι : Type} [DecidableEq ι] {g : Group ι} {access : Access} {caller : ι}

/-- The events of a call that follow its lookup. -/
def rest (access : Access) (caller : ι) (reply : Except String (List UInt8)) : List (Event ι) :=
  [.start access caller none, .sourceReply access caller reply, .deliver access caller]

theorem callers_rest (g : Group ι) (access : Access) (caller : ι)
    (reply : Except String (List UInt8)) :
    (g.run (rest access caller reply)).callers = g.callers := by
  have hstart := akin_step (g := g) (e := .start access caller none) (by simp)
  have hreply := akin_step (g := g.step (.start access caller none))
    (e := .sourceReply access caller reply) (by simp)
  have hdeliver := akin_step (g := (g.step (.start access caller none)).step
    (.sourceReply access caller reply)) (e := .deliver access caller) (by simp)
  exact hdeliver.callers.trans (hreply.callers.trans hstart.callers)

/-- To pick up an answer changes neither the store nor the counters, and no marker. -/
theorem deliver_frame (g : Group ι) (access : Access) (caller : ι) :
    (g.deliver access caller).store = g.store ∧ (g.deliver access caller).counters = g.counters ∧
      ∀ a, ((g.deliver access caller).flight a).markers = (g.flight a).markers := by
  refine ⟨store_setFlight g access _, counters_setFlight g access _, fun a => ?_⟩
  show ((g.setFlight access ((g.flight access).deliver caller)).flight a).markers = _
  rw [flight_setFlight]
  split
  next h => rw [← h, Flight.markers_deliver]
  next => rfl

/-- A caller that leads no load: nothing happens. -/
theorem rest_of_none (hwork : (g.flight access).work? caller = none)
    (reply : Except String (List UInt8)) :
    (g.run (rest access caller reply)).store = g.store ∧
      (g.run (rest access caller reply)).counters = g.counters ∧
      ∀ a, ((g.run (rest access caller reply)).flight a).markers = (g.flight a).markers := by
  have hstart : g.start access caller none = g := by
    rcases g.start_cases access caller none with ⟨-, h⟩ | ⟨router, hqueued, -⟩
    · exact h
    · simp [hwork] at hqueued
  have hreply : g.sourceReply access caller reply = g := by
    rcases g.sourceReply_cases access caller reply with
      ⟨-, h⟩ | ⟨key, bytes, hreq, -, -⟩ | ⟨key, text, hreq, -, -⟩
    · exact h
    · simp [request?_eq_source, hwork] at hreq
    · simp [request?_eq_source, hwork] at hreq
  have hrun : g.run (rest access caller reply) = g.deliver access caller := by
    show ((g.start access caller none).sourceReply access caller reply).deliver access caller = _
    rw [hstart, hreply]
  rw [hrun]
  exact deliver_frame g access caller

/-- What the source's answer to a load does to the store. -/
def afterReply (s : Store) (key : String) : Except String (List UInt8) → Store
  | .ok bytes => (s.insert key ⟨bytes⟩).1
  | .error _ => s

/-- A new load goes to the source. -/
theorem start_of_load {key : String} {router : Bool}
    (hload : (g.flight access).execution? caller =
      some ⟨caller, key, .underway (.queued router)⟩) :
    (g.start access caller none).store = g.store ∧
      (g.start access caller none).counters = g.counters ∧
      ((g.start access caller none).flight access).execution? caller =
        some ⟨caller, key, .underway .loading⟩ ∧
      ∀ a, ((g.start access caller none).flight a).markers = (g.flight a).markers := by
  have hwork : (g.flight access).work? caller = some (.queued router) :=
    Flight.work?_eq_some.2 ⟨key, hload⟩
  have hstart : g.start access caller none =
      g.setFlight access ((g.flight access).advance caller .loading) := by
    rcases g.start_cases access caller none with ⟨hno, -⟩ | ⟨router', -, h⟩
    · exact absurd hwork (hno router)
    · rw [h]
      cases router' <;> rfl
  rw [hstart]
  refine ⟨store_setFlight g access _, counters_setFlight g access _, ?_, fun a => ?_⟩
  · rw [flight_setFlight_self]
    exact Flight.execution?_advance hload .loading
  · rw [flight_setFlight]
    split
    next h => rw [← h, Flight.markers_advance]
    next => rfl

/-- The answer of the source ends a load, and its marker goes. -/
theorem reply_of_load {key : String}
    (hload : (g.flight access).execution? caller = some ⟨caller, key, .underway .loading⟩)
    (reply : Except String (List UInt8)) :
    (g.sourceReply access caller reply).store = afterReply g.store key reply ∧
      (g.sourceReply access caller reply).counters.hits = g.counters.hits ∧
      ∀ a, ((g.sourceReply access caller reply).flight a).markers =
        if a = access then (g.flight a).markers.erase key else (g.flight a).markers := by
  have hreq : g.request? access caller = some (.source key) :=
    request?_eq_source.2 ⟨Flight.work?_eq_some.2 ⟨key, hload⟩, by simp [Flight.key?, hload]⟩
  -- However the load ends, its marker goes; what is kept and counted is told apart below.
  have hended : ∀ (h : Group ι) (how : Ending ByteView), (∀ a, h.flight a = g.flight a) →
      ∀ a, ((h.setFlight access ((g.flight access).finish caller how)).flight a).markers =
        if a = access then (g.flight a).markers.erase key else (g.flight a).markers := by
    intro h how hsame a
    rw [flight_setFlight]
    by_cases ha : access = a
    · subst ha
      rw [if_pos rfl, if_pos rfl, Flight.markers_finish hload]
    · rw [if_neg ha, if_neg fun heq => ha heq.symm, hsame]
  rcases g.sourceReply_cases access caller reply with
    ⟨hno, -⟩ | ⟨key', bytes, hreq', rfl, h⟩ | ⟨key', text, hreq', rfl, h⟩
  · exact absurd hreq (hno key)
  · obtain rfl : key = key' := by simpa [hreq] using hreq'
    rw [h]
    refine ⟨?_, ?_, hended _ _ fun a => ?_⟩
    · rw [store_setFlight]
      rfl
    · rw [counters_setFlight]
      rfl
    · rw [flight_count, flight_keep]
  · rw [h]
    refine ⟨?_, ?_, hended _ _ fun a => ?_⟩
    · rw [store_setFlight]
      rfl
    · rw [counters_setFlight]
      rfl
    · rw [flight_count]

/-- A caller that leads a new load: the load asks the source, and ends. -/
theorem rest_of_load {key : String} {router : Bool}
    (hload : (g.flight access).execution? caller =
      some ⟨caller, key, .underway (.queued router)⟩)
    (reply : Except String (List UInt8)) :
    (g.run (rest access caller reply)).store = afterReply g.store key reply ∧
      (g.run (rest access caller reply)).counters.hits = g.counters.hits ∧
      ∀ a, ((g.run (rest access caller reply)).flight a).markers =
        if a = access then (g.flight a).markers.erase key else (g.flight a).markers := by
  obtain ⟨hstore, hcounters, hasks, hmarkers⟩ := start_of_load hload
  obtain ⟨hstore', hhits, hmarkers'⟩ := reply_of_load hasks reply
  obtain ⟨hstore'', hcounters'', hmarkers''⟩ := deliver_frame
    ((g.start access caller none).sourceReply access caller reply) access caller
  have hrun : g.run (rest access caller reply) =
    ((g.start access caller none).sourceReply access caller reply).deliver access caller := rfl
  refine ⟨?_, ?_, fun a => ?_⟩
  · rw [hrun, hstore'', hstore', hstore]
  · rw [hrun, hcounters'', hhits, hcounters]
  · rw [hrun, hmarkers'', hmarkers', hmarkers]

end Rest

/-! ## The whole call -/

/-- No load is in flight, and the next caller is new. -/
structure Idle (g : Group Nat) (next : Nat) : Prop where
  seated : g.Seated
  sound : ∀ access, Flight.Sound (g.flight access)
  quiet : ∀ access key, (g.flight access).markers.find? key = none
  called : ∀ c ∈ g.callers, c < next

/-- How a call goes that is made alone. -/
inductive Took (source : Source) (c : Call) (g h : Group Nat) : Prop where
  | refused (hkey : c.key = "") (hstore : h.store = g.store)
      (hhits : h.counters.hits = g.counters.hits)
  | hit (value : ByteView) (hkey : c.key ≠ "") (hget : (g.store.get c.key).2 = some value)
      (hstore : h.store = (g.store.get c.key).1) (hhits : h.counters.hits = g.counters.hits + 1)
  | missed (hkey : c.key ≠ "") (hget : (g.store.get c.key).2 = none)
      (hstore : h.store = afterReply (g.store.get c.key).1 c.key (source c.key))
      (hhits : h.counters.hits = g.counters.hits)

theorem run_events (g : Group Nat) (source : Source) (c : Call) (next : Nat) :
    g.run (c.events source next) =
      (g.lookup next c.access c.key).run (rest c.access next (source c.key)) := rfl

theorem Idle.notMem_callers {g : Group Nat} {next : Nat} (hg : g.Idle next) (access : Access) :
    next ∉ (g.flight access).callers :=
  fun hmem => Nat.lt_irrefl next (hg.called next (hg.seated.called access next hmem))

/-- After the call all that is left of being idle are the markers. -/
theorem Idle.call {g : Group Nat} {next : Nat} (hg : g.Idle next) {source : Source} {c : Call}
    (hquiet : ∀ access key,
      ((g.run (c.events source next)).flight access).markers.find? key = none) :
    (g.run (c.events source next)).Idle (next + 1) := by
  refine ⟨hg.seated.run _, sound_flight_run hg.sound _, hquiet, fun x hx => ?_⟩
  rw [run_events, callers_rest] at hx
  rcases mem_callers_lookup hx with hold | rfl
  · exact Nat.lt_succ_of_lt (hg.called x hold)
  · exact Nat.lt_succ_self x

/-- A lookup that leaves the boards alone is the whole call. -/
theorem Idle.call_of_lookup {g : Group Nat} {next : Nat} (hg : g.Idle next) {source : Source}
    {c : Call} (hflight : ∀ a, (g.lookup next c.access c.key).flight a = g.flight a) :
    (g.run (c.events source next)).Idle (next + 1) ∧
      (g.run (c.events source next)).store = (g.lookup next c.access c.key).store ∧
      (g.run (c.events source next)).counters = (g.lookup next c.access c.key).counters := by
  have hnone : ((g.lookup next c.access c.key).flight c.access).work? next = none := by
    rw [hflight]
    simp [Flight.work?, (hg.sound c.access).execution?_eq_none (hg.notMem_callers c.access)]
  obtain ⟨hstore, hcounters, hmarkers⟩ := rest_of_none hnone (source c.key)
  refine ⟨hg.call fun a key => ?_, hstore, hcounters⟩
  rw [run_events, hmarkers, hflight]
  exact hg.quiet a key

/-- The step lemma: a call of an idle group goes as a call that is made alone, and leaves the group
idle. -/
theorem took_call {g : Group Nat} {next : Nat} (hg : g.Idle next) (source : Source) (c : Call) :
    (g.run (c.events source next)).Idle (next + 1) ∧
      Took source c g (g.run (c.events source next)) := by
  rcases g.lookup_cases next c.access c.key with
    ⟨hcalled, -⟩ | ⟨-, hkey, h⟩ | ⟨value, -, hkey, hget, h⟩ | ⟨-, hkey, hget, h⟩
  · exact absurd (hg.called next hcalled) (Nat.lt_irrefl next)
  · obtain ⟨hdone, hstore, hcounters⟩ := hg.call_of_lookup fun a => by
      rw [h]
      exact flight_eq_of_fields rfl rfl a
    exact ⟨hdone, .refused hkey (by rw [hstore, h]) (by rw [hcounters, h])⟩
  · obtain ⟨hdone, hstore, hcounters⟩ := hg.call_of_lookup fun a => by
      rw [h]
      exact flight_eq_of_fields rfl rfl a
    exact ⟨hdone, .hit value hkey hget (by rw [hstore, h]) (by rw [hcounters, h])⟩
  -- A miss in an idle group: the call starts its own load, and nobody else is there.
  · obtain ⟨hload, hmarkers⟩ := Flight.call_new (hg.sound c.access) (hg.notMem_callers c.access)
      (hg.quiet c.access c.key) (.queued (decide (c.access = Access.routed) && g.hasRouter))
    have hlookup : ((g.lookup next c.access c.key).flight c.access).execution? next =
        some ⟨next, c.key,
          .underway (.queued (decide (c.access = Access.routed) && g.hasRouter))⟩ := by
      rw [h, flight_setFlight_self]
      exact hload
    obtain ⟨hstore, hhits, hmarkers'⟩ := rest_of_load hlookup (source c.key)
    refine ⟨hg.call fun a key => ?_, .missed hkey hget ?_ ?_⟩
    · -- the marker that the lookup set is the one that the load takes away
      rw [run_events, hmarkers']
      by_cases ha : a = c.access
      · subst ha
        rw [if_pos rfl, h, flight_setFlight_self, hmarkers, Table.find?_erase, Table.find?_insert,
          hg.quiet]
        simp
      · rw [if_neg ha, h, flight_setFlight_of_ne _ ha]
        exact hg.quiet a key
    · rw [run_events, hstore, h, store_setFlight]
    · rw [run_events, hhits, h, counters_setFlight]

end Group

end PeerCache
