import PeerCache.Group.ReadThrough
import PeerCache.Proofs.Group.Direct
import PeerCache.Proofs.Group.Failure
import PeerCache.Proofs.Group.Loads
/-!
# PeerCache — calls without the help of a peer

A call that no peer helps comes to what `readThrough` says, on either way in:

* a call that is answered at once leads no load, so its own events change nothing (`still_of_idle`);
* a call that misses leads a load. **`Stage`** says how far it has come: it is underway and nothing
  was kept yet, or the source has ended it. `Stage.step` is one event and `stage_run` all of them.

**`trace_of_unaided`** puts the two together. The way in is left in the failures of peers only, and
a direct call has none.
-/

namespace PeerCache

namespace Group

variable {ι : Type} [DecidableEq ι]

/-! ## What `readThrough` says -/

omit [DecidableEq ι] in
/-- Without a key there is nothing to look up: nothing is counted. -/
theorem readThrough_empty (g : Group ι) (source : String → SourceAct) :
    g.readThrough source "" = ⟨some (.error keyRequired), g.store, g.evicted, [], g.counters⟩ := rfl

omit [DecidableEq ι] in
/-- What the store has is the answer, and the source is not asked. -/
theorem readThrough_hit {g : Group ι} (source : String → SourceAct) {key : String} (hkey : key ≠ "")
    {value : ByteView} (hget : (g.store.get key).2 = some value) :
    g.readThrough source key = ⟨some (.ok value), (g.store.get key).1, g.evicted, [],
      { g.counters with gets := g.counters.gets + 1, hits := g.counters.hits + 1 }⟩ := by
  unfold readThrough
  rw [if_neg hkey]
  generalize g.store.get key = got at hget
  obtain ⟨store, found⟩ := got
  cases hget
  rfl

omit [DecidableEq ι] in
/-- What the store does not have is asked of the source, whose answer is kept if it is a value. -/
theorem readThrough_miss {g : Group ι} (source : String → SourceAct) {key : String}
    (hkey : key ≠ "")
    (hget : (g.store.get key).2 = none) :
    g.readThrough source key = ⟨some (source key).ending.outcome,
      ((source key).keep (g.store.get key).1 key).1,
      g.evicted ++ ((source key).keep (g.store.get key).1 key).2, [key],
      (source key).closing.tally { g.counters with gets := g.counters.gets + 1 }⟩ := by
  unfold readThrough
  rw [if_neg hkey]
  generalize g.store.get key = got at hget
  obtain ⟨store, found⟩ := got
  cases hget
  rfl

theorem Trace.rebuffed_zero (t : Trace) : t.rebuffed 0 = t := rfl

/-! ## A call that is answered at once -/

/-- Of the own events of a call, only those of its load call the source. -/
theorem eq_of_mem_callsSource {g : Group ι} {access : Access} {leader caller : ι} {e : Event ι}
    (hown : e.IsOwn access leader caller) {load : Load ι} (h : load ∈ g.callsSource e) :
    load = (access, leader) := by
  rcases work?_of_callsSource h with ⟨picked, rfl, -⟩ | hrebuffed
  · exact Prod.ext hown.1 hown.2
  · obtain ⟨error, address, group, key, rfl, -⟩ := mem_rebuffs hrebuffed
    exact Prod.ext hown.1 hown.2

/-- Where a caller leads no load, its own events change nothing and ask nobody. -/
theorem still_of_idle {g : Group ι} {access : Access} {leader caller : ι} {own : List (Event ι)}
    (hidle : (g.flight access).work? leader = none)
    (hown : ∀ e ∈ own, e.IsOwn access leader caller) :
    Fruitless g (g.run own) [] [] ∧ ledger rebuffs g own = [] ∧ ledger asks g own = [] := by
  -- the load that there is not does not come to be
  have hcourse : ∀ {events : List (Event ι)}, (∀ e ∈ events, e.IsOwn access leader caller) →
      Fruitless g (g.run events) [] [] ∧ ledger rebuffs g events = [] ∧
        ((g.run events).flight access).work? leader = none := by
    intro events hevents
    have hcourse : Course g access leader events := course_run hevents
    cases hcourse with
    | gained value markers work => simp [hidle] at work
    | failed how closing event mem fails fruitless closes markers work => simp [hidle] at work
    | on fruitless closes rebuffs markers work =>
      rw [rebuffs hidle] at fruitless
      refine ⟨fruitless, rebuffs hidle, ?_⟩
      rw [hidle] at work
      exact Option.isNone_iff_eq_none.1 (Option.isSome_eq_false_iff.1 work)
  refine ⟨(hcourse hown).1, (hcourse hown).2.1, List.eq_nil_iff_forall_not_mem.2 fun key hmem => ?_⟩
  obtain ⟨before, e, after, rfl, hasks⟩ := exists_of_mem_ledger hmem
  obtain ⟨load, hcalls, -⟩ := List.mem_filterMap.1 hasks
  have hload : load = (access, leader) :=
    eq_of_mem_callsSource (hown e (List.mem_append_right _ List.mem_cons_self)) hcalls
  obtain ⟨phase, hwork⟩ := callsSource_work? hcalls
  rw [hload] at hwork
  have hnone := (hcourse fun e' he' => hown e' (List.mem_append_left _ he')).2.2
  cases hnone.symm.trans hwork

/-! ## A call that misses -/

/-- How far a call that missed has come from group `g`, as its lookup left it, to group `h`. -/
inductive Stage (g h : Group ι) (access : Access) (caller : ι) (key : String) (act : SourceAct)
    (rebuffed : List (Load ι)) (asked : List String) : Prop where
  /-- The source has not answered; it has been called if the load waits for it. -/
  | underway (phase : Phase) (work : (h.flight access).work? caller = some phase)
    (fruitless : Fruitless g h rebuffed [])
    (calls : asked = if phase = .loading then [key] else [])
  /-- The source has ended the load. -/
  | ended (ending : (h.flight access).ending? caller = some act.ending)
    (store : h.store = (act.keep g.store key).1)
    (evicted : h.evicted = g.evicted ++ (act.keep g.store key).2)
    (counters : h.counters = act.closing.tally
      { g.counters with peerErrors := g.counters.peerErrors + rebuffed.length })
    (calls : asked = [key])

section Step

variable {g h : Group ι} {access : Access} {caller : ι} {key : String} {act : SourceAct}
  {rebuffed : List (Load ι)} {asked : List String} {e : Event ι}

/-- While the load of a call is underway, it has kept nothing, and has asked the source exactly if
it is with it. -/
theorem Stage.live (hstage : Stage g h access caller key act rebuffed asked) {phase : Phase}
    (hwork : (h.flight access).work? caller = some phase) :
    Fruitless g h rebuffed [] ∧ asked = if phase = .loading then [key] else [] := by
  cases hstage with
  | underway phase' work fruitless calls =>
    cases hwork.symm.trans work
    exact ⟨fruitless, calls⟩
  | ended ending => cases hwork.symm.trans (Flight.work?_of_ending? ending)

theorem asks_of_nil (hcalls : h.callsSource e = []) : h.asks e = [] := by
  unfold asks
  rw [hcalls]
  rfl

/-- An event that does not apply. -/
theorem Stage.idle (hstage : Stage g h access caller key act rebuffed asked) (hstep : h.step e = h)
    (hrebuffs : h.rebuffs e = []) (hcalls : h.callsSource e = []) :
    Stage g (h.step e) access caller key act (rebuffed ++ h.rebuffs e) (asked ++ h.asks e) := by
  rwa [hstep, hrebuffs, asks_of_nil hcalls, List.append_nil, List.append_nil]

/-- A caller that picks its outcome up leaves the load at its stage. -/
theorem Stage.deliver (hstage : Stage g h access caller key act rebuffed asked) (c : ι) :
    Stage g (h.deliver access c) access caller key act rebuffed asked := by
  have hflight : (h.deliver access c).flight access = (h.flight access).deliver c :=
    flight_setFlight_self h access _
  have hsame := Flight.sameWork_deliver (h.flight access) c
  have hfruitless : Fruitless h (h.deliver access c) [] [] := fruitless_setFlight h access _
  cases hstage with
  | underway phase work fruitless calls =>
    refine .underway phase ?_ ?_ calls
    · rw [hflight, hsame.work?]
      exact work
    · have htrans := fruitless.trans hfruitless
      rwa [List.append_nil] at htrans
  | ended ending store evicted counters calls =>
    refine .ended ?_ (hfruitless.store.trans store) (hfruitless.evicted.trans evicted)
      (hfruitless.counters.trans counters) calls
    rw [hflight, hsame.ending?]
    exact ending

/-- The source ends a load that waits for it. -/
theorem Stage.ends (hstage : Stage g h access caller key act rebuffed asked) {k : Group ι}
    (hwork : (h.flight access).work? caller = some .loading)
    (hstep : h.step e = k.setFlight access ((h.flight access).finish caller act.ending))
    (hstore : k.store = (act.keep h.store key).1)
    (hevicted : k.evicted = h.evicted ++ (act.keep h.store key).2)
    (hcounters : k.counters = act.closing.tally h.counters)
    (hrebuffs : h.rebuffs e = []) (hcalls : h.callsSource e = []) :
    Stage g (h.step e) access caller key act (rebuffed ++ h.rebuffs e) (asked ++ h.asks e) := by
  -- Up to here the load has left nothing behind: what it ends with is all there is.
  obtain ⟨fruitless, rfl⟩ := hstage.live hwork
  rw [hrebuffs, asks_of_nil hcalls, List.append_nil, List.append_nil, hstep]
  have hboard := fruitless_setFlight k access ((h.flight access).finish caller act.ending)
  refine .ended ?_ ?_ ?_ ?_ (if_pos rfl)
  · rw [flight_setFlight_self]
    exact Flight.ending?_finish hwork act.ending
  · rw [hboard.store, hstore, fruitless.store]
  · rw [hboard.evicted, hevicted, fruitless.evicted, fruitless.store]
  · rw [counters_setFlight, hcounters, fruitless.counters]
    rfl

/-- A load that goes on asks the source exactly if that is where it goes. -/
theorem asks_start {router : Bool} (picked : Option String)
    (hqueued : (h.flight access).work? caller = some (.queued router))
    (hkey : (h.flight access).key? caller = some key) :
    h.asks (.start access caller picked) =
      if firstPhase router picked = .loading then [key] else [] := by
  cases router <;> cases picked <;> simp [asks, callsSource, hqueued, firstPhase, hkey]

/-- One event of a call that no peer helps. -/
theorem Stage.step (hstage : Stage g h access caller key act rebuffed asked)
    (hkey : (h.flight access).key? caller = some key) (hown : e.IsOwn access caller caller)
    (hpeer : h.endedByPeer e = []) (hact : ∀ x ∈ h.sourceActs e, x.2 = act) :
    Stage g (h.step e) access caller key act (rebuffed ++ h.rebuffs e) (asked ++ h.asks e) := by
  -- A start keeps the load on its way, a failure of the peer turns it, and what the source does
  -- ends it.
  cases e with
  | registerPeers => exact hown.elim
  | lookup c a k => exact hown.elim
  | abandon a c => exact hown.elim
  | deliver a c =>
    obtain ⟨rfl, rfl⟩ := hown
    have hafter := hstage.deliver c
    rw [← List.append_nil rebuffed, ← List.append_nil asked] at hafter
    exact hafter
  | start a l picked =>
    obtain ⟨rfl, rfl⟩ := hown
    rcases h.start_cases a l picked with ⟨hno, hstep⟩ | ⟨router, hqueued, hstep⟩
    · refine hstage.idle hstep rfl ?_
      simp only [callsSource]
    · obtain ⟨fruitless, rfl⟩ := hstage.live hqueued
      have hstep : h.step (.start a l picked) = _ := hstep
      rw [hstep, asks_start picked hqueued hkey]
      refine .underway (firstPhase router picked) ?_ ?_ rfl
      · rw [flight_setFlight_self, Flight.work?_advance hqueued]
      · exact fruitless.trans (fruitless_setFlight h a _)
  | peerReply a l reply =>
    obtain ⟨rfl, rfl⟩ := hown
    rcases h.peerReply_cases a l reply with
      ⟨hno, hstep⟩ | ⟨address, k, bytes, hreq, rfl, -⟩ | ⟨address, k, error, hreq, rfl, hstep⟩
    · have hrebuffs := (peerReply_silent hno reply).1
      exact hstage.idle hstep hrebuffs hrebuffs
    · simp [endedByPeer, hreq] at hpeer
    · have hwork := (request?_eq_peer.1 hreq).1
      obtain ⟨fruitless, rfl⟩ := hstage.live hwork
      have hrebuffs : h.rebuffs (.peerReply a l (.error error)) = [(a, l)] := by
        simp only [rebuffs, hreq]
      have hasks : h.asks (.peerReply a l (.error error)) = [key] := by
        simp [asks, callsSource, hrebuffs, hkey]
      have hstep : h.step (.peerReply a l (.error error)) = _ := hstep
      rw [hstep, hrebuffs, hasks]
      refine .underway .loading ?_ ?_ rfl
      · rw [flight_setFlight_self, Flight.work?_advance hwork]
      · have hcount : Fruitless h (h.count fun c => { c with peerErrors := c.peerErrors + 1 })
            [(a, l)] [] := ⟨rfl, rfl, rfl⟩
        have htrans := (fruitless.trans hcount).trans (fruitless_setFlight _ a
          ((h.flight a).advance l .loading))
        rwa [List.append_nil (rebuffed ++ [(a, l)])] at htrans
  | sourceReply a l reply =>
    obtain ⟨rfl, rfl⟩ := hown
    have hsame : ∀ {k}, h.request? a l = some (.source k) → key = k ∧ act = .reply reply := by
      intro k hreq
      have hacts : h.sourceActs (.sourceReply a l reply) = [(k, .reply reply)] := by
        simp only [sourceActs, hreq]
      refine ⟨Option.some.inj (hkey.symm.trans (request?_eq_source.1 hreq).2), ?_⟩
      rw [hacts] at hact
      exact (hact _ List.mem_cons_self).symm
    rcases h.sourceReply_cases a l reply with
      ⟨-, hstep⟩ | ⟨k, bytes, hreq, rfl, hstep⟩ | ⟨k, text, hreq, rfl, hstep⟩
    · exact hstage.idle hstep rfl rfl
    · obtain ⟨rfl, rfl⟩ := hsame hreq
      exact hstage.ends (request?_eq_source.1 hreq).1 hstep rfl rfl rfl rfl rfl
    · obtain ⟨rfl, rfl⟩ := hsame hreq
      exact hstage.ends (request?_eq_source.1 hreq).1 hstep rfl (List.append_nil _).symm
          rfl rfl rfl
  | panic a l text =>
    obtain ⟨rfl, rfl⟩ := hown
    rcases h.panic_cases a l text with ⟨-, hstep⟩ | ⟨request, hreq, hstep⟩
    · exact hstage.idle hstep rfl rfl
    · cases request with
      | peer address group k => simp [endedByPeer, hreq] at hpeer
      | source k =>
        obtain rfl : .panic text = act := hact (k, .panic text) (by simp [sourceActs, hreq])
        exact hstage.ends (request?_eq_source.1 hreq).1 hstep rfl (List.append_nil _).symm
          rfl rfl rfl

/-- All events of a call that no peer helps. -/
theorem stage_run {events : List (Event ι)}
    (hstage : Stage g h access caller key act rebuffed asked)
    (hkey : (h.flight access).key? caller = some key)
    (hown : ∀ e ∈ events, e.IsOwn access caller caller) (hpeers : ledger endedByPeer h events = [])
    (hacts : ∀ x ∈ ledger sourceActs h events, x.2 = act) :
    Stage g (h.run events) access caller key act (rebuffed ++ ledger rebuffs h events)
      (asked ++ ledger asks h events) := by
  induction events generalizing h rebuffed asked with
  | nil =>
    have hsame := hstage
    rw [← List.append_nil rebuffed, ← List.append_nil asked] at hsame
    exact hsame
  | cons e es ih =>
    obtain ⟨hpeer, hpeers⟩ := List.append_eq_nil_iff.1 hpeers
    obtain ⟨hact, hacts⟩ := List.forall_mem_append.1 hacts
    have hfirst := hstage.step hkey (hown e List.mem_cons_self) hpeer hact
    have hall := ih hfirst ((h.later_flight_step access e).key? hkey)
      (fun e' he' => hown e' (List.mem_cons_of_mem e he')) hpeers hacts
    rw [List.append_assoc, List.append_assoc] at hall
    exact hall

end Step

/-! ## The whole call -/

/-- What the source does is an answer or a panic, where it was asked. -/
theorem mem_sourceActs {g : Group ι} {e : Event ι} {x : String × SourceAct}
    (h : x ∈ g.sourceActs e) : ∃ access leader, e = x.2.event access leader ∧
      g.request? access leader = some (.source x.1) := by
  unfold sourceActs at h
  split at h
  next access leader reply =>
    split at h
    next key hreq =>
      cases List.mem_singleton.1 h
      exact ⟨access, leader, rfl, hreq⟩
    next => cases h
  next access leader text =>
    split at h
    next key hreq =>
      cases List.mem_singleton.1 h
      exact ⟨access, leader, rfl, hreq⟩
    next => cases h
  next => cases h

omit [DecidableEq ι] in
theorem eq_of_event_eq {access a : Access} {leader l : ι} {act act' : SourceAct}
    (h : act.event access leader = act'.event a l) : access = a ∧ leader = l ∧ act = act' := by
  cases act <;> cases act' <;> cases h <;> exact ⟨rfl, rfl, rfl⟩

omit [DecidableEq ι] in
/-- What the source does for a load is own to the call that leads it. -/
theorem isOwn_event {access a : Access} {leader caller l : ι} {act : SourceAct} :
    (act.event a l : Event ι).IsOwn access leader caller ↔ a = access ∧ l = leader := by
  cases act <;> rfl

/-- In the own events of a call the source answers for the key of the call. -/
theorem fst_of_mem_acts {g : Group ι} {access : Access} {leader caller : ι} {key : String}
    {own : List (Event ι)} (hkey : (g.flight access).key? leader = some key)
    (hown : ∀ e ∈ own, e.IsOwn access leader caller) {x : String × SourceAct}
    (hx : x ∈ ledger sourceActs g own) : x.1 = key := by
  obtain ⟨before, e, after, rfl, hmem⟩ := exists_of_mem_ledger hx
  obtain ⟨a, l, rfl, hreq⟩ := mem_sourceActs hmem
  obtain ⟨rfl, rfl⟩ := isOwn_event.1 (hown _ (List.mem_append_right _ List.mem_cons_self))
  have hfor := (request?_eq_source.1 hreq).2
  exact Option.some.inj (hfor.symm.trans ((later_flight_run g a before).key? hkey))

section Call

variable {g : Group ι} (hg : g.Unused) {before : List (Event ι)} {caller : ι}
  (hnew : caller ∉ (g.run before).callers) {access : Access} {key : String}
  {source : String → SourceAct} {own : List (Event ι)}
  (hcall : (g.run before).Unaided source access caller key own)

include hg hnew hcall

/-- A call that is answered at once comes to what reading through does. -/
theorem trace_of_atOnce {o : Outcome ByteView}
    (honce : (g.run before).atOnce? ⟨access, key⟩ = some o) :
    (g.run before).trace access caller (.lookup caller access key :: own) =
        (g.run before).readThrough source key ∧
      ledger rebuffs (g.run before) (.lookup caller access key :: own) = [] := by
  let call : Call := ⟨access, key⟩
  have hk := ready_run hg before
  have hboards : ∀ a, ((g.run before).lookup caller call.access call.key).flight a =
      (g.run before).flight a := (lookup_at_once hnew honce).2
  -- The caller leads nothing, so what is its own afterwards does nothing.
  have hidle : (((g.run before).lookup caller access key).flight access).work? caller = none := by
    have hexecution := (hk.boards access).execution?_eq_none (hk.seated.not_on_board hnew access)
    rw [show ((g.run before).lookup caller access key).flight access = _ from hboards access]
    unfold Flight.work?
    rw [hexecution]
  obtain ⟨hstill, hrebuffs, hasks⟩ := still_of_idle hidle hcall.alone
  have hanswer := answer?_of_atOnce? hk hnew honce own
  have htrace : (g.run before).trace access caller (.lookup caller access key :: own) =
      ⟨some o, ((g.run before).lookup caller access key).store,
        ((g.run before).lookup caller access key).evicted, [],
        ((g.run before).lookup caller access key).counters⟩ :=
    Trace.ext hanswer hstill.store hstill.evicted hasks hstill.counters
  refine ⟨htrace.trans ?_, hrebuffs⟩
  rcases (g.run before).lookup_cases caller access key with
    ⟨hcalled, -⟩ | ⟨-, rfl, h⟩ | ⟨value, -, hkey, hget, h⟩ | ⟨-, hkey, hget, -⟩
  · exact absurd hcalled hnew
  · cases honce
    rw [h, readThrough_empty]
  · rw [atOnce?_of_ne hkey, hget] at honce
    cases honce
    rw [h, readThrough_hit source hkey hget]
  · rw [atOnce?_of_ne hkey, hget] at honce
    cases honce

/-- A call that misses: its load is at some stage all along, and has ended when the call is
answered. -/
theorem trace_of_missed (hquiet : ((g.run before).flight access).markers.find? key = none)
    (hkey : key ≠ "") (hget : ((g.run before).store.get key).2 = none) :
    (g.run before).trace access caller (.lookup caller access key :: own) =
      ((g.run before).readThrough source key).rebuffed
        (ledger rebuffs (g.run before) (.lookup caller access key :: own)).length := by
  have hk := ready_run hg before
  have hmissed := missed_lookup hk hnew hkey hget hquiet
  obtain ⟨router, hqueued⟩ := hmissed.queued
  have hfirst : Stage ((g.run before).lookup caller access key)
      ((g.run before).lookup caller access key) access caller key (source key) [] [] :=
    .underway (.queued router) hqueued (.refl _) rfl
  have hacts : ∀ x ∈ ledger sourceActs ((g.run before).lookup caller access key) own,
      x.2 = source key := by
    intro x hx
    rw [← fst_of_mem_acts hmissed.key hcall.alone hx]
    exact hcall.acts x hx
  have hstage := stage_run hfirst hmissed.key hcall.alone hcall.peers hacts
  obtain ⟨o, ho⟩ := hcall.answered
  have hwait := hmissed.waits
  have hlookup : (g.run before).lookup caller access key =
      g.run (before ++ [.lookup caller access key]) := run_lookup g before [] caller access key
  -- The call was answered, so the load that it waited for has ended.
  have hend : ∃ how, ((((g.run before).lookup caller access key).run own).flight access).ending?
      caller = some how ∧ o = how.outcome := by
    have ho : (((g.run before).lookup caller access key).run own).answer? access caller = some o :=
      ho
    rw [hlookup] at hwait
    rw [hlookup, ← run_append] at ho ⊢
    exact ending_of_answer hg hwait ho
  obtain ⟨how, hend, rfl⟩ := hend
  cases hstage with
  | underway phase work => cases work.symm.trans (Flight.work?_of_ending? hend)
  | ended ending store evicted counters calls =>
    cases ending.symm.trans hend
    rw [readThrough_miss source hkey hget, hk.store.get_of_miss hget]
    rw [hmissed.store] at store
    rw [hmissed.evicted, hmissed.store] at evicted
    rw [hmissed.counters] at counters
    refine Trace.ext ho store evicted calls (counters.trans ?_)
    cases source key with
    | panic text => rfl
    | reply r => cases r <;> rfl

/-- **A call without the help of a peer** comes to what it would if there were only the store and
the source; what is left of the peers is the count of their failures. -/
theorem trace_of_unaided (hquiet : ((g.run before).flight access).markers.find? key = none) :
    (g.run before).trace access caller (.lookup caller access key :: own) =
      ((g.run before).readThrough source key).rebuffed
        (ledger rebuffs (g.run before) (.lookup caller access key :: own)).length := by
  cases honce : (g.run before).atOnce? ⟨access, key⟩ with
  | some o =>
    obtain ⟨htrace, hrebuffs⟩ := trace_of_atOnce hg hnew hcall honce
    rw [htrace, hrebuffs]
    rfl
  | none =>
    have hkey : key ≠ "" := ((atOnce?_eq_none_iff (ready_run hg before).store).1 honce).1
    rw [atOnce?_of_ne hkey, Option.map_eq_none_iff] at honce
    exact trace_of_missed hg hnew hcall hquiet hkey honce

end Call

/-! ## The failures of peers -/

/-- Only a load of a routed lookup is failed by a peer. -/
theorem routed_of_mem_rebuffed {g : Group ι} (hg : g.Unused) {before events : List (Event ι)}
    {load : Load ι} (h : load ∈ ledger rebuffs (g.run before) events) : load.1 = .routed := by
  obtain ⟨front, e, after, rfl, hmem⟩ := exists_of_mem_ledger h
  obtain ⟨error, address, group, key, rfl, hreq⟩ := mem_rebuffs hmem
  obtain ⟨access, leader⟩ := load
  cases access with
  | routed => rfl
  | direct =>
    rw [← run_append] at hreq
    cases (fed_run hg.fed (before ++ front)).staysLocal.isRemote hreq

/-- A call counts one failure of a peer if its load was failed by one, and else none. -/
theorem length_rebuffed {g : Group ι} {access : Access} {caller : ι} {key : String}
    {own : List (Event ι)} (hown : ∀ e ∈ own, e.IsOwn access caller caller) :
    (ledger rebuffs g (.lookup caller access key :: own)).length =
      if (access, caller) ∈ ledger rebuffs g (.lookup caller access key :: own) then 1 else 0 := by
  have hsame : ledger rebuffs g (.lookup caller access key :: own) =
      ledger rebuffs (g.lookup caller access key) own := rfl
  rw [hsame]
  exact length_eq_ite (rebuffed_nodup _ own) fun load h => eq_of_mem_rebuffed hown h

/-! ## When the peer fails -/

/-- What the load of a new caller is at after its lookup. -/
theorem work?_lookup {g : Group ι} (hg : g.Ready) {caller : ι} (hnew : caller ∉ g.callers)
    {access : Access} {key : String} (hquiet : (g.flight access).markers.find? key = none) :
    ((g.lookup caller access key).flight access).work? caller =
      if key ≠ "" ∧ (g.store.get key).2 = none then
        some (.queued (decide (access = .routed) && g.hasRouter))
      else none := by
  have hboard := hg.seated.not_on_board hnew access
  -- A caller not seen before has no work, and gets some only from a lookup that misses.
  have hidle : (g.flight access).work? caller = none := by
    unfold Flight.work?
    rw [(hg.boards access).execution?_eq_none hboard]
  rcases g.lookup_cases caller access key with
    ⟨hcalled, -⟩ | ⟨-, hkey, h⟩ | ⟨value, -, hkey, hget, h⟩ | ⟨-, hkey, hget, h⟩
  · exact absurd hcalled hnew
  · rw [h, if_neg fun hif => hif.1 hkey, ← hidle]
    exact congrArg (Flight.work? · caller) (flight_eq_of_fields rfl rfl access)
  · rw [h, if_neg fun hif => Option.some_ne_none value (hget.symm.trans hif.2),
      ← hidle]
    exact congrArg (Flight.work? · caller) (flight_eq_of_fields rfl rfl access)
  · obtain ⟨hload, -⟩ := Flight.call_new (hg.boards access) hboard hquiet
      (.queued (decide (access = .routed) && g.hasRouter))
    rw [h, if_pos ⟨hkey, hget⟩, flight_setFlight_self]
    exact Flight.work?_eq_some.2 ⟨key, hload⟩

/-- A queued load that goes on is in its first phase. -/
theorem work?_start {g : Group ι} {access : Access} {leader : ι} {router : Bool}
    (hqueued : (g.flight access).work? leader = some (.queued router)) (picked : Option String) :
    ((g.start access leader picked).flight access).work? leader =
      some (firstPhase router picked) := by
  rcases g.start_cases access leader picked with ⟨hno, -⟩ | ⟨router', hqueued', h⟩
  · exact absurd hqueued (hno router)
  · cases hqueued.symm.trans hqueued'
    rw [h, flight_setFlight_self, Flight.work?_advance hqueued]

theorem start_of_idle {g : Group ι} {access : Access} {leader : ι}
    (hidle : (g.flight access).work? leader = none) (picked : Option String) :
    g.start access leader picked = g := by
  rcases g.start_cases access leader picked with ⟨-, h⟩ | ⟨router, hqueued, -⟩
  · exact h
  · cases hidle.symm.trans hqueued

/-- A load that has started, and whose peer has failed if it has one, waits for the source. -/
theorem work?_turned {g : Group ι} {access : Access} {leader : ι} {router : Bool}
    (hqueued : (g.flight access).work? leader = some (.queued router)) (picked : Option String)
    (error : CacheError) :
    (((g.start access leader picked).peerReply access leader (.error error)).flight access).work?
      leader = some .loading := by
  have hstarted := work?_start hqueued picked
  generalize g.start access leader picked = h at hstarted
  rcases h.peerReply_cases access leader (.error error) with
    ⟨hno, hreply⟩ | ⟨address, key, bytes, -, heq, -⟩ | ⟨address, key, e, hreq, -, hreply⟩
  · rw [hreply, hstarted]
    cases hphase : firstPhase router picked with
    | loading => rfl
    | queued router' => cases router <;> cases picked <;> cases hphase
    | asking peer =>
      rw [hphase] at hstarted
      obtain ⟨key, hkey⟩ := key?_of_work? hstarted
      exact absurd (request?_eq_peer.2 ⟨hstarted, hkey, rfl⟩) (hno _ _ _)
  · cases heq
  · rw [hreply, flight_setFlight_self, Flight.work?_advance (request?_eq_peer.1 hreq).1]

/-- Without a load no peer is asked. -/
theorem peerReply_of_idle {g : Group ι} {access : Access} {leader : ι}
    (hidle : (g.flight access).work? leader = none) (reply : Except CacheError (List UInt8)) :
    g.peerReply access leader reply = g := by
  rcases g.peerReply_cases access leader reply with
    ⟨-, h⟩ | ⟨address, key, bytes, hreq, -, -⟩ | ⟨address, key, e, hreq, -, -⟩
  · exact h
  · cases hidle.symm.trans (request?_eq_peer.1 hreq).1
  · cases hidle.symm.trans (request?_eq_peer.1 hreq).1

/-- What the source does ends a load that waits for it. -/
theorem work?_event {g : Group ι} {access : Access} {leader : ι}
    (hwork : (g.flight access).work? leader = some .loading) (act : SourceAct) :
    ((g.step (act.event access leader)).flight access).work? leader = none := by
  obtain ⟨key, hkey⟩ := key?_of_work? hwork
  have hreq : g.request? access leader = some (.source key) := request?_eq_source.2 ⟨hwork, hkey⟩
  have hended : ∀ {h : Group ι} {how}, g.step (act.event access leader) =
      h.setFlight access ((g.flight access).finish leader how) →
      ((g.step (act.event access leader)).flight access).work? leader = none := by
    intro h how hstep
    rw [hstep, flight_setFlight_self]
    exact Flight.work?_of_ending? (Flight.ending?_finish hwork how)
  cases act with
  | panic text =>
    rcases g.panic_cases access leader text with ⟨hno, -⟩ | ⟨request, -, h⟩
    · cases hreq.symm.trans hno
    · exact hended h
  | reply reply =>
    rcases g.sourceReply_cases access leader reply with
      ⟨hno, -⟩ | ⟨k, bytes, -, -, h⟩ | ⟨k, text, -, -, h⟩
    · exact absurd hreq (hno key)
    · exact hended h
    · exact hended h

section Fallback

variable {g : Group ι} (hg : g.Unused) {before : List (Event ι)} {caller : ι}
  (hnew : caller ∉ (g.run before).callers) {access : Access} {key : String}
  (hquiet : ((g.run before).flight access).markers.find? key = none)

include hg hnew hquiet

/-- Once the peer of a load has failed, the load waits for the source if it waits for anybody. -/
theorem request?_turned (picked : Option String) (error : CacheError) {request : Request}
    (hreq : ((((g.run before).lookup caller access key).start access caller picked).peerReply access
      caller (.error error)).request? access caller = some request) : request = .source key := by
  have hk := ready_run hg before
  have hlookup := work?_lookup hk hnew hquiet
  by_cases hmiss : key ≠ "" ∧ ((g.run before).store.get key).2 = none
  · rw [if_pos hmiss] at hlookup
    have hwork := work?_turned hlookup picked error
    have hfor := (missed_lookup hk hnew hmiss.1 hmiss.2 hquiet).key
    have hkey := (later_flight_run ((g.run before).lookup caller access key) access
      [.start access caller picked, .peerReply access caller (.error error)]).key? hfor
    exact Option.some.inj (hreq.symm.trans (request?_eq_source.2 ⟨hwork, hkey⟩))
  · rw [if_neg hmiss] at hlookup
    rw [start_of_idle hlookup, peerReply_of_idle hlookup] at hreq
    obtain ⟨phase, hwork⟩ := work?_of_request? hreq
    cases hlookup.symm.trans hwork

/-- A call whose peer fails is one that no peer helps, and it is answered. -/
theorem unaided_fallback (source : String → SourceAct) (picked : Option String)
    (error : CacheError) : (g.run before).Unaided source access caller key
      (fallback (source key) picked error access caller) := by
  have hk := ready_run hg before
  have hrequest : ∀ {request}, _ → request = _ :=
    fun h => request?_turned hg hnew hquiet picked error h
  constructor
  case alone =>
    intro e he
    simp only [fallback, List.mem_cons, List.not_mem_nil, or_false] at he
    rcases he with rfl | rfl | rfl | rfl
    · exact ⟨rfl, rfl⟩
    · exact ⟨rfl, rfl⟩
    · exact isOwn_event.2 ⟨rfl, rfl⟩
    · exact ⟨rfl, rfl⟩
  case peers =>
    show endedByPeer _ ((source key).event access caller) ++ [] = []
    rw [List.append_nil]
    -- The third event of the four is the source's; of these only a panic can end a load at a peer,
    -- and by now the load is not at one.
    cases source key with
    | reply r => cases r <;> rfl
    | panic text =>
      simp only [SourceAct.event, endedByPeer]
      split
      next hreq => cases hrequest hreq
      next => rfl
  case acts =>
    intro x hx
    have hx : x ∈ sourceActs _ ((source key).event access caller) ++ [] := hx
    rw [List.append_nil] at hx
    obtain ⟨a, l, hevent, hreq⟩ := mem_sourceActs hx
    obtain ⟨rfl, rfl, hact⟩ := eq_of_event_eq hevent
    cases hrequest hreq
    exact hact.symm
  case answered =>
    cases honce : (g.run before).atOnce? ⟨access, key⟩ with
    -- Without a load the lookup has answered already, and what follows cannot change the answer.
    | some o => exact ⟨o, answer?_of_atOnce? hk hnew honce _⟩
    | none =>
      -- With one, `front` ends the execution, so the caller's own pick-up finds the outcome.
      have hkey : key ≠ "" := ((atOnce?_eq_none_iff hk.store).1 honce).1
      have hget : ((g.run before).store.get key).2 = none := by
        rwa [atOnce?_of_ne hkey, Option.map_eq_none_iff] at honce
      have hqueued := work?_lookup hk hnew hquiet
      rw [if_pos ⟨hkey, hget⟩] at hqueued
      have hended := work?_event (work?_turned hqueued picked error) (source key)
      let front : List (Event ι) := [.start access caller picked,
        .peerReply access caller (.error error), (source key).event access caller]
      have hboards := sound_flight_run hk.boards [.lookup caller access key]
      have hsound := sound_flight_run hboards front
      have hwaits : .abandon access caller ∉ front := by
        cases hact : source key <;> simp [front, hact, SourceAct.event]
      refine exists_answer?_deliver (hsound access) (fun hmem => ?_)
        (waits_or_answered_run hboards (Or.inl (missed_lookup hk hnew hkey hget hquiet).waits)
          hwaits)
      obtain ⟨phase, hwork⟩ := (inFlight_iff_work? (hsound access) caller).1 hmem
      cases hended.symm.trans hwork

/-- Whether the peer fails the call: there is a router, it picks somebody, and the call misses. -/
theorem rebuffed_fallback (act : SourceAct) (picked : Option String) (error : CacheError) :
    (access, caller) ∈ ledger rebuffs (g.run before)
        (.lookup caller access key :: fallback act picked error access caller) ↔
      access = .routed ∧ (g.run before).hasRouter = true ∧ picked ≠ none ∧ key ≠ "" ∧
        ((g.run before).store.get key).2 = none := by
  have hlookup := work?_lookup (ready_run hg before) hnew hquiet
  have hledger : ledger rebuffs (g.run before)
      (.lookup caller access key :: fallback act picked error access caller) =
      (((g.run before).lookup caller access key).start access caller picked).rebuffs
        (.peerReply access caller (.error error)) := by
    cases act with
    | reply r => exact List.append_nil _
    | panic text => exact List.append_nil _
  -- A load is turned away exactly if the pick sent it to a peer at all.
  have hmem : (access, caller) ∈ (((g.run before).lookup caller access key).start access caller
      picked).rebuffs (.peerReply access caller (.error error)) ↔
      ∃ peer, ((((g.run before).lookup caller access key).start access caller picked).flight
        access).work? caller = some (.asking peer) := by
    constructor
    · intro h
      obtain ⟨_, peer, _, _, -, hreq⟩ := mem_rebuffs h
      exact ⟨peer, (request?_eq_peer.1 hreq).1⟩
    · rintro ⟨peer, hwork⟩
      obtain ⟨k, hkey⟩ := key?_of_work? hwork
      have hreq := request?_eq_peer.2 ⟨hwork, hkey, rfl⟩
      simp [rebuffs, hreq]
  rw [hledger, hmem]
  -- And the first phase of a missed lookup says when that happens.
  by_cases hmiss : key ≠ "" ∧ ((g.run before).store.get key).2 = none
  · rw [if_pos hmiss] at hlookup
    rw [work?_start hlookup]
    simp only [Option.some.injEq, firstPhase_eq_asking, Bool.and_eq_true, decide_eq_true_eq,
      exists_and_left, ← Option.ne_none_iff_exists', and_assoc]
    exact ⟨fun h => ⟨h.1, h.2.1, h.2.2, hmiss⟩, fun h => ⟨h.1, h.2.1, h.2.2.1⟩⟩
  · rw [if_neg hmiss] at hlookup
    rw [start_of_idle hlookup, hlookup]
    refine iff_of_false ?_ fun h => hmiss h.2.2.2
    rintro ⟨peer, ⟨⟩⟩

end Fallback

/-! ## Both ways in -/

/-- **A routed call without a peer is a direct call.** Take a group that any run has led to, in
which no load is in flight, a caller that has not called, any key, and a source that does for each
key what `source` says. A routed call that is answered and that no peer has helped comes to the same
answer, store, evictions and calls of the source as a direct call that is answered; and to the same
counters, but that the failure of its peer is counted, if one has failed it. There are such calls:
whoever is picked, if somebody is, may fail with any error, and the call is answered. A peer has
then failed the call exactly if it is routed, the group has a router, the router picks somebody, and
the key is neither empty nor held. -/
theorem routed_as_direct (name : String) (cacheBytes : Nat) (policy : RemotePolicy)
    (before : List (Event ι)) (caller : ι) (key : String) (source : String → SourceAct)
    (hquiet : ((new name cacheBytes policy : Group ι).run before).inFlight = [])
    (hnew : caller ∉ ((new name cacheBytes policy).run before).callers) :
    (∀ routed direct,
      ((new name cacheBytes policy).run before).Unaided source .routed caller key routed →
      ((new name cacheBytes policy).run before).Unaided source .direct caller key direct →
      ((new name cacheBytes policy).run before).trace .routed caller
          (.lookup caller .routed key :: routed) =
        (((new name cacheBytes policy).run before).trace .direct caller
          (.lookup caller .direct key :: direct)).rebuffed
          (if (.routed, caller) ∈ ledger rebuffs ((new name cacheBytes policy).run before)
            (.lookup caller .routed key :: routed) then 1 else 0)) ∧
    ∀ access picked error,
      ((new name cacheBytes policy).run before).Unaided source access caller key
        (fallback (source key) picked error access caller) ∧
      ((access, caller) ∈ ledger rebuffs ((new name cacheBytes policy).run before)
          (.lookup caller access key :: fallback (source key) picked error access caller) ↔
        access = .routed ∧ ((new name cacheBytes policy : Group ι).run before).hasRouter = true ∧
          picked ≠ none ∧ key ≠ "" ∧
          (((new name cacheBytes policy : Group ι).run before).store.get key).2 = none) := by
  have hunused : (new name cacheBytes policy : Group ι).Unused :=
    unused_new name cacheBytes policy false
  have hmarker : ∀ access, (((new name cacheBytes policy).run before).flight access).markers.find?
      key = none := by
    -- With no load in flight no marker is set: it would be a load's.
    intro access
    cases hmark : (((new name cacheBytes policy).run before).flight access).markers.find? key with
    | none => rfl
    | some leader =>
      obtain ⟨phase, hx⟩ := (((ready_run hunused before).boards access).marked key leader).1 hmark
      have hload := (inFlight_iff_work? ((ready_run hunused before).boards access) leader).2
        ⟨phase, Flight.work?_eq_some.2 ⟨key, hx⟩⟩
      rw [hquiet] at hload
      cases hload
  refine ⟨fun routed direct hrouted hdirect => ?_, fun access picked error => ⟨?_, ?_⟩⟩
  · -- The direct way in has no peer to be turned away by, so its trace is the plain one.
    have hnone : (.direct, caller) ∉ ledger rebuffs ((new name cacheBytes policy).run before)
        (.lookup caller .direct key :: direct) :=
      fun h => Access.noConfusion (routed_of_mem_rebuffed hunused h)
    have htrace := trace_of_unaided hunused hnew hdirect (hmarker .direct)
    rw [length_rebuffed hdirect.alone, if_neg hnone, Trace.rebuffed_zero] at htrace
    rw [htrace, trace_of_unaided hunused hnew hrouted (hmarker .routed),
      length_rebuffed hrouted.alone]
  · exact unaided_fallback hunused hnew (hmarker access) source picked error
  · exact rebuffed_fallback hunused hnew (hmarker access) (source key) picked error

/-- A group with a router, whose store is filled by the value for one key. -/
def filledRouter : Group Nat :=
  run (new "g" 4 .populate) [.registerPeers, .lookup 0 .direct "a", .start .direct 0 none,
    .sourceReply .direct 0 (.ok [1, 2, 3]), .deliver .direct 0]

/-- The peer fails, and the value that the source has instead evicts the other one. -/
theorem routed_as_direct_evicting :
    filledRouter.inFlight = [] ∧ 1 ∉ filledRouter.callers ∧
    filledRouter.trace .routed 1 (.lookup 1 .routed "b" ::
        fallback (.reply (.ok [4, 5])) (some "p") (.peer "down") .routed 1) =
      (filledRouter.trace .direct 1 (.lookup 1 .direct "b" ::
        fallback (.reply (.ok [4, 5])) none (.peer "down") .direct 1)).rebuffed 1 ∧
    (filledRouter.trace .direct 1 (.lookup 1 .direct "b" ::
        fallback (.reply (.ok [4, 5])) none (.peer "down") .direct 1)).evicted =
      [("a", ⟨[1, 2, 3]⟩)] := by
  have hquiet : filledRouter.inFlight = [] := by decide +kernel
  have hnew : 1 ∉ filledRouter.callers := by decide +kernel
  obtain ⟨hsame, hfallback⟩ := routed_as_direct "g" 4 .populate
    [.registerPeers, .lookup 0 .direct "a", .start .direct 0 none,
      .sourceReply .direct 0 (.ok [1, 2, 3]), .deliver .direct 0] 1 "b"
    (fun _ => .reply (.ok [4, 5])) hquiet hnew
  obtain ⟨hrouted, hrebuffed⟩ := hfallback .routed (some "p") (.peer "down")
  obtain ⟨hdirect, -⟩ := hfallback .direct none (.peer "down")
  have hfails := hrebuffed.2 (by decide +kernel)
  have htrace := hsame _ _ hrouted hdirect
  rw [if_pos hfails] at htrace
  exact ⟨hquiet, hnew, htrace, by decide +kernel⟩

end Group

end PeerCache
