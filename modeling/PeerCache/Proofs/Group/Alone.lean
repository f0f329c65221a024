import PeerCache.Group.Alone
import PeerCache.Proofs.Flight.Callers
import PeerCache.Proofs.Group.Solo
/-!
# PeerCache — the course of a load

As long as nothing but a load itself goes on, it goes one of three ways:

* it has not ended, or there is none, and of all that is kept nothing has changed;
* it has failed, and its marker is gone;
* it has a value.

**`Course`** says so of any number of events, **`course_step`** of one, and **`course_run`** puts
them together. What was counted up to there is told by the lines of the account.
-/

namespace PeerCache

namespace Flight

variable {ι σ α : Type} [DecidableEq ι]

/-- An execution that is ended has this end. -/
theorem ending?_finish {f : Flight ι σ α} {l : ι} {w : σ} (hwork : f.work? l = some w)
    (how : Ending α) : (f.finish l how).ending? l = some how := by
  obtain ⟨key, hx⟩ := work?_eq_some.1 hwork
  refine ending?_eq_some.2 ⟨key, ?_⟩
  unfold finish
  rw [hx]
  exact execution?_setProgress_self hx (.ended how)

theorem work?_of_ending? {f : Flight ι σ α} {l : ι} {how : Ending α} (h : f.ending? l = some how) :
    f.work? l = none := by
  obtain ⟨key, hx⟩ := ending?_eq_some.1 h
  unfold work?
  rw [hx]

/-- What has ended and goes on as before did not go on. -/
theorem work?_eq_none_of_ending? {f f' : Flight ι σ α} {l : ι} {how : Ending α}
    (hwork : (f'.work? l).isSome = (f.work? l).isSome) (hend : f'.ending? l = some how) :
    f.work? l = none := by
  rw [work?_of_ending? hend] at hwork
  exact Option.isNone_iff_eq_none.1 (Option.isSome_eq_false_iff.1 hwork.symm)

end Flight

namespace Group

variable {ι : Type}

/-- From one state of a group to a later one nothing was kept, and only failures were counted. -/
structure Fruitless (g h : Group ι) (rebuffed : List (Load ι)) (closed : List (Load ι × Closing)) :
    Prop where
  store : h.store = g.store
  evicted : h.evicted = g.evicted
  counters : h.counters = { g.counters with
    peerErrors := g.counters.peerErrors + rebuffed.length
    localErrors := g.counters.localErrors + (closed.map Prod.snd).count .failed }

theorem Fruitless.refl (g : Group ι) : Fruitless g g [] [] := ⟨rfl, rfl, rfl⟩

theorem Fruitless.trans {g h k : Group ι} {r r' : List (Load ι)} {c c' : List (Load ι × Closing)}
    (hgh : Fruitless g h r c) (hhk : Fruitless h k r' c') : Fruitless g k (r ++ r') (c ++ c') where
  store := hhk.store.trans hgh.store
  evicted := hhk.evicted.trans hgh.evicted
  counters := by
    rw [hhk.counters, hgh.counters, List.length_append, List.map_append, List.count_append,
      ← Nat.add_assoc, ← Nat.add_assoc]

/-- What happens on a board alone bears no fruit. -/
theorem fruitless_setFlight (g : Group ι) (access : Access) (f : Flight ι Phase ByteView) :
    Fruitless g (g.setFlight access f) [] [] where
  store := store_setFlight g access f
  evicted := (setFlight_frame g access f).2.2.2.2.2.2.1
  counters := counters_setFlight g access f

/-- A board with the same markers in place of another leaves all markers. -/
theorem markers_setFlight {g : Group ι} {access : Access} {f : Flight ι Phase ByteView}
    (h : f.markers = (g.flight access).markers) (a : Access) :
    ((g.setFlight access f).flight a).markers = (g.flight a).markers := by
  rw [flight_setFlight]
  split
  next ha => rw [h, ha]
  next => rfl

variable [DecidableEq ι]

/-! ## The course of a load -/

/-- Where the load of `leader` is after some events of a group. -/
inductive Course (g : Group ι) (access : Access) (leader : ι) (events : List (Event ι)) : Prop where
  /-- It goes on, or there was none. -/
  | on (fruitless : Fruitless g (g.run events) (ledger rebuffs g events) [])
    (closes : ledger closes g events = [])
    (rebuffs : (g.flight access).work? leader = none → ledger rebuffs g events = [])
    (markers : ∀ a, ((g.run events).flight a).markers = (g.flight a).markers)
    (work : (((g.run events).flight access).work? leader).isSome =
      ((g.flight access).work? leader).isSome)
  /-- It has failed, by one of the events. -/
  | failed (how : Ending ByteView) (closing : Closing) (event : Event ι) (mem : event ∈ events)
    (fails : event.Fails access leader how closing)
    (fruitless : Fruitless g (g.run events) (ledger rebuffs g events) (ledger closes g events))
    (closes : ledger closes g events = [((access, leader), closing)])
    (markers : ∀ a key, (g.flight access).key? leader = some key →
      ((g.run events).flight a).markers =
        if a = access then (g.flight a).markers.erase key else (g.flight a).markers)
    (work : ((g.flight access).work? leader).isSome = true)
    (ending : ((g.run events).flight access).ending? leader = some how)
  /-- It has a value. -/
  | gained (value : ByteView)
    (markers : ∀ a key, (g.flight access).key? leader = some key →
      ((g.run events).flight a).markers =
        if a = access then (g.flight a).markers.erase key else (g.flight a).markers)
    (work : ((g.flight access).work? leader).isSome = true)
    (ending : ((g.run events).flight access).ending? leader = some (.value value))

theorem ledger_one {β : Type} (line : Group ι → Event ι → List β) (g : Group ι) (e : Event ι) :
    ledger line g [e] = line g e := List.append_nil _

/-! ## One event -/

/-- An event that ends no load. -/
theorem course_on {g h : Group ι} {access : Access} {leader : ι} {e : Event ι}
    {f : Flight ι Phase ByteView} (hstep : g.step e = h.setFlight access f)
    (hsame : ∀ a, h.flight a = g.flight a) (hfruitless : Fruitless g h (g.rebuffs e) [])
    (hcloses : g.closes e = []) (hmarkers : f.markers = (g.flight access).markers)
    (hrebuffs : (g.flight access).work? leader = none → g.rebuffs e = [])
    (hwork : (f.work? leader).isSome = ((g.flight access).work? leader).isSome) :
    Course g access leader [e] := by
  have hrun : g.run [e] = h.setFlight access f := hstep
  refine .on ?_ ?_ (fun hnone => ?_) (fun a => ?_) ?_
  · rw [hrun, ledger_one]
    have h := hfruitless.trans (fruitless_setFlight h access f)
    rwa [List.append_nil] at h
  · rw [ledger_one, hcloses]
  · rw [ledger_one, hrebuffs hnone]
  · rw [← hsame] at hmarkers
    rw [hrun, markers_setFlight hmarkers, hsame]
  · rw [hrun, flight_setFlight_self]
    exact hwork

/-- An event that only the board hears of. -/
theorem course_board {g : Group ι} {access : Access} {leader : ι} {e : Event ι}
    {f : Flight ι Phase ByteView} (hstep : g.step e = g.setFlight access f)
    (hrebuffs : g.rebuffs e = []) (hcloses : g.closes e = [])
    (hmarkers : f.markers = (g.flight access).markers)
    (hwork : (f.work? leader).isSome = ((g.flight access).work? leader).isSome) :
    Course g access leader [e] :=
  course_on hstep (fun _ => rfl) (hrebuffs ▸ .refl g) hcloses hmarkers (fun _ => hrebuffs) hwork

/-- An event that does not apply. -/
theorem course_idle {g : Group ι} {access : Access} {leader : ι} {e : Event ι}
    (hstep : g.step e = g) (hrebuffs : g.rebuffs e = []) (hcloses : g.closes e = []) :
    Course g access leader [e] := by
  refine course_board ?_ hrebuffs hcloses rfl rfl
  rw [hstep]
  cases access with
  | routed => rfl
  | direct => rfl

/-- The marker of a load goes with its end. -/
theorem markers_ended {g h : Group ι} {access : Access} {leader : ι} {phase : Phase}
    (hwork : (g.flight access).work? leader = some phase) (hsame : ∀ a, h.flight a = g.flight a)
    (how : Ending ByteView) (a : Access) {key : String}
    (hkey : (g.flight access).key? leader = some key) :
    ((h.setFlight access ((g.flight access).finish leader how)).flight a).markers =
      if a = access then (g.flight a).markers.erase key else (g.flight a).markers := by
  obtain ⟨k, hx⟩ := Flight.work?_eq_some.1 hwork
  have hk : (g.flight access).key? leader = some k := Option.map_eq_some_iff.2 ⟨_, hx, rfl⟩
  cases hkey.symm.trans hk
  rw [flight_setFlight]
  by_cases ha : a = access
  · rw [if_pos ha.symm, if_pos ha, Flight.markers_finish hx, ha]
  · rw [if_neg fun heq => ha heq.symm, if_neg ha, hsame]

/-- An event that ends a load by a value. -/
theorem course_gained {g h : Group ι} {access : Access} {leader : ι} {e : Event ι} {phase : Phase}
    {value : ByteView} (hwork : (g.flight access).work? leader = some phase)
    (hstep : g.step e = h.setFlight access ((g.flight access).finish leader (.value value)))
    (hsame : ∀ a, h.flight a = g.flight a) : Course g access leader [e] := by
  have hrun : g.run [e] = h.setFlight access ((g.flight access).finish leader (.value value)) :=
    hstep
  refine .gained value (fun a key hkey => ?_) (by rw [hwork]; rfl) ?_
  · rw [hrun]
    exact markers_ended hwork hsame _ a hkey
  · rw [hrun, flight_setFlight_self]
    exact Flight.ending?_finish hwork (.value value)

/-- An event that fails a load; only its closing is counted. -/
theorem course_failed {g h : Group ι} {access : Access} {leader : ι} {e : Event ι} {phase : Phase}
    {how : Ending ByteView} {closing : Closing}
    (hwork : (g.flight access).work? leader = some phase)
    (hfails : e.Fails access leader how closing)
    (hstep : g.step e = h.setFlight access ((g.flight access).finish leader how))
    (hsame : ∀ a, h.flight a = g.flight a)
    (hfruitless : Fruitless g h [] [((access, leader), closing)]) (hrebuffs : g.rebuffs e = [])
    (hcloses : g.closes e = [((access, leader), closing)]) : Course g access leader [e] := by
  have hrun : g.run [e] = h.setFlight access ((g.flight access).finish leader how) := hstep
  refine .failed how closing e List.mem_cons_self hfails ?_ ?_ (fun a key hkey => ?_)
    (by rw [hwork]; rfl) ?_
  · rw [hrun, ledger_one, ledger_one, hrebuffs, hcloses]
    exact hfruitless.trans (fruitless_setFlight h access _)
  · rw [ledger_one, hcloses]
  · rw [hrun]
    exact markers_ended hwork hsame _ a hkey
  · rw [hrun, flight_setFlight_self]
    exact Flight.ending?_finish hwork how

/-- One event that is a call's own keeps to its course. -/
theorem course_step {g : Group ι} {access : Access} {leader caller : ι} {e : Event ι}
    (hown : e.IsOwn access leader caller) : Course g access leader [e] := by
  -- An event of its own leaves the load on its way, or ends it by a failure or by a value.
  cases e with
  | registerPeers => exact hown.elim
  | lookup c a key => exact hown.elim
  | abandon a c => exact hown.elim
  | start a l picked =>
    obtain ⟨rfl, rfl⟩ := hown
    rcases g.start_cases a l picked with ⟨-, h⟩ | ⟨router, hwork, h⟩
    · exact course_idle h rfl rfl
    · refine course_board h rfl rfl (Flight.markers_advance _ l _) ?_
      rw [Flight.work?_advance hwork, hwork]
      rfl
  | deliver a c =>
    obtain ⟨rfl, rfl⟩ := hown
    refine course_board rfl rfl rfl (Flight.markers_deliver _ c) ?_
    rw [Flight.work?_deliver]
  | panic a l text =>
    obtain ⟨rfl, rfl⟩ := hown
    rcases g.panic_cases a l text with ⟨hno, h⟩ | ⟨request, hreq, h⟩
    · exact course_idle h rfl (by simp only [closes, hno])
    · obtain ⟨phase, hwork⟩ := work?_of_request? hreq
      refine course_failed hwork (.panic text) h (fun _ => rfl) ⟨rfl, rfl, rfl⟩ rfl ?_
      simp only [closes, hreq]
  | sourceReply a l reply =>
    obtain ⟨rfl, rfl⟩ := hown
    rcases g.sourceReply_cases a l reply with
      ⟨hno, h⟩ | ⟨key, bytes, hreq, rfl, h⟩ | ⟨key, text, hreq, rfl, h⟩
    · refine course_idle h rfl ?_
      simp only [closes]
      split
      next hsource => exact absurd hsource (hno _)
      next hsource => exact absurd hsource (hno _)
      next => rfl
    · obtain ⟨phase, hwork⟩ := work?_of_request? hreq
      refine course_gained hwork h fun a => ?_
      rw [flight_count, flight_keep]
    · obtain ⟨phase, hwork⟩ := work?_of_request? hreq
      refine course_failed hwork (.source text) h (fun a => ?_) ⟨rfl, rfl, rfl⟩ rfl ?_
      · rw [flight_count]
      · simp only [closes, hreq]
  | peerReply a l reply =>
    obtain ⟨rfl, rfl⟩ := hown
    rcases g.peerReply_cases a l reply with
      ⟨hno, h⟩ | ⟨address, key, bytes, hreq, rfl, h⟩ | ⟨address, key, error, hreq, rfl, h⟩
    · obtain ⟨hrebuffs, hcloses⟩ := peerReply_silent hno reply
      exact course_idle h hrebuffs hcloses
    · refine course_gained (request?_eq_peer.1 hreq).1 h fun a => ?_
      split
      next => rw [flight_keep, flight_count]
      next => rw [flight_count]
    -- The failure of its peer is counted, and the load goes on to the source.
    · have hwork := (request?_eq_peer.1 hreq).1
      have hrebuffs : g.rebuffs (.peerReply a l (.error error)) = [(a, l)] := by
        simp only [rebuffs, hreq]
      refine course_on h (flight_count g _) ?_ rfl (Flight.markers_advance _ l _)
        (fun hnone => ?_) ?_
      · rw [hrebuffs]
        exact ⟨rfl, rfl, rfl⟩
      · rw [hwork] at hnone
        cases hnone
      · rw [Flight.work?_advance hwork, hwork]
        rfl

/-! ## Runs -/

theorem later_flight_run (g : Group ι) (access : Access) (events : List (Event ι)) :
    Flight.Later (g.flight access) ((g.run events).flight access) := by
  rw [flight_run]
  exact Flight.later_run _ _

theorem Course.append {g : Group ι} {access : Access} {leader : ι} {before after : List (Event ι)}
    (h : Course g access leader before) (h' : Course (g.run before) access leader after) :
    Course g access leader (before ++ after) := by
  have hended : ∀ {k : Group ι} {how}, (k.flight access).ending? leader = some how →
      ¬ ((k.flight access).work? leader).isSome = true := by
    intro k how hend
    rw [Flight.work?_of_ending? hend]
    exact Bool.false_ne_true
  have hrun := run_append g before after
  have hrebuffs := ledger_append rebuffs g before after
  have hcloses := ledger_append closes g before after
  -- A load that has ended in the first part stays ended, so only nothing may follow. If it is on
  -- its way, the second part decides.
  cases h with
  | gained value markers work ending =>
    cases h' with
    | gained value' markers' work' ending' => exact absurd work' (hended ending)
    | failed how closing event mem fails fruitless closed markers' work' ending' =>
      exact absurd work' (hended ending)
    | on fruitless closed rebuffs markers' work' =>
      refine .gained value (fun a key hkey => ?_) work ?_
      · rw [hrun, markers', markers a key hkey]
      · rw [hrun]
        exact (later_flight_run _ access after).ending? ending
  | failed how closing event mem fails fruitless closed markers work ending =>
    cases h' with
    | gained value markers' work' ending' => exact absurd work' (hended ending)
    | failed how' closing' event' mem' fails' fruitless' closed' markers' work' ending' =>
      exact absurd work' (hended ending)
    | on fruitless' closed' rebuffs' markers' work' =>
      refine .failed how closing event (List.mem_append_left _ mem) fails ?_ ?_
        (fun a key hkey => ?_) work ?_
      · rw [hrun, hrebuffs, hcloses, closed']
        exact fruitless.trans fruitless'
      · rw [hcloses, closed, closed']
        rfl
      · rw [hrun, markers', markers a key hkey]
      · rw [hrun]
        exact (later_flight_run _ access after).ending? ending
  | on fruitless closed rebuffs markers work =>
    cases h' with
    | gained value markers' work' ending' =>
      refine .gained value (fun a key hkey => ?_) (work ▸ work') ?_
      · rw [hrun, markers' a key ((later_flight_run g access before).key? hkey), markers]
      · rw [hrun]
        exact ending'
    | failed how closing event mem fails fruitless' closed' markers' work' ending' =>
      refine .failed how closing event (List.mem_append_right _ mem) fails ?_ ?_
        (fun a key hkey => ?_) (work ▸ work') ?_
      · rw [hrun, hrebuffs, hcloses, closed]
        exact fruitless.trans fruitless'
      · rw [hcloses, closed, closed']
        rfl
      · rw [hrun, markers' a key ((later_flight_run g access before).key? hkey), markers]
      · rw [hrun]
        exact ending'
    | on fruitless' closed' rebuffs' markers' work' =>
      refine .on ?_ ?_ (fun hnone => ?_) (fun a => ?_) ?_
      · rw [hrun, hrebuffs]
        exact fruitless.trans fruitless'
      · rw [hcloses, closed, closed']
        rfl
      · rw [hnone, Option.isSome_none, Option.isSome_eq_false_iff,
          Option.isNone_iff_eq_none] at work
        rw [hrebuffs, rebuffs hnone, rebuffs' work]
        rfl
      · rw [hrun, markers', markers]
      · rw [hrun, work', work]

/-- Where a load is when nothing has happened but what is its own. -/
theorem course_run {g : Group ι} {access : Access} {leader caller : ι} {events : List (Event ι)}
    (hown : ∀ e ∈ events, e.IsOwn access leader caller) : Course g access leader events := by
  induction events generalizing g with
  | nil => exact .on (.refl g) rfl (fun _ => rfl) (fun _ => rfl) rfl
  | cons e es ih =>
    have hfirst : Course g access leader [e] := course_step (hown e List.mem_cons_self)
    exact hfirst.append (ih fun e' he' => hown e' (List.mem_cons_of_mem e he'))

/-! ## What is none of a load's business -/

omit [DecidableEq ι] in
theorem Aside.refl (access : Access) (g : Group ι) : Aside access g g :=
  ⟨rfl, rfl, rfl, fun _ _ => rfl⟩

omit [DecidableEq ι] in
theorem Aside.trans {access : Access} {g h k : Group ι} (hgh : Aside access g h)
    (hhk : Aside access h k) : Aside access g k where
  name := hhk.name.trans hgh.name
  policy := hhk.policy.trans hgh.policy
  router := hhk.router.trans hgh.router
  other := fun a ha => (hhk.other a ha).trans (hgh.other a ha)

omit [DecidableEq ι] in
theorem aside_setFlight {access : Access} {g h : Group ι} (hg : Aside access g h)
    (f : Flight ι Phase ByteView) : Aside access g (h.setFlight access f) where
  name := (name_setFlight h access f).trans hg.name
  policy := (policy_setFlight h access f).trans hg.policy
  router := (hasRouter_setFlight h access f).trans hg.router
  other := fun a ha => (flight_setFlight_of_ne h ha f).trans (hg.other a ha)

/-- An event that is a call's own leaves all else alone. -/
theorem aside_step {g : Group ι} {access : Access} {leader caller : ι} {e : Event ι}
    (hown : e.IsOwn access leader caller) : Aside access g (g.step e) := by
  have hself : Aside access g g := .refl access g
  have hcount : ∀ f : Counters → Counters, Aside access g (g.count f) :=
    fun f => ⟨rfl, rfl, rfl, fun a _ => flight_count g f a⟩
  -- The events of the call change its own board, the store and the counters.
  cases e with
  | registerPeers => exact hown.elim
  | lookup c a key => exact hown.elim
  | abandon a c => exact hown.elim
  | deliver a c =>
    obtain ⟨rfl, rfl⟩ := hown
    exact aside_setFlight hself _
  | start a l picked =>
    obtain ⟨rfl, rfl⟩ := hown
    show Aside a g (g.start a l picked)
    rcases g.start_cases a l picked with ⟨-, h⟩ | ⟨router, -, h⟩
    · rw [h]
      exact hself
    · rw [h]
      exact aside_setFlight hself _
  | panic a l text =>
    obtain ⟨rfl, rfl⟩ := hown
    show Aside a g (g.panic a l text)
    rcases g.panic_cases a l text with ⟨-, h⟩ | ⟨request, -, h⟩
    · rw [h]
      exact hself
    · rw [h]
      exact aside_setFlight hself _
  | sourceReply a l reply =>
    obtain ⟨rfl, rfl⟩ := hown
    show Aside a g (g.sourceReply a l reply)
    rcases g.sourceReply_cases a l reply with
      ⟨-, h⟩ | ⟨key, bytes, -, -, h⟩ | ⟨key, text, -, -, h⟩
    · rw [h]
      exact hself
    · rw [h]
      refine aside_setFlight ?_ _
      refine ⟨rfl, rfl, rfl, fun b _ => ?_⟩
      rw [flight_count, flight_keep]
    · rw [h]
      exact aside_setFlight (hcount _) _
  | peerReply a l reply =>
    obtain ⟨rfl, rfl⟩ := hown
    show Aside a g (g.peerReply a l reply)
    rcases g.peerReply_cases a l reply with
      ⟨-, h⟩ | ⟨address, key, bytes, -, -, h⟩ | ⟨address, key, error, -, -, h⟩
    · rw [h]
      exact hself
    · rw [h]
      refine aside_setFlight ?_ _
      split
      next =>
        refine ⟨rfl, rfl, rfl, fun b _ => ?_⟩
        rw [flight_keep, flight_count]
      next => exact hcount _
    · rw [h]
      exact aside_setFlight (hcount _) _

/-- A lookup is heard of by the board of its way in. -/
theorem aside_lookup (g : Group ι) (caller : ι) (access : Access) (key : String) :
    Aside access g (g.lookup caller access key) := by
  rcases g.lookup_cases caller access key with
    ⟨-, h⟩ | ⟨-, -, h⟩ | ⟨value, -, -, -, h⟩ | ⟨-, -, -, h⟩
  · rw [h]
    exact .refl access g
  · rw [h]
    exact ⟨rfl, rfl, rfl, fun a _ => flight_eq_of_fields rfl rfl a⟩
  · rw [h]
    exact ⟨rfl, rfl, rfl, fun a _ => flight_eq_of_fields rfl rfl a⟩
  · rw [h]
    refine aside_setFlight ?_ _
    exact ⟨rfl, rfl, rfl, fun a _ => flight_eq_of_fields rfl rfl a⟩

theorem aside_run {g : Group ι} {access : Access} {leader caller : ι} {events : List (Event ι)}
    (hown : ∀ e ∈ events, e.IsOwn access leader caller) : Aside access g (g.run events) := by
  induction events generalizing g with
  | nil => exact .refl access g
  | cons e es ih =>
    have hfirst : Aside access g (g.step e) := aside_step (hown e List.mem_cons_self)
    exact hfirst.trans (ih fun e' he' => hown e' (List.mem_cons_of_mem e he'))

end Group

end PeerCache
