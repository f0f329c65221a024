import PeerCache.Group.Loads
import PeerCache.Proofs.Flight.Markers
import PeerCache.Proofs.Group.Remote
/-!
# PeerCache — loads that start, fly and end

A load of a group is started once, and it is in flight from its start to its one end:

* **`loads_step`**, **`loads_run`** — the loads that were in flight or have been started are in
  flight or have ended; none is lost and none is doubled.
* **`opened_nodup`** — a load is started once.
* **`inFlight_iff_work?`** — a load is in flight exactly as long as its board has work for it.
* **`rebuffed_nodup`** — a load is failed by a peer once at most: it has `Turned` to the source
  then.
-/

namespace PeerCache

namespace Group

variable {ι : Type}

/-! ## Loads in flight

A load is in flight by the marker that its leader has on the board of its way in. So what comes to a
board's markers and goes from them is what comes to the group's loads and goes from them. -/

/-- A load is in flight exactly if a marker on its board names its leader. -/
theorem mem_inFlight {g : Group ι} {access : Access} {leader : ι} :
    (access, leader) ∈ g.inFlight ↔ leader ∈ (g.flight access).markers.values := by
  cases access with
  | routed => simp [inFlight]
  | direct => simp [inFlight]

/-- What comes to a board and goes from it comes to the group and goes from it. -/
theorem inFlight_setFlight {g h : Group ι} (hsame : ∀ a, h.flight a = g.flight a)
    {access : Access} {f : Flight ι Phase ByteView} (come gone : List ι)
    (hvalues : (come ++ (g.flight access).markers.values).Perm (gone ++ f.markers.values)) :
    (come.map (fun l => (access, l)) ++ g.inFlight).Perm
      (gone.map (fun l => (access, l)) ++ (h.setFlight access f).inFlight) := by
  have hmap := hvalues.map fun l => (access, l)
  rw [List.map_append, List.map_append] at hmap
  unfold inFlight
  simp only [List.flatMap_cons, List.flatMap_nil, List.append_nil]
  cases access with
  | routed =>
    rw [flight_setFlight_self, flight_setFlight_of_ne h (by decide : Access.direct ≠ .routed),
      hsame, ← List.append_assoc, ← List.append_assoc]
    exact hmap.append_right _
  | direct =>
    -- the routed loads stand in front, so what comes and goes is moved past them
    rw [flight_setFlight_self, flight_setFlight_of_ne h (by decide : Access.routed ≠ .direct),
      hsame]
    refine (List.perm_append_comm_assoc _ _ _).trans ?_
    exact (hmap.append_left _).trans (List.perm_append_comm_assoc _ _ _)

/-- A board on which no load is started and none ends. -/
theorem inFlight_kept {g h : Group ι} (hsame : ∀ a, h.flight a = g.flight a) {access : Access}
    {f : Flight ι Phase ByteView} (hmarkers : f.markers = (g.flight access).markers) :
    g.inFlight.Perm (h.setFlight access f).inFlight := by
  refine inFlight_setFlight hsame [] [] ?_
  rw [hmarkers]

/-- The loads in flight are told of by the boards alone. -/
theorem inFlight_congr {g h : Group ι} (hsame : ∀ a, h.flight a = g.flight a) :
    h.inFlight = g.inFlight := by
  unfold inFlight
  simp only [hsame]

variable [DecidableEq ι]

/-- A load that ends is in flight no more. -/
theorem inFlight_finish {g h : Group ι} (hsame : ∀ a, h.flight a = g.flight a) {access : Access}
    (hsound : Flight.Sound (g.flight access)) {leader : ι} {phase : Phase}
    (hwork : (g.flight access).work? leader = some phase) (how : Ending ByteView) :
    g.inFlight.Perm
      ((access, leader) :: (h.setFlight access ((g.flight access).finish leader how)).inFlight) :=
  inFlight_setFlight hsame [] [leader] (Flight.values_finish hsound hwork how)

/-- A caller that joins a load starts none. -/
theorem inFlight_join {g h : Group ι} (hsame : ∀ a, h.flight a = g.flight a) {access : Access}
    (caller : ι) {key : String} {leader : ι}
    (hmark : (g.flight access).markers.find? key = some leader) (phase : Phase) :
    g.inFlight.Perm
      (h.setFlight access ((g.flight access).call caller key phase)).inFlight := by
  refine inFlight_setFlight hsame [] [] ?_
  rw [Flight.values_call_join _ hmark]

/-- A caller that finds no marker starts a load, which is in flight from then on. -/
theorem inFlight_register {g h : Group ι} (hsame : ∀ a, h.flight a = g.flight a) {access : Access}
    {caller : ι} (hnew : caller ∉ (g.flight access).callers) {key : String}
    (hmark : (g.flight access).markers.find? key = none) (phase : Phase) :
    ((access, caller) :: g.inFlight).Perm
      (h.setFlight access ((g.flight access).call caller key phase)).inFlight := by
  refine inFlight_setFlight hsame [caller] [] ?_
  rw [Flight.values_call_new _ hnew hmark]
  exact List.Perm.refl _

/-- A load is in flight exactly if it is underway. -/
theorem inFlight_iff_work? {g : Group ι} {access : Access}
    (hsound : Flight.Sound (g.flight access)) (leader : ι) :
    (access, leader) ∈ g.inFlight ↔ ∃ phase, (g.flight access).work? leader = some phase :=
  mem_inFlight.trans hsound.mem_values_iff

/-- A load that waits for something outside has work left. -/
theorem work?_of_request? {g : Group ι} {access : Access} {leader : ι} {request : Request}
    (h : g.request? access leader = some request) :
    ∃ phase, (g.flight access).work? leader = some phase := by
  cases request with
  | peer address group key => exact ⟨_, (request?_eq_peer.1 h).1⟩
  | source key => exact ⟨_, (request?_eq_source.1 h).1⟩

/-! ## One event -/

/-- A load is opened by the lookup of a new caller. -/
theorem mem_opens {g : Group ι} {e : Event ι} {load : Load ι} (h : load ∈ g.opens e) :
    ∃ key, e = .lookup load.2 load.1 key ∧ load.2 ∉ g.callers := by
  unfold opens at h
  split at h
  next caller access key =>
    split at h
    next hnew =>
      cases List.mem_singleton.1 h
      exact ⟨key, rfl, hnew.1⟩
    next => cases h
  next => cases h

theorem mem_rebuffs {g : Group ι} {e : Event ι} {load : Load ι} (h : load ∈ g.rebuffs e) :
    ∃ error address group key, e = .peerReply load.1 load.2 (.error error) ∧
      g.request? load.1 load.2 = some (.peer address group key) := by
  unfold rebuffs at h
  split at h
  next access leader error =>
    split at h
    next address group key hreq =>
      cases List.mem_singleton.1 h
      exact ⟨error, address, group, key, rfl, hreq⟩
    next => cases h
  next => cases h

/-- What a load that calls the source has been at before. -/
theorem work?_of_callsSource {g : Group ι} {e : Event ι} {load : Load ι}
    (h : load ∈ g.callsSource e) :
    (∃ picked, e = .start load.1 load.2 picked ∧ ∃ router,
      (g.flight load.1).work? load.2 = some (.queued router) ∧
      firstPhase router picked = .loading) ∨
    load ∈ g.rebuffs e := by
  unfold callsSource at h
  split at h
  next access leader picked =>
    left
    split at h
    next router hwork =>
      split at h
      next => cases h
      -- Nobody was picked, or there is no router to ask.
      next hnobody =>
        cases List.mem_singleton.1 h
        refine ⟨picked, rfl, router, hwork, ?_⟩
        cases router with
        | false => rfl
        | true =>
          cases picked with
          | none => rfl
          | some peer => exact absurd ⟨rfl, Option.some_ne_none peer⟩ hnobody
    next => cases h
  next access leader reply => exact Or.inr h
  next => cases h

/-- A load that calls the source has work left. -/
theorem callsSource_work? {g : Group ι} {e : Event ι} {load : Load ι}
    (h : load ∈ g.callsSource e) : ∃ phase, (g.flight load.1).work? load.2 = some phase := by
  rcases work?_of_callsSource h with ⟨picked, -, router, hwork, -⟩ | hrebuffed
  · exact ⟨_, hwork⟩
  · obtain ⟨error, address, group, key, -, hreq⟩ := mem_rebuffs hrebuffed
    exact work?_of_request? hreq

/-- An answer of a peer that is not waited for is in no line. -/
theorem peerReply_silent {g : Group ι} {access : Access} {leader : ι}
    (hno : ∀ address group key, g.request? access leader ≠ some (.peer address group key))
    (reply : Except CacheError (List UInt8)) :
    g.rebuffs (.peerReply access leader reply) = [] ∧
      g.closes (.peerReply access leader reply) = [] := by
  cases hreq : g.request? access leader with
  | none => cases reply <;> simp only [rebuffs, closes, hreq, and_self]
  | some request =>
    cases request with
    | peer address group key => exact absurd hreq (hno address group key)
    | source key => cases reply <;> simp only [rebuffs, closes, hreq, and_self]

/-! ## What one event does to the loads -/

/-- A lookup puts in flight what it opens. -/
theorem loads_lookup {g : Group ι} (hseated : g.Seated) (caller : ι) (access : Access)
    (key : String) :
    (g.opens (.lookup caller access key) ++ g.inFlight).Perm
      (g.lookup caller access key).inFlight := by
  -- Refused, hit or called before: nothing is opened, and nothing happens on the boards.
  rcases g.lookup_cases caller access key with
    ⟨hcalled, h⟩ | ⟨hcalled, hkey, h⟩ | ⟨value, hcalled, hkey, hget, h⟩ | ⟨hcalled, hkey, hget, h⟩
  · rw [show g.opens (.lookup caller access key) = [] from if_neg fun hn => hn.1 hcalled, h]
    exact List.Perm.refl _
  · rw [show g.opens (.lookup caller access key) = [] from if_neg fun hn => hn.2.1 hkey, h]
    exact List.Perm.refl _
  · have hmiss : (g.store.get key).2 ≠ none := by
      rw [hget]
      exact Option.some_ne_none value
    rw [show g.opens (.lookup caller access key) = [] from if_neg fun hn => hmiss hn.2.2.1, h]
    exact List.Perm.refl _
  · have hsame : ∀ a, ({ g with
        callers := g.callers ++ [caller]
        counters := { g.counters with gets := g.counters.gets + 1 }
        store := (g.store.get key).1 } : Group ι).flight a = g.flight a :=
      flight_eq_of_fields rfl rfl
    rw [h]
    -- A miss joins what is in flight, or opens a load of its own.
    cases hmark : (g.flight access).markers.find? key with
    | some leader =>
      have hopens : g.opens (.lookup caller access key) = [] := if_neg fun hn => by
        rw [hmark] at hn
        cases hn.2.2.2
      rw [hopens]
      exact inFlight_join hsame caller hmark _
    | none =>
      rw [show g.opens (.lookup caller access key) = [(access, caller)] from
        if_pos ⟨hcalled, hkey, hget, hmark⟩]
      exact inFlight_register hsame (hseated.not_on_board hcalled access) hmark _

/-- An answer of a peer takes out of flight what it closes. -/
theorem loads_peerReply {g : Group ι} {access : Access} (hsound : Flight.Sound (g.flight access))
    (leader : ι) (reply : Except CacheError (List UInt8)) :
    g.inFlight.Perm ((g.closes (.peerReply access leader reply)).map Prod.fst ++
      (g.peerReply access leader reply).inFlight) := by
  rcases g.peerReply_cases access leader reply with
    ⟨hno, h⟩ | ⟨address, key, bytes, hreq, rfl, h⟩ | ⟨address, key, e, hreq, rfl, h⟩
  · rw [(peerReply_silent hno reply).2, h]
    exact List.Perm.refl _
  · have hcloses : g.closes (.peerReply access leader (.ok bytes))
        = [((access, leader), .peer)] := by
      simp only [closes, hreq]
    obtain ⟨phase, hwork⟩ := work?_of_request? hreq
    rw [hcloses, h]
    -- whether the value is kept is nothing to the boards
    refine inFlight_finish (fun a => ?_) hsound hwork _
    split
    · rw [flight_keep, flight_count]
    · rw [flight_count]
  · rw [show g.closes (.peerReply access leader (.error e)) = [] from rfl, h]
    exact inFlight_kept (flight_count g _)
      (Flight.markers_advance (g.flight access) leader .loading)

theorem loads_sourceReply {g : Group ι} {access : Access}
    (hsound : Flight.Sound (g.flight access)) (leader : ι) (reply : Except String (List UInt8)) :
    g.inFlight.Perm ((g.closes (.sourceReply access leader reply)).map Prod.fst ++
      (g.sourceReply access leader reply).inFlight) := by
  rcases g.sourceReply_cases access leader reply with
    ⟨hno, h⟩ | ⟨key, bytes, hreq, rfl, h⟩ | ⟨key, text, hreq, rfl, h⟩
  · have hcloses : g.closes (.sourceReply access leader reply) = [] := by
      simp only [closes]
      split
      next hsource => exact absurd hsource (hno _)
      next hsource => exact absurd hsource (hno _)
      next => rfl
    rw [hcloses, h]
    exact List.Perm.refl _
  -- Either answer ends the load, which is in flight as long as it asks for something.
  · have hcloses : g.closes (.sourceReply access leader (.ok bytes))
        = [((access, leader), .source)] := by
      simp only [closes, hreq]
    obtain ⟨phase, hwork⟩ := work?_of_request? hreq
    rw [hcloses, h]
    refine inFlight_finish (fun a => ?_) hsound hwork _
    rw [flight_count, flight_keep]
  · have hcloses : g.closes (.sourceReply access leader (.error text))
        = [((access, leader), .failed)] := by
      simp only [closes, hreq]
    obtain ⟨phase, hwork⟩ := work?_of_request? hreq
    rw [hcloses, h]
    exact inFlight_finish (flight_count g _) hsound hwork _

theorem loads_panic {g : Group ι} {access : Access} (hsound : Flight.Sound (g.flight access))
    (leader : ι) (text : String) :
    g.inFlight.Perm ((g.closes (.panic access leader text)).map Prod.fst ++
      (g.panic access leader text).inFlight) := by
  rcases g.panic_cases access leader text with ⟨hno, h⟩ | ⟨request, hreq, h⟩
  · have hcloses : g.closes (.panic access leader text) = [] := by
      simp only [closes, hno]
    rw [hcloses, h]
    exact List.Perm.refl _
  · have hcloses : g.closes (.panic access leader text) = [((access, leader), .panicked)] := by
      simp only [closes, hreq]
    obtain ⟨phase, hwork⟩ := work?_of_request? hreq
    rw [hcloses, h]
    exact inFlight_finish (fun _ => rfl) hsound hwork _

/-! ## Groups whose boards are sound -/

/-- A group of which the boards are sound and whoever called is known. -/
structure Orderly (g : Group ι) : Prop where
  seated : g.Seated
  boards : ∀ access, Flight.Sound (g.flight access)

theorem Orderly.step {g : Group ι} (h : g.Orderly) (e : Event ι) : (g.step e).Orderly where
  seated := h.seated.step e
  boards := by
    intro access
    rw [flight_step]
    exact Flight.sound_run (h.boards access) _

theorem Unused.orderly {g : Group ι} (hg : g.Unused) : g.Orderly where
  seated := hg.seated
  boards := by
    intro access
    rw [hg.boards access]
    exact Flight.sound_empty

omit [DecidableEq ι] in
/-- A group that has not been used has no load in flight. -/
theorem Unused.inFlight {g : Group ι} (hg : g.Unused) : g.inFlight = [] := by
  unfold Group.inFlight
  simp only [hg.boards]
  rfl

/-- The loads that were in flight or have been started are in flight or have ended. -/
theorem loads_step {g : Group ι} (h : g.Orderly) (e : Event ι) :
    (g.opens e ++ g.inFlight).Perm ((g.closes e).map Prod.fst ++ (g.step e).inFlight) := by
  cases e with
  | lookup caller access key => exact loads_lookup h.seated caller access key
  | peerReply access leader reply => exact loads_peerReply (h.boards access) leader reply
  | sourceReply access leader reply => exact loads_sourceReply (h.boards access) leader reply
  | panic access leader text => exact loads_panic (h.boards access) leader text
  | deliver access caller =>
    exact inFlight_kept (fun _ => rfl) (Flight.markers_deliver (g.flight access) caller)
  | abandon access caller => exact inFlight_kept (fun _ => rfl) rfl
  | registerPeers =>
    rw [step_registerPeers]
    exact List.Perm.refl _
  | start access leader picked =>
    show g.inFlight.Perm (g.start access leader picked).inFlight
    rcases g.start_cases access leader picked with ⟨-, h⟩ | ⟨router, -, h⟩
    · rw [h]
    · rw [h]
      exact inFlight_kept (fun _ => rfl) (Flight.markers_advance _ leader _)

/-! ## Runs -/

theorem sound_flight_run {g : Group ι} (h : ∀ access, Flight.Sound (g.flight access))
    (events : List (Event ι)) (access : Access) :
    Flight.Sound ((g.run events).flight access) := by
  rw [flight_run]
  exact Flight.sound_run (h access) _

theorem ledger_append {β : Type} (line : Group ι → Event ι → List β) (g : Group ι)
    (before after : List (Event ι)) :
    ledger line g (before ++ after) = ledger line g before ++ ledger line (g.run before) after :=
  told_append line g before after

/-- A line of a run is added by one of its events. -/
theorem exists_of_mem_ledger {β : Type} {line : Group ι → Event ι → List β} {g : Group ι}
    {events : List (Event ι)} {b : β} (h : b ∈ ledger line g events) :
    ∃ before e after, events = before ++ e :: after ∧ b ∈ line (g.run before) e :=
  exists_of_mem_told h

theorem map_ledger {β γ : Type} (line : Group ι → Event ι → List β) (f : β → γ) (g : Group ι)
    (events : List (Event ι)) :
    ledger (fun g e => (line g e).map f) g events = (ledger line g events).map f :=
  map_told line f g events

/-- Over a run from a group without loads, the loads that were started are in flight or have
ended. -/
theorem loads_run {g : Group ι} (h : g.Orderly) (hnone : g.inFlight = [])
    (events : List (Event ι)) :
    (ledger opens g events).Perm
      ((ledger closes g events).map Prod.fst ++ (g.run events).inFlight) := by
  have hperm := perm_told opens (fun g e => (closes g e).map Prod.fst) inFlight Orderly
    (fun _ e hg => hg.step e) (fun _ e hg => loads_step hg e) h events
  rw [hnone, List.append_nil] at hperm
  rw [← map_ledger closes Prod.fst]
  exact hperm

/-- A load is started once: it is known by its leader, who has called from then on. -/
theorem opened_nodup (g : Group ι) (events : List (Event ι)) : (ledger opens g events).Nodup := by
  refine (nodup_told (fun _ => True) (fun g load => load.2 ∈ g.callers) (fun _ _ h => h) ?_ ?_ ?_
    True.intro events).1
  · intro g e
    unfold opens
    split
    next =>
      split
      · exact List.nodup_singleton _
      · exact List.nodup_nil
    next => exact List.nodup_nil
  · intro g e load _ h
    obtain ⟨key, rfl, hnew⟩ := mem_opens h
    exact ⟨hnew, (g.callers_lookup load.2 load.1 key).1⟩
  · exact fun g e load _ h => callers_step h e

/-! ## A peer fails a load once

A load that its peer has failed turns to the source, and waits for nothing else from then on. -/

/-- The load of a leader has turned to the source, or it has ended. -/
structure Turned (f : Flight ι Phase ByteView) (leader : ι) : Prop where
  key : ∃ key, f.key? leader = some key
  phase : ∀ phase, f.work? leader = some phase → phase = .loading

/-- A load that has turned stays so, if only a load that is queued is given something else to do. -/
theorem Turned.step {f : Flight ι Phase ByteView} {leader : ι} (h : Turned f leader)
    {b : Flight.Event ι Phase ByteView}
    (hb : ∀ phase, b = .advance leader phase →
      phase = .loading ∨ ∃ router, f.work? leader = some (.queued router)) :
    Turned (f.step b) leader := by
  obtain ⟨key, hkey⟩ := h.key
  refine ⟨⟨key, (Flight.later_step f b).key? hkey⟩, fun phase hwork => ?_⟩
  rcases Flight.work?_step hwork with hold | ⟨hadvance, -⟩ | ⟨hnone, k, -⟩
  · exact h.phase phase hold
  · rcases hb phase hadvance with hloading | ⟨router, hqueued⟩
    · exact hloading
    · cases h.phase _ hqueued
  · -- a call leads no load that there is already
    unfold Flight.key? at hkey
    rw [hnone] at hkey
    cases hkey

/-- A load that goes to the source has turned to it. -/
theorem turned_advance {f : Flight ι Phase ByteView} {leader : ι} {phase : Phase}
    (hwork : f.work? leader = some phase) : Turned (f.advance leader .loading) leader := by
  obtain ⟨key, hkey⟩ := key?_of_work? hwork
  refine ⟨⟨key, (Flight.later_step f (.advance leader .loading)).key? hkey⟩, fun phase h => ?_⟩
  rw [Flight.work?_advance hwork] at h
  exact (Option.some.inj h).symm

/-- A load that has turned does not turn back. -/
theorem turned_step {g : Group ι} {access : Access} {leader : ι}
    (h : Turned (g.flight access) leader) (e : Event ι) :
    Turned ((g.step e).flight access) leader := by
  rcases g.flight_step_cases access e with ⟨-, hsame⟩ | ⟨b, hb, hstep⟩
  · rw [hsame]
    exact h
  · rw [hstep]
    refine h.step fun phase heq => ?_
    rw [heq] at hb
    rcases advance_of_boardEvent? hb with
      ⟨router, -, -, hqueued, -⟩ | ⟨-, -, -, -, -, -, hloading⟩
    · exact Or.inr ⟨router, hqueued⟩
    · exact Or.inl hloading

/-- A failure of a peer turns its load, which had not turned before. -/
theorem turned_of_rebuffs {g : Group ι} {e : Event ι} {load : Load ι} (h : load ∈ g.rebuffs e) :
    ¬ Turned (g.flight load.1) load.2 ∧ Turned ((g.step e).flight load.1) load.2 := by
  obtain ⟨error, address, group, key, rfl, hreq⟩ := mem_rebuffs h
  obtain ⟨hwork, -, -⟩ := request?_eq_peer.1 hreq
  refine ⟨fun hturned => ?_, ?_⟩
  · cases hturned.phase _ hwork
  · rcases g.peerReply_cases load.1 load.2 (.error error) with
      ⟨hno, -⟩ | ⟨a, k, bytes, -, heq, -⟩ | ⟨a, k, e, -, -, hstep⟩
    · exact absurd hreq (hno _ _ _)
    · cases heq
    · have hflight : (g.step (.peerReply load.1 load.2 (.error error))).flight load.1
          = (g.flight load.1).advance load.2 .loading :=
        (congrArg (fun g => g.flight load.1) hstep).trans (flight_setFlight_self _ _ _)
      rw [hflight]
      exact turned_advance hwork

/-- A load is failed by a peer once at most. -/
theorem rebuffed_nodup (g : Group ι) (events : List (Event ι)) :
    (ledger rebuffs g events).Nodup := by
  refine (nodup_told (fun _ => True) (fun g load => Turned (g.flight load.1) load.2)
    (fun _ _ h => h) ?_ ?_ ?_ True.intro events).1
  · intro g e
    unfold rebuffs
    split
    next =>
      split
      · exact List.nodup_singleton _
      · exact List.nodup_nil
    next => exact List.nodup_nil
  · exact fun g e load _ h => turned_of_rebuffs h
  · exact fun g e load _ h => turned_step h e

end Group

end PeerCache
