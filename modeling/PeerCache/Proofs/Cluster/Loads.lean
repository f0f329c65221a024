import PeerCache.Proofs.Cluster.RemoteValue
import PeerCache.Proofs.Group.Phases
/-!
# PeerCache — the loads of a cluster

The phases of a load and the entries of a store, followed through the events of a cluster:

* **`Enters`**, **`load?_step`** — a load is queued by a client's lookup or by a question that
  arrives; it goes to the peer that its node's pool picks, or to the source; and a peer that fails
  it leaves it to the source.
* **`entry_of_step`** — a group that keeps no values of peers gets its entries from its own source.
-/

namespace PeerCache

namespace Cluster

variable {c : Cluster} {e : Event} {l : LoadId} {key : String} {phase : Phase}

/-! ## Looking a load up -/

theorem load?_eq (c : Cluster) (l : LoadId) :
    c.load? l = (c.group? l.node l.group).bind fun g => g.load? l.access l.leader := rfl

/-- Where there is a load there is its group. -/
theorem group?_of_load? (h : c.load? l = some (key, phase)) :
    ∃ g, c.group? l.node l.group = some g ∧ g.load? l.access l.leader = some (key, phase) :=
  Option.bind_eq_some_iff.1 h

theorem group?_setPeers (c : Cluster) (j : Nat) (peers : List String) (i : Nat) (name : String) :
    (c.step (.setPeers j peers)).group? i name = c.group? i name :=
  c.group?_updateNode j i name fun _ => rfl

/-! ## One effect -/

/-- An event of one group is felt there only. -/
theorem group?_applied_one (c : Cluster) (f : Effect) (i : Nat) (name : String) :
    (c.applied [f]).group? i name =
      if f.node = i ∧ f.group = name then (c.group? i name).map fun g => g.step f.event
      else c.group? i name :=
  c.group?_updateGroup f.node i f.group name _

/-- After an event of one group a load is in a phase that it was in, or that the event brings it
into in its own group. -/
theorem load?_applied_one {f : Effect} (h : (c.applied [f]).load? l = some (key, phase)) :
    c.load? l = some (key, phase) ∨
    (f.node = l.node ∧ f.group = l.group) ∧ ∃ g, c.group? l.node l.group = some g ∧
      g.Enters l.access l.leader key f.event phase := by
  rw [load?_eq, group?_applied_one] at h
  split at h
  next hat =>
    obtain ⟨g', hg', hload⟩ := Option.bind_eq_some_iff.1 h
    obtain ⟨g, hg, rfl⟩ := Option.map_eq_some_iff.1 hg'
    rcases Group.load?_step hload with hold | henters
    · exact Or.inl (Option.bind_eq_some_iff.2 ⟨g, hg, hold⟩)
    · exact Or.inr ⟨hat, g, hg, henters⟩
  next => exact Or.inl h

/-- A load whose phase the event cannot bring about was in it before. -/
theorem load?_of_quiet {f : Effect} (h : (c.applied [f]).load? l = some (key, phase))
    (hquiet : ∀ g : Group Caller, ¬ g.Enters l.access l.leader key f.event phase) :
    c.load? l = some (key, phase) := by
  rcases load?_applied_one h with hold | ⟨-, g, -, henters⟩
  · exact hold
  · exact absurd henters (hquiet g)

/-- An event that counts nothing leaves the failures of peers. -/
theorem peerErrors?_applied_one {f : Effect}
    (hsame : ∀ g : Group Caller, (g.step f.event).counters = g.counters) :
    (c.applied [f]).peerErrors? l = c.peerErrors? l := by
  unfold peerErrors?
  rw [group?_applied_one]
  split
  · rw [Option.map_map]
    refine congrFun (congrArg Option.map (funext fun g => ?_)) _
    exact congrArg Counters.peerErrors (hsame g)
  · rfl

/-- No failure of a peer is counted when a load goes on. -/
theorem peerErrors?_start (m : LoadId) (picked : Option String) :
    (c.applied [.ofLoad m (.start m.access m.leader picked)]).peerErrors? l = c.peerErrors? l :=
  peerErrors?_applied_one fun g => g.counters_start _ _ _

theorem peerErrors?_deliver (i : Nat) (name : String) (access : Access) (caller : Caller) :
    (c.applied [⟨i, name, .deliver access caller⟩]).peerErrors? l = c.peerErrors? l :=
  peerErrors?_applied_one fun g => Group.counters_setFlight g _ _

/-- A failed question is counted where it was asked, once. -/
theorem peerErrors?_failed {address : String} (error : CacheError)
    (h : c.load? l = some (key, .asking address)) :
    (c.applied [.ofLoad l (.peerReply l.access l.leader (.error error))]).peerErrors? l =
      (c.peerErrors? l).map (· + 1) := by
  obtain ⟨g, hg, hload⟩ := group?_of_load? h
  unfold peerErrors?
  rw [group?_applied_one, if_pos ⟨rfl, rfl⟩, hg]
  exact congrArg some (Group.peerErrors_failed error hload)

/-- A load that asks a peer and has an answer of one behind it that leaves it to the source has got
an error. -/
theorem failed_of_peerReply {m : LoadId} {reply : Except CacheError (List UInt8)}
    (h : (c.applied [.ofLoad m (.peerReply m.access m.leader reply)]).load? l = some (key, phase)) :
    c.load? l = some (key, phase) ∨ phase = .loading ∧ ∃ address,
      c.load? l = some (key, .asking address) ∧
      (c.applied [.ofLoad m (.peerReply m.access m.leader reply)]).peerErrors? l =
        (c.peerErrors? l).map (· + 1) := by
  rcases load?_applied_one h with hold | ⟨⟨hnode, hgroup⟩, g, hg, henters⟩
  · exact Or.inl hold
  · right
    obtain ⟨node, group, access, leader⟩ := l
    obtain ⟨node', group', access', leader'⟩ := m
    cases hnode
    cases hgroup
    cases henters with
    | failed error hasking =>
      have hload : c.load? ⟨node, group, access, leader⟩ = some (key, .asking _) :=
        Option.bind_eq_some_iff.2 ⟨g, hg, hasking⟩
      exact ⟨rfl, _, hload, peerErrors?_failed error hload⟩

/-! ## How a load goes on -/

/-- The event brings the load for a key into a phase. -/
inductive Enters (c : Cluster) (e : Event) (l : LoadId) (key : String) : Phase → Prop where
  /-- A client looks the key up. -/
  | looked {g : Group Caller} (client : Nat) (group : c.group? l.node l.group = some g)
    (event : e = .lookup l.node l.group l.access client key) :
    Enters c e l key (.queued (decide (l.access = .routed) && g.hasRouter))
  /-- The load's node looks the key up for a question. -/
  | served {q : Nat} {x : Question} {n : Node} {p : Peer.Pool} {router : Bool}
    (event : e = .arrive q l.node) (access : l.access = .direct)
    (question : c.questions[q]? = some x) (node : c.nodes[l.node]? = some n)
    (pool : n.pool = some p) (asked : asked? p.basePath x.url = some (l.group, key)) :
    Enters c e l key (.queued router)
  | started {router : Bool} (picked : Option String)
    (queued : c.load? l = some (key, .queued router))
    (pick : c.usesPool l = true → picked = c.peerFor l key) :
    Enters c e l key (Group.firstPhase router picked)
  | failed (baseUrl : String) (fails : c.Fails e l baseUrl key) : Enters c e l key .loading

/-- The load is the one that starts. -/
theorem queued_of_enters {g : Group Caller} {m : LoadId} {picked : Option String}
    (hg : c.group? l.node l.group = some g) (hat : m.node = l.node ∧ m.group = l.group)
    (h : g.Enters l.access l.leader key (.start m.access m.leader picked) phase) :
    m = l ∧ ∃ router, c.load? l = some (key, .queued router) ∧
      phase = Group.firstPhase router picked := by
  obtain ⟨node, group, access, leader⟩ := l
  obtain ⟨node', group', access', leader'⟩ := m
  obtain ⟨rfl, rfl⟩ := hat
  cases h with
  | started _ hqueued => exact ⟨rfl, _, Option.bind_eq_some_iff.2 ⟨g, hg, hqueued⟩, rfl⟩

/-- A queued load that goes on is with the peer that its pool picks, or with the source. -/
theorem enters_of_start {m : LoadId} {k : String} {router : Bool} {picked : Option String}
    (queued : c.load? m = some (k, .queued router))
    (pick : c.usesPool m = true → picked = c.peerFor m k)
    (h : (c.applied [.ofLoad m (.start m.access m.leader picked)]).load? l = some (key, phase)) :
    c.load? l = some (key, phase) ∨ c.Enters e l key phase := by
  rcases load?_applied_one h with hold | ⟨hat, g, hg, henters⟩
  · exact Or.inl hold
  · obtain ⟨rfl, router', hqueued, rfl⟩ := queued_of_enters hg hat henters
    cases queued.symm.trans hqueued
    exact Or.inr (.started picked hqueued pick)

/-- A load that asks a peer as soon as it has started asks the one that its pool has picked. -/
theorem asks_of_start {m : LoadId} {k baseUrl : String} {router : Bool}
    (queued : c.load? m = some (k, .queued router)) (pool : c.usesPool m = true)
    (h : (c.applied [.ofLoad m (.start m.access m.leader (c.peerFor m k))]).load? l
      = some (key, .asking baseUrl)) :
    c.load? l = some (key, .asking baseUrl) ∨
      c.load? l = some (key, .queued true) ∧ c.usesPool l = true ∧
        c.peerFor l key = some baseUrl := by
  rcases load?_applied_one h with hold | ⟨hat, g, hg, henters⟩
  · exact Or.inl hold
  · right
    obtain ⟨rfl, router', hqueued, hphase⟩ := queued_of_enters hg hat henters
    cases queued.symm.trans hqueued
    obtain ⟨rfl, hpeer⟩ := Group.firstPhase_eq_asking.1 hphase.symm
    exact ⟨queued, pool, hpeer⟩

/-- What a load is doing, it did before the event, or the event has brought it there. -/
theorem load?_step (h : (c.step e).load? l = some (key, phase)) :
    c.load? l = some (key, phase) ∨ c.Enters e l key phase := by
  rcases c.move_step e with ⟨j, peers, rfl⟩ | ⟨fs, questions, hmove, hstep⟩
  · rw [load?_eq, group?_setPeers] at h
    exact Or.inl h
  have happlied : (c.applied fs).load? l = some (key, phase) := by
    rw [← load?_moved c fs questions l, ← hstep]
    exact h
  -- Questions do not count, so the failures of peers are those after the effects.
  have herrors : (c.step e).peerErrors? l = (c.applied fs).peerErrors? l := by
    rw [hstep]
    unfold peerErrors?
    rw [show (c.moved fs questions).group? l.node l.group = (c.applied fs).group? l.node l.group
      from (group?_applied _ fs _ _).trans (group?_applied c fs _ _).symm]
  -- Three kinds of moves do nothing but give a load the reply of a peer.
  have hreply : ∀ {m : LoadId} {reply}, fs = [.ofLoad m (.peerReply m.access m.leader reply)] →
      c.load? l = some (key, phase) ∨ c.Enters e l key phase := by
    rintro m reply rfl
    rcases failed_of_peerReply happlied with hold | ⟨rfl, b, hasking, hcounted⟩
    · exact Or.inl hold
    · exact Or.inr (.failed b ⟨Or.inl hasking, h, herrors.trans hcounted⟩)
  cases hmove with
  | idle => exact Or.inl happlied
  | lookup i name access client k =>
    rcases load?_applied_one happlied with hold | ⟨⟨rfl, rfl⟩, g, hg, henters⟩
    · exact Or.inl hold
    · obtain ⟨node, group, access', leader⟩ := l
      cases henters with
      | opened => exact Or.inr (.looked client hg rfl)
  | start m picked owner queued pick => exact enters_of_start queued pick happlied
  -- Asking is a start to the groups; the question is no concern of theirs.
  | ask m picked queued pool => exact enters_of_start queued (fun _ => rfl) happlied
  | unsent m picked queued pool =>
    -- Two effects: the load starts, and fails at once. What is counted is counted by the second.
    rcases failed_of_peerReply (c := c.applied [_]) happlied with
      hold | ⟨rfl, b, hasking, hcounted⟩
    · exact enters_of_start queued (fun _ => rfl) hold
    · rw [peerErrors?_start] at hcounted
      exact Or.inr (.failed b ⟨asks_of_start queued pool hasking, h, herrors.trans hcounted⟩)
  | foreign m reply => exact hreply rfl
  | source => exact Or.inl (load?_of_quiet happlied fun g henters => by cases henters)
  | panic => exact Or.inl (load?_of_quiet happlied fun g henters => by cases henters)
  | lose q => exact hreply rfl
  | refuse q i err question => exact hreply rfl
  | serve q i question node pool asked =>
    rcases load?_applied_one happlied with hold | ⟨⟨rfl, rfl⟩, g, hg, henters⟩
    · exact Or.inl hold
    · obtain ⟨node, group, access', leader⟩ := l
      cases henters with
      | opened => exact Or.inr (.served rfl rfl question node pool asked)
  | respond q question =>
    -- Again two: the outcome is picked up where the question was served, and is a reply where it
    -- was asked.
    have hdeliver : ∀ {i name a} {p}, (c.applied [⟨i, name, .deliver a (.question q)⟩]).load? l
        = some (key, p) → c.load? l = some (key, p) :=
      fun hload => load?_of_quiet hload fun g henters => by cases henters
    rcases failed_of_peerReply (c := c.applied [_]) happlied with
      hold | ⟨rfl, b, hasking, hcounted⟩
    · exact Or.inl (hdeliver hold)
    · rw [peerErrors?_deliver] at hcounted
      exact Or.inr (.failed b ⟨Or.inl (hdeliver hasking), h, herrors.trans hcounted⟩)
  | deliver => exact Or.inl (load?_of_quiet happlied fun g henters => by cases henters)
  | abandon => exact Or.inl (load?_of_quiet happlied fun g henters => by cases henters)

/-- A question was there before the event, or it is what its load asks now. -/
theorem question_step {x : Question} (hx : x ∈ (c.step e).questions) :
    (∃ y ∈ c.questions, x.load = y.load ∧ x.url = y.url) ∨
    ∃ key baseUrl, (c.step e).load? x.load = some (key, .asking baseUrl) ∧
      Peer.request baseUrl x.load.group key = .ok x.url := by
  rcases c.move_step e with ⟨j, peers, rfl⟩ | ⟨fs, questions, hmove, hstep⟩
  · exact Or.inl ⟨x, hx, rfl, rfl⟩
  · have hquestions : (c.step e).questions = questions := by
      rw [hstep]
      exact (applied_frame { c with questions := questions } fs).1
    rw [hquestions] at hx
    obtain ⟨q, hq⟩ := List.mem_iff_getElem?.1 hx
    rcases hmove.question hq with ⟨y, hy, hload, hurl, -⟩ | ⟨-, key, baseUrl, hload, hrequest⟩
    · exact Or.inl ⟨y, List.mem_of_getElem? hy, hload, hurl⟩
    · refine Or.inr ⟨key, baseUrl, ?_, hrequest⟩
      rw [hstep, load?_moved]
      exact hload

/-! ## What a load leaves in a store -/

/-- Every run of a fresh cluster has sound stores only. -/
theorem Fresh.store_sound (hc : c.Fresh) (events : List Event) {i : Nat} {name : String}
    {g : Group Caller} (hg : (c.run events).group? i name = some g) : g.store.Sound := by
  obtain ⟨es, hes⟩ := c.group?_run events i name
  rw [hes] at hg
  obtain ⟨g₀, hg₀, rfl⟩ := Option.map_eq_some_iff.1 hg
  exact (Group.fed_run (hc.unused hg₀).fed es).store

/-- In a group that keeps no values of peers, an entry was there before the event or answers a load
that waits for the source. -/
theorem entry_step {i : Nat} {name : String} {g' : Group Caller} {entry : String × ByteView}
    (hstore : ∀ g, c.group? i name = some g → g.store.Sound)
    (hg' : (c.step e).group? i name = some g') (hpolicy : g'.policy = .skip)
    (h : entry ∈ g'.store.entries) :
    (∃ g, c.group? i name = some g ∧ g.policy = .skip ∧ entry ∈ g.store.entries) ∨
    ∃ access leader, e = .sourceReply ⟨i, name, access, leader⟩ (.ok entry.2.bytes) ∧
      c.load? ⟨i, name, access, leader⟩ = some (entry.1, .loading) := by
  rcases c.move_step e with ⟨j, peers, rfl⟩ | ⟨fs, questions, hmove, hstep⟩
  · rw [group?_setPeers] at hg'
    exact Or.inl ⟨g', hg', hpolicy, h⟩
  rw [hstep, show (c.moved fs questions).group? i name = _ from group?_applied _ fs i name] at hg'
  obtain ⟨g, hg, rfl⟩ := Option.map_eq_some_iff.1 hg'
  have hg : c.group? i name = some g := hg
  rw [Group.policy_run] at hpolicy
  rcases Group.entry_run (hstore g hg) hpolicy h with hold | ⟨access, leader, hmem⟩
  · exact Or.inl ⟨g, hg, hpolicy, hold⟩
  · -- the source's answer is the only event of the group
    obtain ⟨rfl, rfl⟩ := hmove.sourceReply_ok (l := ⟨i, name, access, leader⟩) (mem_eventsAt.1 hmem)
    rw [Effect.ofLoad, eventsAt_self] at h
    have h : entry ∈ (g.step (.sourceReply access leader (.ok entry.2.bytes))).store.entries := h
    rcases Group.entry_step (hstore g hg) hpolicy h with hold | ⟨access', leader', heq, hload⟩
    · exact Or.inl ⟨g, hg, hpolicy, hold⟩
    · cases heq
      exact Or.inr ⟨access, leader, rfl, Option.bind_eq_some_iff.2 ⟨g, hg, hload⟩⟩

end Cluster

end PeerCache
