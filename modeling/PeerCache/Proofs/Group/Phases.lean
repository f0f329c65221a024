import PeerCache.Proofs.Group.Remote
/-!
# PeerCache — the phases of a load

How a load comes to what it is doing, and what it puts into the store, event by event:

* **`Enters`**, **`load?_step`** — a load is queued by a lookup, goes on when it starts, and turns
  to the source when its peer fails.
* **`peerErrors_failed`** — that failure is counted.
* **`entry_step`** — a group that keeps no values of peers gets an entry by an answer of its source
  to a load that waits for it.
-/

namespace PeerCache

/-- What a caller starts is for the key it calls for. -/
theorem Flight.key?_of_call {ι σ α : Type} [DecidableEq ι] {f : Flight ι σ α} {l : ι}
    {key key' : String} {w : σ} (hnone : f.execution? l = none)
    (h : (f.call l key w).key? l = some key') : key' = key := by
  have hold : ∀ {g : Flight ι σ α}, g.execution? l = f.execution? l → g.key? l ≠ some key' := by
    intro g hg
    unfold key?
    rw [hg, hnone]
    simp
  rcases call_cases f l key w with ⟨-, hsame⟩ | ⟨m, -, -, hjoin⟩ | ⟨-, -, hnew⟩
  · rw [hsame] at h
    exact absurd h (hold rfl)
  · rw [hjoin] at h
    exact absurd h (hold rfl)
  · rw [hnew] at h
    unfold key? at h
    have hpush := execution?_push f ⟨l, key, .underway w⟩ l
    rw [hnone, Option.none_or, if_pos rfl] at hpush
    obtain ⟨x, hx, rfl⟩ := Option.map_eq_some_iff.1 h
    cases hpush.symm.trans hx
    rfl

namespace Group

variable {ι : Type} [DecidableEq ι] {g : Group ι} {e : Event ι} {access : Access} {leader : ι}
  {key : String} {phase : Phase}

/-- What is known of a load that has not ended: the key it is for and its phase. -/
def load? (g : Group ι) (access : Access) (leader : ι) : Option (String × Phase) := do
  let phase ← (g.flight access).work? leader
  let key ← (g.flight access).key? leader
  pure (key, phase)

/-- A load is what its board knows of its leader. -/
theorem load?_eq_some : g.load? access leader = some (key, phase) ↔
    (g.flight access).work? leader = some phase ∧ (g.flight access).key? leader = some key := by
  unfold load?
  cases (g.flight access).work? leader with
  | none => simp
  | some p =>
    cases (g.flight access).key? leader with
    | none => simp
    | some k => simp [and_comm]

/-- A load is with a peer exactly if it asks this peer. -/
theorem load?_eq_asking {address : String} : g.load? access leader = some (key, .asking address) ↔
    g.request? access leader = some (.peer address g.name key) := by
  rw [load?_eq_some, request?_eq_peer]
  simp

theorem load?_eq_loading : g.load? access leader = some (key, .loading) ↔
    g.request? access leader = some (.source key) := by
  rw [load?_eq_some, request?_eq_source]

/-! ## How a load goes on -/

/-- The event brings the load for a key into a phase. -/
inductive Enters (g : Group ι) (access : Access) (leader : ι) (key : String) :
    Event ι → Phase → Prop where
  | opened : Enters g access leader key (.lookup leader access key)
      (.queued (decide (access = .routed) && g.hasRouter))
  | started {router : Bool} (picked : Option String)
    (queued : g.load? access leader = some (key, .queued router)) :
    Enters g access leader key (.start access leader picked) (firstPhase router picked)
  | failed {address : String} (error : CacheError)
    (asking : g.load? access leader = some (key, .asking address)) :
    Enters g access leader key (.peerReply access leader (.error error)) .loading

/-- What a load is doing, it did before the event, or the event has brought it there. -/
theorem load?_step (h : (g.step e).load? access leader = some (key, phase)) :
    g.load? access leader = some (key, phase) ∨ g.Enters access leader key e phase := by
  obtain ⟨hwork, hkey⟩ := load?_eq_some.1 h
  -- a load that there is already stays one for its key
  have hkept : ∀ {p}, (g.flight access).work? leader = some p →
      g.load? access leader = some (key, p) := by
    intro p hp
    obtain ⟨k, hk⟩ := key?_of_work? hp
    cases ((g.later_flight_step access e).key? hk).symm.trans hkey
    exact load?_eq_some.2 ⟨hp, hk⟩
  rcases g.flight_step_cases access e with ⟨-, hsame⟩ | ⟨b, hb, hstep⟩
  · rw [hsame] at hwork
    exact Or.inl (hkept hwork)
  · rw [hstep] at hwork
    rcases Flight.work?_step hwork with hold | ⟨rfl, v, hv⟩ | ⟨hnone, k, rfl⟩
    · exact Or.inl (hkept hold)
    · right
      rcases advance_of_boardEvent? hb with
        ⟨router, picked, rfl, hqueued, rfl⟩ | ⟨address, group, k, error, rfl, hreq, rfl⟩
      · exact .started picked (hkept hqueued)
      · exact .failed error (hkept (request?_eq_peer.1 hreq).1)
    · right
      obtain ⟨rfl, -, rfl⟩ := call_of_boardEvent? hb
      rw [hstep] at hkey
      rw [Flight.key?_of_call hnone hkey]
      exact .opened

/-- A peer that fails a load is counted. -/
theorem peerErrors_failed {address : String} (error : CacheError)
    (h : g.load? access leader = some (key, .asking address)) :
    (g.step (.peerReply access leader (.error error))).counters.peerErrors =
      g.counters.peerErrors + 1 := by
  rcases g.peerReply_cases access leader (.error error) with
    ⟨hno, -⟩ | ⟨a, k, bytes, -, heq, -⟩ | ⟨a, k, e, -, -, hstep⟩
  · exact absurd (load?_eq_asking.1 h) (hno _ _ _)
  · cases heq
  · show (g.peerReply access leader (.error error)).counters.peerErrors = _
    rw [hstep, counters_setFlight]
    rfl

/-- A start is not counted. -/
theorem counters_start (g : Group ι) (access : Access) (leader : ι) (picked : Option String) :
    (g.step (.start access leader picked)).counters = g.counters := by
  show (g.start access leader picked).counters = g.counters
  rcases g.start_cases access leader picked with ⟨-, h⟩ | ⟨router, -, h⟩
  · rw [h]
  · rw [h, counters_setFlight]

/-! ## What a load leaves in the store -/

/-- In a group that keeps no values of peers, an entry was there before the event or answers a load
that waits for the source. -/
theorem entry_step (hstore : g.store.Sound) (hpolicy : g.policy = .skip)
    {entry : String × ByteView} (h : entry ∈ (g.step e).store.entries) :
    entry ∈ g.store.entries ∨ ∃ access leader,
      e = .sourceReply access leader (.ok entry.2.bytes) ∧
        g.load? access leader = some (entry.1, .loading) := by
  rcases (store_step hstore e).2 entry h with hold | ⟨s, hs, hof, hremote⟩
  · exact Or.inl hold
  · right
    have hsource : s.request = .source entry.1 := by
      rcases hof.request with hsource | ⟨address, hpeer⟩
      · exact hsource
      · have hkeeps := hremote (by rw [hpeer]; rfl)
        rw [hpolicy] at hkeeps
        cases hkeeps
    have hreq := request?_of_mem_supplies hs
    rw [hsource] at hreq
    refine ⟨s.access, s.leader, ?_, load?_eq_loading.2 hreq⟩
    rw [← hof.bytes]
    rcases brings_of_mem_supplies hs with rfl | rfl
    · simp only [supplies, hreq] at hs
      cases hs
    · rfl

/-- In a group that keeps no values of peers, an entry that was not there at first is an answer of
the source. -/
theorem entry_run {events : List (Event ι)} (hstore : g.store.Sound) (hpolicy : g.policy = .skip)
    {entry : String × ByteView} (h : entry ∈ (g.run events).store.entries) :
    entry ∈ g.store.entries ∨
      ∃ access leader, .sourceReply access leader (.ok entry.2.bytes) ∈ events := by
  induction events generalizing g with
  | nil => exact Or.inl h
  | cons e es ih =>
    rcases ih (store_step hstore e).1 ((g.identity_step e).2.trans hpolicy) h with
      hold | ⟨access, leader, hmem⟩
    · rcases entry_step hstore hpolicy hold with hold | ⟨access, leader, rfl, -⟩
      · exact Or.inl hold
      · exact Or.inr ⟨access, leader, List.mem_cons_self⟩
    · exact Or.inr ⟨access, leader, List.mem_cons_of_mem e hmem⟩

theorem policy_run (g : Group ι) (events : List (Event ι)) : (g.run events).policy = g.policy := by
  induction events generalizing g with
  | nil => rfl
  | cons e es ih => exact (ih (g.step e)).trans (g.identity_step e).2

end Group

end PeerCache
