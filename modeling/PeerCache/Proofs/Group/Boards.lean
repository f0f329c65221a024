import PeerCache.Group.History
import PeerCache.Proofs.Flight.Outcomes
/-!
# PeerCache — the steps of a group and its boards

What each event of a group can do, said once, and how a group's run looks on each of its boards:

* **`lookup_cases`, `start_cases`, `peerReply_cases`, `sourceReply_cases`, `panic_cases`** — the
  inversion of one event. What a load waits for is told by its `request?`.
* **`boardEvent?`** — the one event that an event of the group is for a board, if it is any;
  **`flight_step`** says that the board takes it. So every fact about runs of a board is a fact
  about a group: `flight_run`, `later_flight_step`.
* **`staysLocal_step`** — the direct board never waits for a peer.
-/

namespace PeerCache

namespace Group

variable {ι : Type}

/-! ## Parts of a group -/

@[simp] theorem flight_setFlight_self (g : Group ι) (access : Access)
    (f : Flight ι Phase ByteView) : (g.setFlight access f).flight access = f := by
  cases access with
  | routed => rfl
  | direct => rfl

theorem flight_setFlight_of_ne (g : Group ι) {access a : Access} (h : a ≠ access)
    (f : Flight ι Phase ByteView) : (g.setFlight access f).flight a = g.flight a := by
  cases access with
  | routed =>
    cases a with
    | routed => exact absurd rfl h
    | direct => rfl
  | direct =>
    cases a with
    | routed => rfl
    | direct => exact absurd rfl h

/-- What changes on a board leaves the rest of the group alone. -/
theorem setFlight_frame (g : Group ι) (access : Access) (f : Flight ι Phase ByteView) :
    (g.setFlight access f).name = g.name ∧ (g.setFlight access f).policy = g.policy ∧
      (g.setFlight access f).store = g.store ∧ (g.setFlight access f).hasRouter = g.hasRouter ∧
      (g.setFlight access f).counters = g.counters ∧
      (g.setFlight access f).immediate = g.immediate ∧
      (g.setFlight access f).evicted = g.evicted ∧ (g.setFlight access f).callers = g.callers := by
  cases access with
  | routed => exact ⟨rfl, rfl, rfl, rfl, rfl, rfl, rfl, rfl⟩
  | direct => exact ⟨rfl, rfl, rfl, rfl, rfl, rfl, rfl, rfl⟩

@[simp] theorem name_setFlight (g : Group ι) (access : Access) (f : Flight ι Phase ByteView) :
    (g.setFlight access f).name = g.name := (setFlight_frame g access f).1

@[simp] theorem policy_setFlight (g : Group ι) (access : Access) (f : Flight ι Phase ByteView) :
    (g.setFlight access f).policy = g.policy := (setFlight_frame g access f).2.1

@[simp] theorem store_setFlight (g : Group ι) (access : Access) (f : Flight ι Phase ByteView) :
    (g.setFlight access f).store = g.store := (setFlight_frame g access f).2.2.1

@[simp] theorem hasRouter_setFlight (g : Group ι) (access : Access) (f : Flight ι Phase ByteView) :
    (g.setFlight access f).hasRouter = g.hasRouter := (setFlight_frame g access f).2.2.2.1

@[simp] theorem counters_setFlight (g : Group ι) (access : Access) (f : Flight ι Phase ByteView) :
    (g.setFlight access f).counters = g.counters := (setFlight_frame g access f).2.2.2.2.1

@[simp] theorem immediate_setFlight (g : Group ι) (access : Access)
    (f : Flight ι Phase ByteView) : (g.setFlight access f).immediate = g.immediate :=
  (setFlight_frame g access f).2.2.2.2.2.1

@[simp] theorem callers_setFlight (g : Group ι) (access : Access) (f : Flight ι Phase ByteView) :
    (g.setFlight access f).callers = g.callers := (setFlight_frame g access f).2.2.2.2.2.2.2

@[simp] theorem flight_count (g : Group ι) (f : Counters → Counters) (access : Access) :
    (g.count f).flight access = g.flight access := by
  cases access with
  | routed => rfl
  | direct => rfl

@[simp] theorem flight_keep (g : Group ι) (key : String) (value : ByteView) (access : Access) :
    (g.keep key value).flight access = g.flight access := by
  cases access with
  | routed => rfl
  | direct => rfl

/-- The boards are told of by two fields only. -/
theorem flight_eq_of_fields {g h : Group ι} (hrouted : g.routed = h.routed)
    (hdirect : g.direct = h.direct) (access : Access) : g.flight access = h.flight access := by
  cases access with
  | routed => exact hrouted
  | direct => exact hdirect

theorem flight_setFlight (g : Group ι) (access a : Access) (f : Flight ι Phase ByteView) :
    (g.setFlight a f).flight access = if a = access then f else g.flight access := by
  by_cases h : a = access
  · subst h
    rw [flight_setFlight_self, if_pos rfl]
  · rw [flight_setFlight_of_ne g (fun heq => h heq.symm), if_neg h]

variable [DecidableEq ι]

/-! ## One event -/

/-- A group gets a router or has one already, and is otherwise as it was. -/
theorem step_registerPeers (g : Group ι) :
    g.step .registerPeers = { g with hasRouter := true } := by
  show g.registerPeers.toOption.getD g = _
  unfold registerPeers
  split
  next hrouter =>
    show g = _
    rw [← hrouter]
  next => rfl

/-- What a lookup can do: nothing, if its caller has called before; answer at once that a key is
needed; answer at once by a hit; or call on the board. -/
theorem lookup_cases (g : Group ι) (caller : ι) (access : Access) (key : String) :
    (caller ∈ g.callers ∧ g.lookup caller access key = g) ∨
    (caller ∉ g.callers ∧ key = "" ∧
      g.lookup caller access key =
        { g with
          callers := g.callers ++ [caller]
          immediate := g.immediate ++ [(caller, .error keyRequired)] }) ∨
    (∃ value, caller ∉ g.callers ∧ key ≠ "" ∧ (g.store.get key).2 = some value ∧
      g.lookup caller access key =
        { g with
          callers := g.callers ++ [caller]
          counters := { g.counters with
            gets := g.counters.gets + 1
            hits := g.counters.hits + 1 }
          store := (g.store.get key).1
          immediate := g.immediate ++ [(caller, .ok value)] }) ∨
    (caller ∉ g.callers ∧ key ≠ "" ∧ (g.store.get key).2 = none ∧
      g.lookup caller access key =
        { g with
          callers := g.callers ++ [caller]
          counters := { g.counters with gets := g.counters.gets + 1 }
          store := (g.store.get key).1 }.setFlight access
            ((g.flight access).call caller key
              (.queued (decide (access = Access.routed) && g.hasRouter)))) := by
  unfold lookup
  by_cases hcalled : caller ∈ g.callers
  · exact Or.inl ⟨hcalled, if_pos hcalled⟩
  · right
    rw [if_neg hcalled]
    by_cases hkey : key = ""
    · exact Or.inl ⟨hcalled, hkey, if_pos hkey⟩
    · right
      rw [if_neg hkey]
      -- The lookup in the store comes after the count, which does not touch the store.
      have hcount : (({ g with callers := g.callers ++ [caller] } : Group ι).count
          fun c => { c with gets := c.gets + 1 }).store.get key = g.store.get key := rfl
      obtain ⟨store, value, hget⟩ : ∃ store value, g.store.get key = (store, value) :=
        ⟨_, _, rfl⟩
      simp only [hcount, hget]
      cases value with
      | some value => exact Or.inl ⟨value, hcalled, hkey, rfl, rfl⟩
      | none =>
        refine Or.inr ⟨hcalled, hkey, rfl, ?_⟩
        cases access <;> rfl

/-! ## What a load asks for -/

/-- A load asks a peer exactly if it is underway with it; it asks for its key, in the name of the
group. -/
theorem request?_eq_peer {g : Group ι} {access : Access} {leader : ι}
    {address group key : String} :
    g.request? access leader = some (.peer address group key) ↔
      (g.flight access).work? leader = some (.asking address) ∧
        (g.flight access).key? leader = some key ∧ g.name = group := by
  unfold request?
  cases hwork : (g.flight access).work? leader with
  | none => simp
  | some phase =>
    cases hkey : (g.flight access).key? leader with
    | none => cases phase <;> simp
    | some k =>
      cases phase with
      | queued router => simp
      | asking peer => simp [and_comm, and_left_comm]
      | loading => simp

/-- A load asks the source exactly if it is underway with it. -/
theorem request?_eq_source {g : Group ι} {access : Access} {leader : ι} {key : String} :
    g.request? access leader = some (.source key) ↔
      (g.flight access).work? leader = some .loading ∧
        (g.flight access).key? leader = some key := by
  unfold request?
  cases hwork : (g.flight access).work? leader with
  | none => simp
  | some phase =>
    cases hkey : (g.flight access).key? leader with
    | none => cases phase <;> simp
    | some k =>
      cases phase with
      | queued router => simp
      | asking peer => simp
      | loading => simp

/-! ## The events of a load -/

/-- What a load does when it starts: it asks the peer that was picked for it, else the source. -/
def firstPhase (router : Bool) (picked : Option String) : Phase :=
  match (if router then picked else none) with
  | some peer => .asking peer
  | none => .loading

/-- A load goes to a peer exactly if it has a router that picks one. -/
theorem firstPhase_eq_asking {router : Bool} {picked : Option String} {peer : String} :
    firstPhase router picked = .asking peer ↔ router = true ∧ picked = some peer := by
  cases router <;> cases picked <;> simp [firstPhase]

/-- It goes to the source exactly if there is no router or it picks nobody. -/
theorem firstPhase_eq_loading {router : Bool} {picked : Option String} :
    firstPhase router picked = .loading ↔ (router = true → picked = none) := by
  cases router <;> cases picked <;> simp [firstPhase]

/-- What a start can do: nothing, or a queued load goes to the peer that is picked or to the
source. -/
theorem start_cases (g : Group ι) (access : Access) (leader : ι) (picked : Option String) :
    ((∀ router, (g.flight access).work? leader ≠ some (.queued router)) ∧
      g.start access leader picked = g) ∨
    ∃ router, (g.flight access).work? leader = some (.queued router) ∧
      g.start access leader picked =
        g.setFlight access ((g.flight access).advance leader (firstPhase router picked)) := by
  unfold start
  cases hwork : (g.flight access).work? leader with
  | none => exact Or.inl ⟨by rintro router ⟨⟩, rfl⟩
  | some phase =>
    cases phase with
    | queued router => exact Or.inr ⟨router, rfl, rfl⟩
    | asking peer => exact Or.inl ⟨by rintro router ⟨⟩, rfl⟩
    | loading => exact Or.inl ⟨by rintro router ⟨⟩, rfl⟩

/-- A load that has not ended is for a key. -/
theorem key?_of_work? {f : Flight ι Phase ByteView} {leader : ι} {phase : Phase}
    (hwork : f.work? leader = some phase) : ∃ key, f.key? leader = some key := by
  obtain ⟨key, hx⟩ := Flight.work?_eq_some.1 hwork
  exact ⟨key, Option.map_eq_some_iff.2 ⟨_, hx, rfl⟩⟩

/-- What an answer of a peer can do: nothing, if none was asked; end the load by a value, counted
and kept; or count the failure and turn the load to the source. -/
theorem peerReply_cases (g : Group ι) (access : Access) (leader : ι)
    (reply : Except CacheError (List UInt8)) :
    ((∀ address group key, g.request? access leader ≠ some (.peer address group key)) ∧
      g.peerReply access leader reply = g) ∨
    (∃ address key bytes, g.request? access leader = some (.peer address g.name key) ∧
      reply = .ok bytes ∧
      g.peerReply access leader reply =
        (if g.policy = .populate then
          (g.count fun c => { c with peerLoads := c.peerLoads + 1 }).keep key ⟨bytes⟩
        else g.count fun c => { c with peerLoads := c.peerLoads + 1 }).setFlight access
          ((g.flight access).finish leader (.value ⟨bytes⟩))) ∨
    (∃ address key e, g.request? access leader = some (.peer address g.name key) ∧
      reply = .error e ∧
      g.peerReply access leader reply =
        (g.count fun c => { c with peerErrors := c.peerErrors + 1 }).setFlight access
          ((g.flight access).advance leader .loading)) := by
  -- Was a peer asked? Only then does the reply find a load to end or to turn.
  by_cases hreq : ∃ address group key, g.request? access leader = some (.peer address group key)
  · obtain ⟨address, group, key, hreq⟩ := hreq
    obtain ⟨hwork, hkey, rfl⟩ := request?_eq_peer.1 hreq
    right
    unfold peerReply
    rw [hwork, hkey]
    cases reply with
    | ok bytes =>
      refine Or.inl ⟨address, key, bytes, hreq, rfl, ?_⟩
      unfold Group.finish
      -- By the policy the value is kept or not; either way it is counted first.
      by_cases hpolicy : g.policy = .populate
      · have hcount : (g.count fun c => { c with peerLoads := c.peerLoads + 1 }).policy
            = .populate := hpolicy
        simp only [if_pos hpolicy, if_pos hcount]
        cases access <;> rfl
      · have hcount : ¬ (g.count fun c => { c with peerLoads := c.peerLoads + 1 }).policy
            = .populate := hpolicy
        simp only [if_neg hpolicy, if_neg hcount]
        cases access <;> rfl
    | error e =>
      refine Or.inr ⟨address, key, e, hreq, rfl, ?_⟩
      cases access <;> rfl
  · left
    refine ⟨fun address group key h => hreq ⟨address, group, key, h⟩, ?_⟩
    unfold peerReply
    cases hwork : (g.flight access).work? leader with
    | none => rfl
    | some phase =>
      cases phase with
      | queued router => rfl
      | loading => rfl
      | asking peer =>
        obtain ⟨key, hkey⟩ := key?_of_work? hwork
        exact absurd ⟨peer, g.name, key, request?_eq_peer.2 ⟨hwork, hkey, rfl⟩⟩ hreq

/-- What an answer of the source can do: nothing, if it was not asked; end the load by a value, kept
and counted; or end it by a failure. -/
theorem sourceReply_cases (g : Group ι) (access : Access) (leader : ι)
    (reply : Except String (List UInt8)) :
    ((∀ key, g.request? access leader ≠ some (.source key)) ∧
      g.sourceReply access leader reply = g) ∨
    (∃ key bytes, g.request? access leader = some (.source key) ∧ reply = .ok bytes ∧
      g.sourceReply access leader reply =
        ((g.keep key ⟨bytes⟩).count fun c => { c with localLoads := c.localLoads + 1 }).setFlight
          access ((g.flight access).finish leader (.value ⟨bytes⟩))) ∨
    (∃ key text, g.request? access leader = some (.source key) ∧ reply = .error text ∧
      g.sourceReply access leader reply =
        (g.count fun c => { c with localErrors := c.localErrors + 1 }).setFlight access
          ((g.flight access).finish leader (.failed (.source text)))) := by
  -- As for a peer, the answer does something only where it was asked for.
  by_cases hreq : ∃ key, g.request? access leader = some (.source key)
  · obtain ⟨key, hreq⟩ := hreq
    obtain ⟨hwork, hkey⟩ := request?_eq_source.1 hreq
    right
    unfold sourceReply
    rw [hwork, hkey]
    cases reply with
    | ok bytes =>
      refine Or.inl ⟨key, bytes, hreq, rfl, ?_⟩
      cases access <;> rfl
    | error text =>
      refine Or.inr ⟨key, text, hreq, rfl, ?_⟩
      cases access <;> rfl
  · left
    refine ⟨fun key h => hreq ⟨key, h⟩, ?_⟩
    unfold sourceReply
    cases hwork : (g.flight access).work? leader with
    | none => rfl
    | some phase =>
      cases phase with
      | queued router => rfl
      | asking peer => rfl
      | loading =>
        obtain ⟨key, hkey⟩ := key?_of_work? hwork
        exact absurd ⟨key, request?_eq_source.2 ⟨hwork, hkey⟩⟩ hreq

/-- What a panic can do: nothing, or end a load that is underway. -/
theorem panic_cases (g : Group ι) (access : Access) (leader : ι) (text : String) :
    (g.request? access leader = none ∧ g.panic access leader text = g) ∨
    ∃ request, g.request? access leader = some request ∧
      g.panic access leader text =
        g.setFlight access ((g.flight access).finish leader (.panicked text)) := by
  unfold panic request?
  cases hwork : (g.flight access).work? leader with
  | none => exact Or.inl ⟨rfl, rfl⟩
  | some phase =>
    obtain ⟨key, hkey⟩ := key?_of_work? hwork
    rw [hkey]
    cases phase with
    | queued router => exact Or.inl ⟨rfl, rfl⟩
    | asking peer => exact Or.inr ⟨_, rfl, rfl⟩
    | loading => exact Or.inr ⟨_, rfl, rfl⟩

/-! ## What stays

Only a lookup adds callers and immediate answers; nothing changes what a group is called and what
it does with the values of peers, and a router stays. -/

/-- The two groups agree in everything that only a lookup changes, or nothing does. -/
structure Akin (g h : Group ι) : Prop where
  name : h.name = g.name
  policy : h.policy = g.policy
  callers : h.callers = g.callers
  immediate : h.immediate = g.immediate
  router : g.hasRouter = true → h.hasRouter = true

omit [DecidableEq ι] in
theorem Akin.setFlight {g h : Group ι} (hg : Akin g h) (access : Access)
    (f : Flight ι Phase ByteView) : Akin g (h.setFlight access f) where
  name := (name_setFlight h access f).trans hg.name
  policy := (policy_setFlight h access f).trans hg.policy
  callers := (callers_setFlight h access f).trans hg.callers
  immediate := (immediate_setFlight h access f).trans hg.immediate
  router := fun hrouter => (hasRouter_setFlight h access f).trans (hg.router hrouter)

/-- An event that is no lookup brings nobody in, and leaves the group what it is. -/
theorem akin_step {g : Group ι} {e : Event ι}
    (hlookup : ∀ caller access key, e ≠ .lookup caller access key) : Akin g (g.step e) := by
  have hself : Akin g g := ⟨rfl, rfl, rfl, rfl, id⟩
  -- One case for each event but the lookup: what it can do is a count, a value kept, and a board.
  cases e with
  | registerPeers =>
    rw [step_registerPeers]
    exact ⟨rfl, rfl, rfl, rfl, fun _ => rfl⟩
  | lookup caller access key => exact absurd rfl (hlookup caller access key)
  | start access leader picked =>
    show Akin g (g.start access leader picked)
    rcases g.start_cases access leader picked with ⟨-, h⟩ | ⟨router, -, h⟩
    · rw [h]
      exact hself
    · rw [h]
      exact hself.setFlight access _
  | peerReply access leader reply =>
    show Akin g (g.peerReply access leader reply)
    rcases g.peerReply_cases access leader reply with
      ⟨-, h⟩ | ⟨address, key, bytes, -, -, h⟩ | ⟨address, key, e, -, -, h⟩
    · rw [h]
      exact hself
    · rw [h]
      refine Akin.setFlight ?_ access _
      split
      · exact ⟨rfl, rfl, rfl, rfl, id⟩
      · exact ⟨rfl, rfl, rfl, rfl, id⟩
    · rw [h]
      refine Akin.setFlight ?_ access _
      exact ⟨rfl, rfl, rfl, rfl, id⟩
  | sourceReply access leader reply =>
    show Akin g (g.sourceReply access leader reply)
    rcases g.sourceReply_cases access leader reply with
      ⟨-, h⟩ | ⟨key, bytes, -, -, h⟩ | ⟨key, text, -, -, h⟩
    · rw [h]
      exact hself
    · rw [h]
      refine Akin.setFlight ?_ access _
      exact ⟨rfl, rfl, rfl, rfl, id⟩
    · rw [h]
      refine Akin.setFlight ?_ access _
      exact ⟨rfl, rfl, rfl, rfl, id⟩
  | panic access leader text =>
    show Akin g (g.panic access leader text)
    rcases g.panic_cases access leader text with ⟨-, h⟩ | ⟨request, -, h⟩
    · rw [h]
      exact hself
    · rw [h]
      exact hself.setFlight access _
  | deliver access caller => exact hself.setFlight access _
  | abandon access caller => exact hself.setFlight access _

/-- An event is a lookup, or it leaves everything that only a lookup changes. -/
theorem lookup_or_akin (g : Group ι) (e : Event ι) :
    (∃ caller access key, e = .lookup caller access key) ∨ Akin g (g.step e) := by
  by_cases hlookup : ∃ caller access key, e = .lookup caller access key
  · exact Or.inl hlookup
  · exact Or.inr (akin_step fun caller access key heq => hlookup ⟨caller, access, key, heq⟩)

/-- Name and policy of a group never change. -/
theorem identity_step (g : Group ι) (e : Event ι) :
    (g.step e).name = g.name ∧ (g.step e).policy = g.policy := by
  rcases g.lookup_or_akin e with ⟨caller, access, key, rfl⟩ | hakin
  · show (g.lookup caller access key).name = g.name ∧ (g.lookup caller access key).policy = g.policy
    rcases g.lookup_cases caller access key with
      ⟨-, h⟩ | ⟨-, -, h⟩ | ⟨value, -, -, -, h⟩ | ⟨-, -, -, h⟩
    · rw [h]
      exact ⟨rfl, rfl⟩
    · rw [h]
      exact ⟨rfl, rfl⟩
    · rw [h]
      exact ⟨rfl, rfl⟩
    · rw [h]
      exact ⟨name_setFlight _ _ _, policy_setFlight _ _ _⟩
  · exact ⟨hakin.name, hakin.policy⟩

/-- A group that has a router keeps it. -/
theorem hasRouter_step {g : Group ι} (hrouter : g.hasRouter = true) (e : Event ι) :
    (g.step e).hasRouter = true := by
  rcases g.lookup_or_akin e with ⟨caller, access, key, rfl⟩ | hakin
  · show (g.lookup caller access key).hasRouter = true
    rcases g.lookup_cases caller access key with
      ⟨-, h⟩ | ⟨-, -, h⟩ | ⟨value, -, -, -, h⟩ | ⟨-, -, -, h⟩
    · rw [h]
      exact hrouter
    · rw [h]
      exact hrouter
    · rw [h]
      exact hrouter
    · rw [h, hasRouter_setFlight]
      exact hrouter
  · exact hakin.router hrouter

/-! ## Callers -/

/-- After a lookup its caller has called. -/
theorem callers_lookup (g : Group ι) (caller : ι) (access : Access) (key : String) :
    caller ∈ (g.lookup caller access key).callers ∧
      ∀ c, c ∈ g.callers → c ∈ (g.lookup caller access key).callers := by
  have hpush : caller ∈ g.callers ++ [caller] ∧ ∀ c, c ∈ g.callers → c ∈ g.callers ++ [caller] :=
    ⟨List.mem_append_right _ (List.mem_singleton.2 rfl), fun _ hc => List.mem_append_left _ hc⟩
  rcases g.lookup_cases caller access key with
    ⟨hcalled, h⟩ | ⟨-, -, h⟩ | ⟨value, -, -, -, h⟩ | ⟨-, -, -, h⟩
  · rw [h]
    exact ⟨hcalled, fun _ hc => hc⟩
  · rw [h]
    exact hpush
  · rw [h]
    exact hpush
  · rw [h, callers_setFlight]
    exact hpush

/-- A lookup brings in its caller only. -/
theorem mem_callers_lookup {g : Group ι} {caller c : ι} {access : Access} {key : String}
    (h : c ∈ (g.lookup caller access key).callers) : c ∈ g.callers ∨ c = caller := by
  rcases g.lookup_cases caller access key with
    ⟨-, heq⟩ | ⟨-, -, heq⟩ | ⟨value, -, -, -, heq⟩ | ⟨-, -, -, heq⟩
  · exact Or.inl (heq ▸ h)
  · simpa [heq] using h
  · simpa [heq] using h
  · simpa [heq] using h

theorem callers_step {g : Group ι} {c : ι} (hc : c ∈ g.callers) (e : Event ι) :
    c ∈ (g.step e).callers := by
  rcases g.lookup_or_akin e with ⟨caller, access, key, rfl⟩ | hakin
  · exact (g.callers_lookup caller access key).2 c hc
  · rw [hakin.callers]
    exact hc

/-- Who has called has called, however long ago. -/
theorem callers_run {g : Group ι} {c : ι} (hc : c ∈ g.callers) (events : List (Event ι)) :
    c ∈ (g.run events).callers := by
  induction events generalizing g with
  | nil => exact hc
  | cons e es ih => exact ih (callers_step hc e)

/-! ## The boards of a run

An event of the group is at most one event of each board. -/

/-- What an event is for the board of one way in. -/
def boardEvent? (g : Group ι) (access : Access) :
    Event ι → Option (Flight.Event ι Phase ByteView)
  | .registerPeers => none
  | .lookup caller a key =>
    if a = access ∧ caller ∉ g.callers ∧ key ≠ "" ∧ (g.store.get key).2 = none then
      some (.call caller key (.queued (decide (access = Access.routed) && g.hasRouter)))
    else none
  | .start a leader picked =>
    if a = access then
      match (g.flight access).work? leader with
      | some (.queued router) => some (.advance leader (firstPhase router picked))
      | _ => none
    else none
  | .peerReply a leader reply =>
    if a = access then
      match g.request? access leader, reply with
      | some (.peer _ _ _), .ok bytes => some (.finish leader (.value ⟨bytes⟩))
      | some (.peer _ _ _), .error _ => some (.advance leader .loading)
      | _, _ => none
    else none
  | .sourceReply a leader reply =>
    if a = access then
      match g.request? access leader, reply with
      | some (.source _), .ok bytes => some (.finish leader (.value ⟨bytes⟩))
      | some (.source _), .error text => some (.finish leader (.failed (.source text)))
      | _, _ => none
    else none
  | .panic a leader text =>
    if a = access then (g.request? access leader).map fun _ => .finish leader (.panicked text)
    else none
  | .deliver a caller => if a = access then some (.deliver caller) else none
  | .abandon a caller => if a = access then some (.abandon caller) else none

/-- What a run is for the board of one way in. -/
def boardEvents (g : Group ι) (access : Access) :
    List (Event ι) → List (Flight.Event ι Phase ByteView)
  | [] => []
  | e :: es => (g.boardEvent? access e).toList ++ (g.step e).boardEvents access es

/-- A board that an event does not change takes none. -/
theorem flight_kept {g h : Group ι} {access : Access}
    {o : Option (Flight.Event ι Phase ByteView)} (hsame : h.flight access = g.flight access)
    (ho : o = none) : h.flight access = (g.flight access).run o.toList := by
  rw [ho, hsame]
  rfl

/-- The board of way in `a` takes `b`, and the other board nothing. -/
theorem flight_taken (g : Group ι) {h : Group ι} {a access : Access}
    (b : Flight.Event ι Phase ByteView) {o : Option (Flight.Event ι Phase ByteView)}
    (hsame : h.flight access = g.flight access) (hself : a = access → o = some b)
    (hother : a ≠ access → o = none) :
    (h.setFlight a ((g.flight a).step b)).flight access = (g.flight access).run o.toList := by
  rw [flight_setFlight]
  by_cases ha : a = access
  · rw [if_pos ha, hself ha, ha]
    rfl
  · rw [if_neg ha, hother ha, hsame]
    rfl

/-- An event of a group is one event on a board at most. -/
theorem flight_step (g : Group ι) (access : Access) (e : Event ι) :
    (g.step e).flight access = (g.flight access).run (g.boardEvent? access e).toList := by
  -- For each event, and each thing that it can do: the event that `boardEvent?` gives to the board
  -- it is for does this there, and the other board gets none.
  cases e with
  | registerPeers =>
    refine flight_kept ?_ rfl
    rw [step_registerPeers]
    exact flight_eq_of_fields rfl rfl access
  | lookup caller a key =>
    -- Only a miss of a new caller comes to the board.
    show (g.lookup caller a key).flight access = _
    simp only [boardEvent?]
    rcases g.lookup_cases caller a key with
      ⟨hcalled, h⟩ | ⟨-, hkey, h⟩ | ⟨value, -, -, hget, h⟩ | ⟨hcalled, hkey, hget, h⟩
    · rw [h]
      exact flight_kept rfl (if_neg fun hif => hif.2.1 hcalled)
    · rw [h]
      exact flight_kept (flight_eq_of_fields rfl rfl access) (if_neg fun hif => hif.2.2.1 hkey)
    · rw [h]
      refine flight_kept (flight_eq_of_fields rfl rfl access) (if_neg fun hif => ?_)
      rw [hget] at hif
      cases hif.2.2.2
    · rw [h]
      refine flight_taken g (.call caller key _) (flight_eq_of_fields rfl rfl access)
        (fun ha => ?_) (fun ha => if_neg fun hif => ha hif.1)
      rw [if_pos ⟨ha, hcalled, hkey, hget⟩, ha]
  | start a leader picked =>
    show (g.start a leader picked).flight access = _
    simp only [boardEvent?]
    rcases g.start_cases a leader picked with ⟨hwork, h⟩ | ⟨router, hwork, h⟩
    · rw [h]
      refine flight_kept rfl ?_
      split
      next ha =>
        subst ha
        split
        next router hqueued => exact absurd hqueued (hwork router)
        next => rfl
      next => rfl
    · rw [h]
      refine flight_taken g (.advance leader _) rfl (fun ha => ?_) (fun ha => if_neg ha)
      subst ha
      simp only [if_true, hwork]
  | peerReply a leader reply =>
    show (g.peerReply a leader reply).flight access = _
    simp only [boardEvent?]
    rcases g.peerReply_cases a leader reply with
      ⟨hreq, h⟩ | ⟨address, key, bytes, hreq, rfl, h⟩ | ⟨address, key, e, hreq, rfl, h⟩
    · rw [h]
      refine flight_kept rfl ?_
      split
      next ha =>
        subst ha
        split
        next hpeer => exact absurd hpeer (hreq _ _ _)
        next hpeer => exact absurd hpeer (hreq _ _ _)
        next => rfl
      next => rfl
    · rw [h]
      refine flight_taken g (.finish leader _) ?_ (fun ha => ?_) (fun ha => if_neg ha)
      · split
        · exact (flight_keep _ key _ access).trans (flight_count g _ access)
        · exact flight_count g _ access
      · subst ha
        simp only [if_true, hreq]
    · rw [h]
      refine flight_taken g (.advance leader .loading) (flight_count g _ access) (fun ha => ?_)
        (fun ha => if_neg ha)
      subst ha
      simp only [if_true, hreq]
  | sourceReply a leader reply =>
    show (g.sourceReply a leader reply).flight access = _
    simp only [boardEvent?]
    rcases g.sourceReply_cases a leader reply with
      ⟨hreq, h⟩ | ⟨key, bytes, hreq, rfl, h⟩ | ⟨key, text, hreq, rfl, h⟩
    · rw [h]
      refine flight_kept rfl ?_
      split
      next ha =>
        subst ha
        split
        next hsource => exact absurd hsource (hreq _)
        next hsource => exact absurd hsource (hreq _)
        next => rfl
      next => rfl
    · rw [h]
      refine flight_taken g (.finish leader _)
        ((flight_count _ _ access).trans (flight_keep g key _ access)) (fun ha => ?_)
        (fun ha => if_neg ha)
      subst ha
      simp only [if_true, hreq]
    · rw [h]
      refine flight_taken g (.finish leader _) (flight_count g _ access) (fun ha => ?_)
        (fun ha => if_neg ha)
      subst ha
      simp only [if_true, hreq]
  | panic a leader text =>
    show (g.panic a leader text).flight access = _
    simp only [boardEvent?]
    rcases g.panic_cases a leader text with ⟨hreq, h⟩ | ⟨request, hreq, h⟩
    · rw [h]
      refine flight_kept rfl ?_
      split
      next ha =>
        subst ha
        rw [hreq]
        rfl
      next => rfl
    · rw [h]
      refine flight_taken g (.finish leader _) rfl (fun ha => ?_) (fun ha => if_neg ha)
      subst ha
      rw [if_pos rfl, hreq]
      rfl
  | deliver a caller =>
    exact flight_taken g (.deliver caller) rfl (fun ha => if_pos ha) (fun ha => if_neg ha)
  | abandon a caller =>
    exact flight_taken g (.abandon caller) rfl (fun ha => if_pos ha) (fun ha => if_neg ha)

/-- A run of a group is, on each board, a run of the board. -/
theorem flight_run (g : Group ι) (access : Access) (events : List (Event ι)) :
    (g.run events).flight access = (g.flight access).run (g.boardEvents access events) := by
  induction events generalizing g with
  | nil => rfl
  | cons e es ih =>
    show ((g.step e).run es).flight access
      = (g.flight access).run ((g.boardEvent? access e).toList ++ (g.step e).boardEvents access es)
    rw [Flight.run_append, ← flight_step, ih (g.step e)]

/-! ## What brings an event to a board -/

/-- A value from a peer that was asked is supplied by it. -/
theorem supplies_peerReply {g : Group ι} {access : Access} {leader : ι}
    {address group key : String} (bytes : List UInt8)
    (h : g.request? access leader = some (.peer address group key)) :
    g.supplies (.peerReply access leader (.ok bytes))
      = [⟨access, leader, .peer address group key, bytes⟩] := by
  simp only [supplies, h]

theorem supplies_sourceReply {g : Group ι} {access : Access} {leader : ι} {key : String}
    (bytes : List UInt8) (h : g.request? access leader = some (.source key)) :
    g.supplies (.sourceReply access leader (.ok bytes))
      = [⟨access, leader, .source key, bytes⟩] := by
  simp only [supplies, h]

/-- An event of a board comes from a lookup that missed, from a load that starts, goes on to the
source or is supplied, from a load that fails, or from a caller that waits. -/
theorem boardEvent?_cases {g : Group ι} {access : Access} {e : Event ι}
    {b : Flight.Event ι Phase ByteView} (h : g.boardEvent? access e = some b) :
    (∃ caller key, e = .lookup caller access key ∧ caller ∉ g.callers ∧
      b = .call caller key (.queued (decide (access = Access.routed) && g.hasRouter))) ∨
    (∃ leader router picked, e = .start access leader picked ∧
      (g.flight access).work? leader = some (.queued router) ∧
      b = .advance leader (firstPhase router picked)) ∨
    (∃ leader address group key error, e = .peerReply access leader (.error error) ∧
      g.request? access leader = some (.peer address group key) ∧ b = .advance leader .loading) ∨
    (∃ s ∈ g.supplies e, s.access = access ∧ b = .finish s.leader (.value ⟨s.bytes⟩)) ∨
    (∃ leader key text, g.request? access leader = some (.source key) ∧
      b = .finish leader (.failed (.source text))) ∨
    (∃ leader request text, g.request? access leader = some request ∧
      b = .finish leader (.panicked text)) ∨
    (∃ caller, (e = .deliver access caller ∧ b = .deliver caller) ∨
      (e = .abandon access caller ∧ b = .abandon caller)) := by
  -- `boardEvent?` read backwards, event by event.
  cases e with
  | registerPeers => cases h
  | lookup caller a key =>
    left
    simp only [boardEvent?] at h
    split at h
    next hc =>
      obtain ⟨rfl, hcalled, -, -⟩ := hc
      cases h
      exact ⟨caller, key, rfl, hcalled, rfl⟩
    next => cases h
  | start a leader picked =>
    right; left
    simp only [boardEvent?] at h
    split at h
    next ha =>
      subst ha
      split at h
      next router hwork =>
        cases h
        exact ⟨leader, router, picked, rfl, hwork, rfl⟩
      next => cases h
    next => cases h
  | peerReply a leader reply =>
    right; right
    simp only [boardEvent?] at h
    split at h
    next ha =>
      subst ha
      split at h
      next address group key bytes hreq =>
        cases h
        refine Or.inr (Or.inl ?_)
        rw [supplies_peerReply bytes hreq]
        exact ⟨_, List.mem_singleton.2 rfl, rfl, rfl⟩
      next address group key error hreq =>
        cases h
        exact Or.inl ⟨leader, address, group, key, error, rfl, hreq, rfl⟩
      next => cases h
    next => cases h
  | sourceReply a leader reply =>
    right; right; right
    simp only [boardEvent?] at h
    split at h
    next ha =>
      subst ha
      split at h
      next key bytes hreq =>
        cases h
        left
        rw [supplies_sourceReply bytes hreq]
        exact ⟨_, List.mem_singleton.2 rfl, rfl, rfl⟩
      next key text hreq =>
        cases h
        exact Or.inr (Or.inl ⟨leader, key, text, hreq, rfl⟩)
      next => cases h
    next => cases h
  | panic a leader text =>
    right; right; right; right; right; left
    simp only [boardEvent?] at h
    split at h
    next =>
      obtain ⟨request, hreq, rfl⟩ := Option.map_eq_some_iff.1 h
      exact ⟨leader, request, text, hreq, rfl⟩
    next => cases h
  | deliver a caller =>
    right; right; right; right; right; right
    simp only [boardEvent?] at h
    split at h
    next ha =>
      subst ha
      cases h
      exact ⟨caller, Or.inl ⟨rfl, rfl⟩⟩
    next => cases h
  | abandon a caller =>
    right; right; right; right; right; right
    simp only [boardEvent?] at h
    split at h
    next ha =>
      subst ha
      cases h
      exact ⟨caller, Or.inr ⟨rfl, rfl⟩⟩
    next => cases h

/-- A call on a board comes from a lookup of a new caller. -/
theorem call_of_boardEvent? {g : Group ι} {access : Access} {e : Event ι} {caller : ι}
    {key : String} {phase : Phase} (h : g.boardEvent? access e = some (.call caller key phase)) :
    e = .lookup caller access key ∧ caller ∉ g.callers ∧
      phase = .queued (decide (access = Access.routed) && g.hasRouter) := by
  rcases boardEvent?_cases h with
    ⟨c, k, rfl, hcalled, heq⟩ | ⟨l, router, picked, -, -, heq⟩ | ⟨l, a, n, k, e, -, -, heq⟩ |
      ⟨s, -, -, heq⟩ | ⟨l, k, text, -, heq⟩ | ⟨l, r, text, -, heq⟩ | ⟨c, ⟨-, heq⟩ | ⟨-, heq⟩⟩
  · cases heq
    exact ⟨rfl, hcalled, rfl⟩
  · cases heq
  · cases heq
  · cases heq
  · cases heq
  · cases heq
  · cases heq
  · cases heq

/-- A load goes on when it starts, or to the source when its peer fails. -/
theorem advance_of_boardEvent? {g : Group ι} {access : Access} {e : Event ι} {leader : ι}
    {phase : Phase} (h : g.boardEvent? access e = some (.advance leader phase)) :
    (∃ router picked, e = .start access leader picked ∧
      (g.flight access).work? leader = some (.queued router) ∧
      phase = firstPhase router picked) ∨
    ∃ address group key error, e = .peerReply access leader (.error error) ∧
      g.request? access leader = some (.peer address group key) ∧ phase = .loading := by
  rcases boardEvent?_cases h with
    ⟨c, k, -, -, heq⟩ | ⟨l, router, picked, rfl, hqueued, heq⟩ |
      ⟨l, a, n, k, error, rfl, hreq, heq⟩ |
      ⟨s, -, -, heq⟩ | ⟨l, k, text, -, heq⟩ | ⟨l, r, text, -, heq⟩ | ⟨c, ⟨-, heq⟩ | ⟨-, heq⟩⟩
  · cases heq
  · cases heq
    exact Or.inl ⟨router, picked, rfl, hqueued, rfl⟩
  · cases heq
    exact Or.inr ⟨a, n, k, error, rfl, hreq, rfl⟩
  · cases heq
  · cases heq
  · cases heq
  · cases heq
  · cases heq

/-- A load ends with a value when it is supplied. -/
theorem supply_of_boardEvent? {g : Group ι} {access : Access} {e : Event ι} {leader : ι}
    {value : ByteView} (h : g.boardEvent? access e = some (.finish leader (.value value))) :
    ∃ s ∈ g.supplies e, s.access = access ∧ s.leader = leader ∧ s.bytes = value.bytes := by
  rcases boardEvent?_cases h with
    ⟨c, k, -, -, heq⟩ | ⟨l, router, picked, -, -, heq⟩ | ⟨l, a, n, k, e, -, -, heq⟩ |
      ⟨s, hs, hat, heq⟩ | ⟨l, k, text, -, heq⟩ | ⟨l, r, text, -, heq⟩ | ⟨c, ⟨-, heq⟩ | ⟨-, heq⟩⟩
  · cases heq
  · cases heq
  · cases heq
  · cases heq
    exact ⟨s, hs, hat, rfl, rfl⟩
  · cases heq
  · cases heq
  · cases heq
  · cases heq

/-- A caller gives up when it does so in the group. -/
theorem abandon_of_boardEvent? {g : Group ι} {access : Access} {e : Event ι} {caller : ι}
    (h : g.boardEvent? access e = some (.abandon caller)) : e = .abandon access caller := by
  rcases boardEvent?_cases h with
    ⟨c, k, -, -, heq⟩ | ⟨l, router, picked, -, -, heq⟩ | ⟨l, a, n, k, e, -, -, heq⟩ |
      ⟨s, -, -, heq⟩ | ⟨l, k, text, -, heq⟩ | ⟨l, r, text, -, heq⟩ | ⟨c, ⟨-, heq⟩ | ⟨rfl, heq⟩⟩
  · cases heq
  · cases heq
  · cases heq
  · cases heq
  · cases heq
  · cases heq
  · cases heq
  · cases heq
    rfl

/-- A board takes an event or stays as it is. -/
theorem flight_step_cases (g : Group ι) (access : Access) (e : Event ι) :
    (g.boardEvent? access e = none ∧ (g.step e).flight access = g.flight access) ∨
    ∃ b, g.boardEvent? access e = some b ∧ (g.step e).flight access = (g.flight access).step b := by
  have hstep := g.flight_step access e
  cases hb : g.boardEvent? access e with
  | none =>
    rw [hb] at hstep
    exact Or.inl ⟨rfl, hstep⟩
  | some b =>
    rw [hb] at hstep
    exact Or.inr ⟨b, rfl, hstep⟩

/-- On a board nothing is lost by an event of the group. -/
theorem later_flight_step (g : Group ι) (access : Access) (e : Event ι) :
    Flight.Later (g.flight access) ((g.step e).flight access) := by
  rw [flight_step]
  exact Flight.later_run _ _

/-- A load goes one way: it is at what it was before, it has just started, or it has turned to the
source. -/
theorem phase_step {g : Group ι} {access : Access} {leader : ι} {key : String}
    (hkey : (g.flight access).key? leader = some key) {e : Event ι} {phase : Phase}
    (hwork : ((g.step e).flight access).work? leader = some phase) :
    (g.flight access).work? leader = some phase ∨
      (∃ router, (g.flight access).work? leader = some (.queued router)) ∨ phase = .loading := by
  rcases g.flight_step_cases access e with ⟨-, hsame⟩ | ⟨b, hb, hstep⟩
  · rw [hsame] at hwork
    exact Or.inl hwork
  · rw [hstep] at hwork
    rcases Flight.work?_step hwork with hold | ⟨rfl, v, hv⟩ | ⟨hnone, k, rfl⟩
    · exact Or.inl hold
    · rcases advance_of_boardEvent? hb with
        ⟨router, picked, -, hqueued, -⟩ | ⟨-, -, -, -, -, -, rfl⟩
      · exact Or.inr (Or.inl ⟨router, hqueued⟩)
      · exact Or.inr (Or.inr rfl)
    · -- a call leads no load that there is already
      unfold Flight.key? at hkey
      rw [hnone] at hkey
      cases hkey

/-! ## A group without peers -/

/-- A load on the direct board is not to ask anybody. -/
def StaysLocal (g : Group ι) : Prop :=
  ∀ leader phase, g.direct.work? leader = some phase → phase = .queued false ∨ phase = .loading

/-- What is looked up directly goes to no peer, whatever happens. -/
theorem staysLocal_step {g : Group ι} (hlocal : g.StaysLocal) (e : Event ι) :
    (g.step e).StaysLocal := by
  intro leader phase hwork
  have hwork : ((g.step e).flight .direct).work? leader = some phase := hwork
  rcases g.flight_step_cases .direct e with ⟨-, hsame⟩ | ⟨b, hb, hstep⟩
  · rw [hsame] at hwork
    exact hlocal leader phase hwork
  · rw [hstep] at hwork
    rcases Flight.work?_step hwork with hold | ⟨rfl, -⟩ | ⟨-, key, rfl⟩
    · exact hlocal leader phase hold
    · rcases advance_of_boardEvent? hb with
        ⟨router, picked, -, hqueued, rfl⟩ | ⟨-, -, -, -, -, -, rfl⟩
      · rcases hlocal leader _ hqueued with hrouter | hrouter
        · cases hrouter
          exact Or.inr rfl
        · cases hrouter
      · exact Or.inr rfl
    · obtain ⟨-, -, rfl⟩ := call_of_boardEvent? hb
      exact Or.inl rfl

end Group

end PeerCache
