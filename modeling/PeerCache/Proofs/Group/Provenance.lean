import PeerCache.Proofs.Group.Boards
import PeerCache.Proofs.Store.Refinement
/-!
# PeerCache — where a group's values come from

Everything a group holds or hands out was supplied to it: by its own source, asked for exactly the
key in question, or by a peer, asked for exactly the group's name and that key.

* **`store_step`** — an entry of the store was there before the event, or the event supplies it.
* **`Fed`** — the invariant over a list of supplies. It covers the store and the values that loads
  have ended with; it also says that the direct board never waits for a peer, which is why every
  supply of a peer belongs to a routed load.
* **`FirstLookup`** — the event at which a caller's key and way in are fixed; the hits and the
  loads of a run are led back to it.

The last section has the result for whole runs.
-/

namespace PeerCache

namespace Group

variable {ι : Type} [DecidableEq ι]

/-- The supply is the value of `key` for a group called `name`, byte for byte. -/
structure Supply.Of (s : Supply ι) (name key : String) (value : ByteView) : Prop where
  bytes : s.bytes = value.bytes
  request : s.request = .source key ∨ ∃ address, s.request = .peer address name key

/-! ## One event -/

/-- What a supply is, read off the load that waited for it. -/
theorem request?_of_mem_supplies {g : Group ι} {e : Event ι} {s : Supply ι}
    (h : s ∈ g.supplies e) : g.request? s.access s.leader = some s.request := by
  -- Two events supply anything, and only where they were asked for.
  cases e with
  | peerReply access leader reply =>
    cases reply with
    | error e => cases h
    | ok bytes =>
      simp only [supplies] at h
      split at h
      next address group key hreq =>
        rw [List.mem_singleton.1 h]
        exact hreq
      next => cases h
  | sourceReply access leader reply =>
    cases reply with
    | error text => cases h
    | ok bytes =>
      simp only [supplies] at h
      split at h
      next key hreq =>
        rw [List.mem_singleton.1 h]
        exact hreq
      next => cases h
  | registerPeers => cases h
  | lookup caller access key => cases h
  | start access leader picked => cases h
  | panic access leader text => cases h
  | deliver access caller => cases h
  | abandon access caller => cases h

omit [DecidableEq ι] in
/-- Keeping a value brings in its entry only. -/
theorem mem_store_keep {g : Group ι} (hstore : g.store.Sound) (key : String) (value : ByteView) :
    (g.keep key value).store.Sound ∧ ∀ entry ∈ (g.keep key value).store.entries,
      entry = (key, value) ∨ entry ∈ g.store.entries :=
  ⟨hstore.insert key value, fun _ he => hstore.mem_insert he⟩

/-- An event leaves the store with entries that it had, or brings the new one. -/
theorem store_step {g : Group ι} (hstore : g.store.Sound) (e : Event ι) :
    (g.step e).store.Sound ∧ ∀ entry ∈ (g.step e).store.entries,
      entry ∈ g.store.entries ∨ ∃ s ∈ g.supplies e, s.Of g.name entry.1 entry.2 ∧
        (s.request.isRemote = true → g.policy = .populate) := by
  have hsame : ∀ h : Group ι, h.store = g.store →
      h.store.Sound ∧ ∀ entry ∈ h.store.entries,
        entry ∈ g.store.entries ∨ ∃ s ∈ g.supplies e, s.Of g.name entry.1 entry.2 ∧
          (s.request.isRemote = true → g.policy = .populate) := by
    intro h heq
    rw [heq]
    exact ⟨hstore, fun entry he => Or.inl he⟩
  -- A lookup moves an entry, and two replies bring one in; no other event touches the store.
  cases e with
  | registerPeers =>
    refine hsame _ ?_
    rw [step_registerPeers]
  | lookup caller access key =>
    show (g.lookup caller access key).store.Sound ∧ _
    rcases g.lookup_cases caller access key with
      ⟨-, h⟩ | ⟨-, -, h⟩ | ⟨value, -, -, -, h⟩ | ⟨-, -, -, h⟩
    · exact hsame _ (congrArg Group.store h)
    · refine hsame _ ?_
      rw [h]
    · have hstep : (g.step (.lookup caller access key)).store = (g.store.get key).1 :=
        congrArg Group.store h
      rw [h, hstep]
      exact ⟨hstore.get key, fun entry he => Or.inl (hstore.mem_get he)⟩
    · have hstep : (g.step (.lookup caller access key)).store = (g.store.get key).1 :=
        (congrArg Group.store h).trans (store_setFlight _ _ _)
      rw [h, store_setFlight, hstep]
      exact ⟨hstore.get key, fun entry he => Or.inl (hstore.mem_get he)⟩
  | start access leader picked =>
    refine hsame _ ?_
    show (g.start access leader picked).store = g.store
    rcases g.start_cases access leader picked with ⟨-, h⟩ | ⟨router, -, h⟩
    · rw [h]
    · rw [h, store_setFlight]
  | peerReply access leader reply =>
    rcases g.peerReply_cases access leader reply with
      ⟨-, h⟩ | ⟨address, key, bytes, hreq, rfl, h⟩ | ⟨address, key, e, -, rfl, h⟩
    · exact hsame _ (congrArg Group.store h)
    · by_cases hpolicy : g.policy = .populate
      · rw [if_pos hpolicy] at h
        have hstep : (g.step (.peerReply access leader (.ok bytes))).store
            = (g.keep key ⟨bytes⟩).store := (congrArg Group.store h).trans (store_setFlight _ _ _)
        rw [hstep]
        obtain ⟨hsound, hmem⟩ := mem_store_keep hstore key ⟨bytes⟩
        refine ⟨hsound, fun entry he => ?_⟩
        rcases hmem entry he with rfl | hold
        · rw [supplies_peerReply bytes hreq]
          exact Or.inr ⟨_, List.mem_singleton.2 rfl, ⟨rfl, Or.inr ⟨address, rfl⟩⟩,
            fun _ => hpolicy⟩
        · exact Or.inl hold
      · rw [if_neg hpolicy] at h
        exact hsame _ ((congrArg Group.store h).trans (store_setFlight _ _ _))
    · exact hsame _ ((congrArg Group.store h).trans (store_setFlight _ _ _))
  | sourceReply access leader reply =>
    rcases g.sourceReply_cases access leader reply with
      ⟨-, h⟩ | ⟨key, bytes, hreq, rfl, h⟩ | ⟨key, text, -, rfl, h⟩
    · exact hsame _ (congrArg Group.store h)
    · have hstep : (g.step (.sourceReply access leader (.ok bytes))).store
          = (g.keep key ⟨bytes⟩).store := (congrArg Group.store h).trans (store_setFlight _ _ _)
      rw [hstep]
      obtain ⟨hsound, hmem⟩ := mem_store_keep hstore key ⟨bytes⟩
      refine ⟨hsound, fun entry he => ?_⟩
      rcases hmem entry he with rfl | hold
      · rw [supplies_sourceReply bytes hreq]
        refine Or.inr ⟨_, List.mem_singleton.2 rfl, ⟨rfl, Or.inl rfl⟩, fun hremote => ?_⟩
        cases hremote
      · exact Or.inl hold
    · exact hsame _ ((congrArg Group.store h).trans (store_setFlight _ _ _))
  | panic access leader text =>
    refine hsame _ ?_
    show (g.panic access leader text).store = g.store
    rcases g.panic_cases access leader text with ⟨-, h⟩ | ⟨request, -, h⟩
    · rw [h]
    · rw [h, store_setFlight]
  | deliver access caller => exact hsame _ (store_setFlight g access _)
  | abandon access caller => exact hsame _ (store_setFlight g access _)

/-- A supply is the value of the key that its load is for. -/
theorem supply_of_key? {g : Group ι} {e : Event ι} {s : Supply ι} (hs : s ∈ g.supplies e)
    {key : String} (hkey : (g.flight s.access).key? s.leader = some key) :
    s.Of g.name key ⟨s.bytes⟩ := by
  have hreq := request?_of_mem_supplies hs
  refine ⟨rfl, ?_⟩
  cases hr : s.request with
  | peer address group k =>
    rw [hr] at hreq
    obtain ⟨-, hk, rfl⟩ := request?_eq_peer.1 hreq
    rw [hk] at hkey
    cases hkey
    exact Or.inr ⟨address, rfl⟩
  | source k =>
    rw [hr] at hreq
    obtain ⟨-, hk⟩ := request?_eq_source.1 hreq
    rw [hk] at hkey
    cases hkey
    exact Or.inl rfl

/-- What is supplied is for the key of its load. -/
theorem key?_of_mem_supplies {g : Group ι} {e : Event ι} {s : Supply ι} (hs : s ∈ g.supplies e) :
    (g.flight s.access).key? s.leader = some s.request.key := by
  have hreq := request?_of_mem_supplies hs
  cases hr : s.request with
  | peer address group k =>
    rw [hr] at hreq
    exact (request?_eq_peer.1 hreq).2.1
  | source k =>
    rw [hr] at hreq
    exact (request?_eq_source.1 hreq).2

/-- Only loads of the routed board are supplied by peers. -/
theorem routed_of_isRemote {g : Group ι} (hlocal : g.StaysLocal) {e : Event ι} {s : Supply ι}
    (hs : s ∈ g.supplies e) (hremote : s.request.isRemote = true) : s.access = .routed := by
  have hreq := request?_of_mem_supplies hs
  cases hr : s.request with
  | source k =>
    rw [hr] at hremote
    cases hremote
  | peer address group k =>
    rw [hr] at hreq
    have hwork := (request?_eq_peer.1 hreq).1
    cases haccess : s.access with
    | routed => rfl
    | direct =>
      rw [haccess] at hwork
      rcases hlocal s.leader _ hwork with h | h
      · cases h
      · cases h

/-! ## The invariant -/

/-- What the group holds was supplied by `S`. -/
structure Fed (S : List (Supply ι)) (name : String) (policy : RemotePolicy) (g : Group ι) :
    Prop where
  isNamed : g.name = name
  hasPolicy : g.policy = policy
  store : g.store.Sound
  stored : ∀ entry ∈ g.store.entries, ∃ s ∈ S, s.Of name entry.1 entry.2 ∧
    (s.request.isRemote = true → policy = .populate)
  ended : ∀ access leader key value, (g.flight access).ending? leader = some (.value value) →
    (g.flight access).key? leader = some key → ∃ s ∈ S, s.Of name key value ∧ s.access = access
  staysLocal : g.StaysLocal
  remote : ∀ s ∈ S, s.request.isRemote = true → s.access = .routed

/-- Nobody has called the group. -/
structure Unused (g : Group ι) : Prop where
  boards : ∀ access, g.flight access = .empty
  immediate : g.immediate = []
  store : g.store.Sound
  entries : g.store.entries = []

omit [DecidableEq ι] in
/-- A new group has not been used. -/
theorem unused_new (name : String) (cacheBytes : Nat) (policy : RemotePolicy)
    (hasRouter : Bool) :
    Unused { (new name cacheBytes policy : Group ι) with hasRouter := hasRouter } where
  boards := by
    intro access
    cases access with
    | routed => rfl
    | direct => rfl
  immediate := rfl
  store := Store.sound_new cacheBytes
  entries := rfl

/-- Before anything is supplied there is nothing to trace. -/
theorem Unused.fed {g : Group ι} (hg : g.Unused) : Fed [] g.name g.policy g where
  isNamed := rfl
  hasPolicy := rfl
  store := hg.store
  stored := by
    intro entry he
    rw [hg.entries] at he
    cases he
  ended := by
    intro access leader key value hend
    rw [hg.boards access] at hend
    cases hend
  staysLocal := by
    intro leader phase hwork
    have hwork : (g.flight .direct).work? leader = some phase := hwork
    rw [hg.boards .direct] at hwork
    cases hwork
  remote := by
    intro s hs
    cases hs

/-- The step lemma: with what an event supplies, everything is still traced to a supply. -/
theorem fed_step {S : List (Supply ι)} {name : String} {policy : RemotePolicy} {g : Group ι}
    (h : Fed S name policy g) (e : Event ι) : Fed (S ++ g.supplies e) name policy (g.step e) := by
  obtain ⟨hname, hpolicy⟩ := g.identity_step e
  obtain ⟨hstore, hentries⟩ := store_step h.store e
  refine ⟨hname.trans h.isNamed, hpolicy.trans h.hasPolicy, hstore, ?_, ?_,
    staysLocal_step h.staysLocal e,
    ?_⟩
  · intro entry he
    rcases hentries entry he with hold | ⟨s, hs, hof, hremote⟩
    · obtain ⟨s, hs, hof⟩ := h.stored entry hold
      exact ⟨s, List.mem_append_left _ hs, hof⟩
    · rw [h.isNamed] at hof
      rw [h.hasPolicy] at hremote
      exact ⟨s, List.mem_append_right _ hs, hof, hremote⟩
  · intro access leader key value hend hkey
    -- a load that had ended before keeps its end and its key
    have hbefore : (g.flight access).ending? leader = some (.value value) →
        ∃ s ∈ S ++ g.supplies e, s.Of name key value ∧ s.access = access := by
      intro hend
      obtain ⟨k, hx⟩ := Flight.ending?_eq_some.1 hend
      have hk : (g.flight access).key? leader = some k := Option.map_eq_some_iff.2 ⟨_, hx, rfl⟩
      rw [(g.later_flight_step access e).key? hk] at hkey
      cases hkey
      obtain ⟨s, hs, hof⟩ := h.ended access leader key value hend hk
      exact ⟨s, List.mem_append_left _ hs, hof⟩
    rcases g.flight_step_cases access e with ⟨-, hsame⟩ | ⟨b, hb, hstep⟩
    · rw [hsame] at hend
      exact hbefore hend
    · rw [hstep] at hend
      rcases Flight.ending?_step hend with hold | rfl
      · exact hbefore hold
      · obtain ⟨s, hs, rfl, rfl, hbytes⟩ := supply_of_boardEvent? hb
        have hk := key?_of_mem_supplies hs
        have hof := supply_of_key? hs hk
        rw [(g.later_flight_step s.access e).key? hk] at hkey
        cases hkey
        rw [h.isNamed] at hof
        exact ⟨s, List.mem_append_right _ hs, ⟨hbytes, hof.request⟩, rfl⟩
  · intro s hs hremote
    rcases List.mem_append.1 hs with hs | hs
    · exact h.remote s hs hremote
    · exact routed_of_isRemote h.staysLocal hs hremote

/-- And so is everything after a run. -/
theorem fed_run {S : List (Supply ι)} {name : String} {policy : RemotePolicy} {g : Group ι}
    (h : Fed S name policy g) (events : List (Event ι)) :
    Fed (S ++ g.supplied events) name policy (g.run events) := by
  induction events generalizing S g with
  | nil =>
    show Fed (S ++ []) name policy g
    rw [List.append_nil]
    exact h
  | cons e es ih =>
    have hrest := ih (fed_step h e)
    rw [List.append_assoc] at hrest
    exact hrest

/-! ## First lookups -/

/-- The run `events` of `g` comes to the first lookup of `caller` after `before`: it asks for `key`
by `access`. -/
structure FirstLookup (g : Group ι) (events before : List (Event ι)) (caller : ι)
    (access : Access) (key : String) : Prop where
  split : ∃ after, events = before ++ .lookup caller access key :: after
  first : caller ∉ (g.run before).callers

theorem run_append (g : Group ι) (before after : List (Event ι)) :
    g.run (before ++ after) = (g.run before).run after :=
  List.foldl_append

theorem run_lookup (g : Group ι) (before after : List (Event ι)) (caller : ι) (access : Access)
    (key : String) : ((g.run before).lookup caller access key).run after =
      g.run (before ++ .lookup caller access key :: after) := by
  rw [run_append]
  rfl

/-- A first lookup after one event is one after this event and more. -/
theorem FirstLookup.cons {g : Group ι} {e : Event ι} {events before : List (Event ι)} {caller : ι}
    {access : Access} {key : String} (h : FirstLookup (g.step e) events before caller access key) :
    FirstLookup g (e :: events) (e :: before) caller access key := by
  obtain ⟨after, rfl⟩ := h.split
  exact ⟨⟨after, rfl⟩, h.first⟩

/-- After a lookup its caller has called. -/
theorem callers_after_lookup (g : Group ι) (before rest : List (Event ι)) (caller : ι)
    (access : Access) (key : String) :
    caller ∈ (g.run (before ++ .lookup caller access key :: rest)).callers := by
  rw [run_append]
  exact callers_run (callers_lookup (g.run before) caller access key).1 rest

/-- A caller has one first lookup. -/
theorem FirstLookup.unique {g : Group ι} {events before₁ before₂ : List (Event ι)} {caller : ι}
    {access₁ access₂ : Access} {key₁ key₂ : String}
    (h₁ : FirstLookup g events before₁ caller access₁ key₁)
    (h₂ : FirstLookup g events before₂ caller access₂ key₂) :
    access₁ = access₂ ∧ key₁ = key₂ := by
  obtain ⟨after₁, hsplit₁⟩ := h₁.split
  obtain ⟨after₂, hsplit₂⟩ := h₂.split
  rw [hsplit₁] at hsplit₂
  -- One of the two comes first; then its caller has called by the other one.
  rcases List.append_eq_append_iff.1 hsplit₂ with ⟨rest, hbefore, hafter⟩ | ⟨rest, hbefore, hafter⟩
  · cases rest with
    | nil =>
      cases hafter
      exact ⟨rfl, rfl⟩
    | cons e rest =>
      cases hafter
      have hcalled := g.callers_after_lookup before₁ rest caller access₁ key₁
      rw [← hbefore] at hcalled
      exact absurd hcalled h₂.first
  · cases rest with
    | nil =>
      cases hafter
      exact ⟨rfl, rfl⟩
    | cons e rest =>
      cases hafter
      have hcalled := g.callers_after_lookup before₂ rest caller access₂ key₂
      rw [← hbefore] at hcalled
      exact absurd hcalled h₁.first

/-- An immediate value was there at first, or it is what the store had for the caller's key. -/
theorem exists_hit {g : Group ι} {events : List (Event ι)} {caller : ι} {value : ByteView}
    (h : (caller, .ok value) ∈ (g.run events).immediate)
    (hnew : (caller, .ok value) ∉ g.immediate) :
    ∃ before access key, FirstLookup g events before caller access key ∧ key ≠ "" ∧
      ((g.run before).store.get key).2 = some value := by
  induction events generalizing g with
  | nil => exact absurd h hnew
  | cons e es ih =>
    -- Either this event has given the answer, or a later one.
    by_cases hstep : (caller, .ok value) ∈ (g.step e).immediate
    · rcases g.lookup_or_akin e with ⟨c, access, key, rfl⟩ | hakin
      · have hmem : (caller, .ok value) ∈ (g.lookup c access key).immediate := hstep
        rcases g.lookup_cases c access key with
          ⟨-, heq⟩ | ⟨-, -, heq⟩ | ⟨v, hcalled, hkey, hget, heq⟩ | ⟨-, -, -, heq⟩
        · rw [heq] at hmem
          exact absurd hmem hnew
        · rw [heq] at hmem
          rcases List.mem_append.1 hmem with hmem | hmem
          · exact absurd hmem hnew
          · cases List.mem_singleton.1 hmem
        · rw [heq] at hmem
          rcases List.mem_append.1 hmem with hmem | hmem
          · exact absurd hmem hnew
          · cases List.mem_singleton.1 hmem
            exact ⟨[], access, key, ⟨⟨es, rfl⟩, hcalled⟩, hkey, hget⟩
        · rw [heq, immediate_setFlight] at hmem
          exact absurd hmem hnew
      · rw [hakin.immediate] at hstep
        exact absurd hstep hnew
    · obtain ⟨before, access, key, hfirst, hhit⟩ := ih h hstep
      exact ⟨e :: before, access, key, hfirst.cons, hhit⟩

/-- A call on a board comes from the caller's first lookup. -/
theorem exists_first_lookup {g : Group ι} {access : Access} {events : List (Event ι)} {caller : ι}
    {key : String} {phase : Phase} (h : .call caller key phase ∈ g.boardEvents access events) :
    ∃ before, FirstLookup g events before caller access key := by
  induction events generalizing g with
  | nil => cases h
  | cons e es ih =>
    rcases List.mem_append.1 h with h | h
    · have hb : g.boardEvent? access e = some (.call caller key phase) := Option.mem_toList.1 h
      obtain ⟨rfl, hcalled, -⟩ := call_of_boardEvent? hb
      exact ⟨[], ⟨es, rfl⟩, hcalled⟩
    · obtain ⟨before, hfirst⟩ := ih h
      exact ⟨e :: before, hfirst.cons⟩

/-- A load is led by a caller whose first lookup was for the load's key, on the load's way in. -/
theorem first_lookup_of_key? {g : Group ι} (hg : g.Unused) {events : List (Event ι)}
    {access : Access} {leader : ι} {key : String}
    (hkey : ((g.run events).flight access).key? leader = some key) :
    ∃ before, FirstLookup g events before leader access key := by
  rw [flight_run, hg.boards access] at hkey
  obtain ⟨before, work, hcall⟩ := Flight.exists_first_call_of_key? hkey
  exact exists_first_lookup hcall.mem

/-! ## From an answer to its supply -/

/-- What a board answers a caller is how a load for the caller's key has ended. -/
theorem load_of_answered {g : Group ι} (hg : g.Unused) {events : List (Event ι)}
    {access : Access} {caller : ι} {o : Outcome ByteView}
    (ho : (caller, o) ∈ ((g.run events).flight access).answered) :
    ∃ before key leader how, FirstLookup g events before caller access key ∧
      ((g.run events).flight access).key? leader = some key ∧
      ((g.run events).flight access).ending? leader = some how ∧ o = how.outcome := by
  rw [flight_run, hg.boards access] at ho ⊢
  obtain ⟨before, key, work, hcall⟩ := Flight.exists_first_call_of_answered ho
  obtain ⟨how, hend, rfl⟩ := hcall.bound.answered o ho
  obtain ⟨before', hfirst⟩ := exists_first_lookup hcall.mem
  exact ⟨before', key, _, how, hfirst, hcall.bound.key, hend, rfl⟩

theorem outcome_eq_ok {how : Ending ByteView} {value : ByteView} (h : how.outcome = .ok value) :
    how = .value value := by
  cases how with
  | value v =>
    cases h
    rfl
  | failed e => cases h
  | panicked text => cases h

theorem supplied_append (g : Group ι) (before after : List (Event ι)) :
    g.supplied (before ++ after) = g.supplied before ++ (g.run before).supplied after := by
  induction before generalizing g with
  | nil => rfl
  | cons e es ih =>
    show g.supplies e ++ (g.step e).supplied (es ++ after) = _
    rw [ih (g.step e), ← List.append_assoc]
    rfl

/-- A supply of a run was brought by one of its events. -/
theorem exists_supplies {g : Group ι} {events : List (Event ι)} {s : Supply ι}
    (h : s ∈ g.supplied events) :
    ∃ before e after, events = before ++ e :: after ∧ s ∈ (g.run before).supplies e := by
  induction events generalizing g with
  | nil => cases h
  | cons e es ih =>
    rcases List.mem_append.1 h with h | h
    · exact ⟨[], e, es, rfl, h⟩
    · obtain ⟨before, e', after, rfl, hs⟩ := ih h
      exact ⟨e :: before, e', after, rfl, hs⟩

/-- A first lookup stays the first when the run goes on. -/
theorem FirstLookup.append {g : Group ι} {events before : List (Event ι)} {caller : ι}
    {access : Access} {key : String} (h : FirstLookup g events before caller access key)
    (rest : List (Event ι)) : FirstLookup g (events ++ rest) before caller access key := by
  obtain ⟨after, rfl⟩ := h.split
  refine ⟨⟨after ++ rest, ?_⟩, h.first⟩
  rw [List.append_assoc, List.cons_append]

theorem mem_of_find?_fst {α : Type} {es : List (ι × α)} {c : ι} {a : α}
    (h : (es.find? fun e => e.1 = c).map Prod.snd = some a) : (c, a) ∈ es := by
  obtain ⟨e, he, rfl⟩ := Option.map_eq_some_iff.1 h
  have hc := List.find?_some he
  rw [decide_eq_true_eq] at hc
  rw [← hc]
  exact List.mem_of_find?_eq_some he

/-! ## Whole runs -/

/-- The values of a group, over every run from its making. Whatever is in the store, and whatever a
caller is answered, was supplied for exactly that key; what enters the store is supplied by the
very event at which it enters; and a supply belongs to a load that its leader's lookup of that key
started. A supply of a peer is one of a routed load, and without `populate` it neither enters the
store nor reaches a direct lookup. -/
theorem run_supplied (name : String) (cacheBytes : Nat) (policy : RemotePolicy)
    (events : List (Event ι)) :
    (∀ key value, (key, value) ∈ (run (new name cacheBytes policy) events).store.entries →
      ∃ s ∈ supplied (new name cacheBytes policy) events, s.Of name key value ∧
        (s.request.isRemote = true → policy = .populate)) ∧
    (∀ before caller access key value,
      FirstLookup (new name cacheBytes policy) events before caller access key →
      (run (new name cacheBytes policy) events).answer? access caller = some (.ok value) →
      ∃ s ∈ supplied (new name cacheBytes policy) events, s.Of name key value ∧
        (s.request.isRemote = true → access = .direct → policy = .populate)) ∧
    (∀ before e after key value, events = before ++ e :: after →
      (key, value) ∈ ((run (new name cacheBytes policy) before).step e).store.entries →
      (key, value) ∉ (run (new name cacheBytes policy) before).store.entries →
      ∃ s ∈ (run (new name cacheBytes policy) before).supplies e, s.Of name key value ∧
        (s.request.isRemote = true → policy = .populate)) ∧
    (∀ s ∈ supplied (new name cacheBytes policy) events,
      (∃ before, FirstLookup (new name cacheBytes policy) events before s.leader s.access
        s.request.key) ∧
      (s.request.isRemote = true → s.access = .routed)) := by
  have hnew : (new name cacheBytes policy : Group ι).Unused :=
    unused_new name cacheBytes policy false
  have hfed : ∀ es : List (Event ι), Fed (supplied (new name cacheBytes policy) es) name policy
      (run (new name cacheBytes policy) es) := fun es => fed_run hnew.fed es
  refine ⟨?_, ?_, ?_, ?_⟩
  · intro key value hmem
    exact (hfed events).stored (key, value) hmem
  · intro before caller access key value hfirst hanswer
    unfold answer? at hanswer
    split at hanswer
    next o ho =>
      -- a hit: the store held the value at the caller's first lookup
      cases hanswer
      obtain ⟨before', access', key', hhit, -, hget⟩ :=
        exists_hit (mem_of_find?_fst ho) List.not_mem_nil
      obtain ⟨rfl, rfl⟩ := hfirst.unique hhit
      obtain ⟨after, hsplit⟩ := hhit.split
      have hstore := (hfed before').store.get_mem hget
      obtain ⟨s, hs, hof, hremote⟩ := (hfed before').stored _ hstore
      refine ⟨s, ?_, hof, fun hr _ => hremote hr⟩
      rw [hsplit, supplied_append]
      exact List.mem_append_left _ hs
    next ho =>
      -- the value of a load for the caller's key
      obtain ⟨before', key', leader, how, hlookup, hkey, hend, hout⟩ :=
        load_of_answered hnew (mem_of_find?_fst hanswer)
      obtain ⟨-, rfl⟩ := hfirst.unique hlookup
      rw [outcome_eq_ok hout.symm] at hend
      obtain ⟨s, hs, hof, haccess⟩ := (hfed events).ended access leader key value hend hkey
      refine ⟨s, hs, hof, fun hr hdirect => ?_⟩
      have hrouted := (hfed events).remote s hs hr
      rw [haccess, hdirect] at hrouted
      cases hrouted
  · intro before e after key value _ hmem hnew
    have hbefore := hfed before
    rcases (store_step hbefore.store e).2 (key, value) hmem with hold | ⟨s, hs, hof, hremote⟩
    · exact absurd hold hnew
    · rw [hbefore.isNamed] at hof
      rw [hbefore.hasPolicy] at hremote
      exact ⟨s, hs, hof, hremote⟩
  · intro s hs
    refine ⟨?_, (hfed events).remote s hs⟩
    obtain ⟨before, e, after, rfl, hsup⟩ := exists_supplies hs
    obtain ⟨before', hfirst⟩ := first_lookup_of_key? hnew (key?_of_mem_supplies hsup)
    exact ⟨before', hfirst.append (e :: after)⟩

end Group

end PeerCache
