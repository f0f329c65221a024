import PeerCache.Cluster.History
import PeerCache.Proofs.Group.Provenance
/-!
# PeerCache — a load that asks a peer, and a caller that waits

What a cluster needs to know of one group, over every run from its making:

* **`Asked`** — a load that asked a peer for a key asks nobody else, whatever happens.
* **`reply_of_ending`** — a load ends with bytes only by an event that brings them.
* **`answer_of_waiting`** — a caller that waits for a load is answered how the load ends, or not at
  all.
* **`produced_of_answer`** — what a direct lookup is answered, the group has produced for the key
  of that lookup.
-/

namespace PeerCache

namespace Group

variable {ι : Type} [DecidableEq ι]

/-! ## A load that asks -/

/-- The load has asked the peer at `baseUrl` for `key`. It waits for the answer or has gone on. -/
structure Asked (g : Group ι) (access : Access) (leader : ι) (baseUrl key : String) : Prop where
  key : (g.flight access).key? leader = some key
  phase : ∀ phase, (g.flight access).work? leader = some phase →
    phase = .asking baseUrl ∨ phase = .loading

/-- What a load has asked stays asked. -/
theorem Asked.step {g : Group ι} {access : Access} {leader : ι} {baseUrl key : String}
    (h : Asked g access leader baseUrl key) (e : Event ι) :
    Asked (g.step e) access leader baseUrl key := by
  refine ⟨(g.later_flight_step access e).key? h.key, fun phase hwork => ?_⟩
  rcases phase_step h.key hwork with hold | ⟨router, hqueued⟩ | hloading
  · exact h.phase phase hold
  · -- it is not queued any more
    rcases h.phase _ hqueued with hphase | hphase
    · cases hphase
    · cases hphase
  · exact Or.inr hloading

theorem Asked.run {g : Group ι} {access : Access} {leader : ι} {baseUrl key : String}
    (h : Asked g access leader baseUrl key) (events : List (Event ι)) :
    Asked (g.run events) access leader baseUrl key := by
  induction events generalizing g with
  | nil => exact h
  | cons e es ih => exact ih (h.step e)

/-- An event brings bytes to a load. -/
def Event.Brings (access : Access) (leader : ι) (bytes : List UInt8) (e : Event ι) : Prop :=
  e = .peerReply access leader (.ok bytes) ∨ e = .sourceReply access leader (.ok bytes)

/-- What supplies a load brings it bytes. -/
theorem brings_of_mem_supplies {g : Group ι} {e : Event ι} {s : Supply ι}
    (h : s ∈ g.supplies e) : e.Brings s.access s.leader s.bytes := by
  cases e with
  | peerReply access leader reply =>
    cases reply with
    | error e => cases h
    | ok bytes =>
      simp only [supplies] at h
      split at h
      next =>
        rw [List.mem_singleton.1 h]
        exact Or.inl rfl
      next => cases h
  | sourceReply access leader reply =>
    cases reply with
    | error text => cases h
    | ok bytes =>
      simp only [supplies] at h
      split at h
      next =>
        rw [List.mem_singleton.1 h]
        exact Or.inr rfl
      next => cases h
  | registerPeers => cases h
  | lookup caller access key => cases h
  | start access leader picked => cases h
  | panic access leader text => cases h
  | deliver access caller => cases h
  | abandon access caller => cases h

/-- A load that ends with a value in a run is brought its bytes by one of the events. -/
theorem reply_of_ending {g : Group ι} {access : Access} {leader : ι} {value : ByteView}
    {events : List (Event ι)}
    (hnew : (g.flight access).ending? leader ≠ some (.value value))
    (hend : ((g.run events).flight access).ending? leader = some (.value value)) :
    ∃ e ∈ events, e.Brings access leader value.bytes := by
  induction events generalizing g with
  | nil => exact absurd hend hnew
  | cons e es ih =>
    by_cases hstep : ((g.step e).flight access).ending? leader = some (.value value)
    · refine ⟨e, List.mem_cons_self, ?_⟩
      rcases g.flight_step_cases access e with ⟨-, hsame⟩ | ⟨b, hb, hflight⟩
      · rw [hsame] at hstep
        exact absurd hstep hnew
      · rw [hflight] at hstep
        rcases Flight.ending?_step hstep with hold | rfl
        · exact absurd hold hnew
        · obtain ⟨s, hs, rfl, rfl, hbytes⟩ := supply_of_boardEvent? hb
          rw [← hbytes]
          exact brings_of_mem_supplies hs
    · obtain ⟨e', he', hbrings⟩ := ih hstep hend
      exact ⟨e', List.mem_cons_of_mem e he', hbrings⟩

/-- A caller that picks its outcome up changes nothing for the loads. -/
theorem request?_deliver (g : Group ι) (a : Access) (caller : ι) (access : Access) (leader : ι) :
    (g.deliver a caller).request? access leader = g.request? access leader := by
  have hexec : ((g.deliver a caller).flight access).execution? leader
      = (g.flight access).execution? leader := by
    show ((g.setFlight a ((g.flight a).deliver caller)).flight access).execution? leader = _
    rw [flight_setFlight]
    split
    next ha =>
      subst ha
      rcases Flight.deliver_cases (g.flight a) caller with hsame | ⟨l, how, -, -, hdel⟩
      · rw [hsame]
      · rw [hdel]
        rfl
    next => rfl
  have hname : (g.deliver a caller).name = g.name := name_setFlight g a _
  unfold request? Flight.work? Flight.key?
  rw [hexec, hname]

/-- What the answer of a peer leaves in the store. -/
theorem store_peerReply {g : Group ι} {access : Access} {leader : ι} {address name key : String}
    (hreq : g.request? access leader = some (.peer address name key)) (bytes : List UInt8) :
    (g.peerReply access leader (.ok bytes)).store =
      if g.policy = .populate then (g.store.insert key ⟨bytes⟩).1 else g.store := by
  rcases g.peerReply_cases access leader (.ok bytes) with
    ⟨hno, -⟩ | ⟨a, k, b, hreq', heq, hok⟩ | ⟨a, k, e, -, heq, -⟩
  · exact absurd hreq (hno _ _ _)
  · rw [hreq] at hreq'
    cases hreq'
    cases heq
    rw [hok, store_setFlight]
    by_cases hpolicy : g.policy = .populate
    · rw [if_pos hpolicy, if_pos hpolicy]
      rfl
    · rw [if_neg hpolicy, if_neg hpolicy]
      rfl
  · cases heq

/-! ## Callers that wait -/

/-- Who was answered at once is on no board. -/
structure Seated (g : Group ι) : Prop where
  called : ∀ access c, c ∈ (g.flight access).callers → c ∈ g.callers
  apart : ∀ c o access, (c, o) ∈ g.immediate → c ∈ g.callers ∧ c ∉ (g.flight access).callers

omit [DecidableEq ι] in
/-- A new caller is on no board. -/
theorem Seated.not_on_board {g : Group ι} (hg : g.Seated) {caller : ι} (hnew : caller ∉ g.callers)
    (access : Access) : caller ∉ (g.flight access).callers :=
  fun hc => hnew (hg.called access caller hc)

omit [DecidableEq ι] in
/-- Nobody has called an unused group. -/
theorem Unused.seated {g : Group ι} (hg : g.Unused) : g.Seated where
  called := by
    intro access c hc
    rw [hg.boards access] at hc
    cases hc
  apart := by
    intro c o access ho
    rw [hg.immediate] at ho
    cases ho

/-- A board gets a new caller by the caller's first lookup. -/
theorem mem_callers_flight_step {g : Group ι} {access : Access} {e : Event ι} {c : ι}
    (hc : c ∈ ((g.step e).flight access).callers) :
    c ∈ (g.flight access).callers ∨ ∃ key, e = .lookup c access key ∧ c ∉ g.callers := by
  rcases g.flight_step_cases access e with ⟨-, hsame⟩ | ⟨b, hb, hstep⟩
  · rw [hsame] at hc
    exact Or.inl hc
  · rw [hstep] at hc
    rcases Flight.mem_callers_step hc with hold | ⟨key, work, rfl⟩
    · exact Or.inl hold
    · obtain ⟨rfl, hcalled, -⟩ := call_of_boardEvent? hb
      exact Or.inr ⟨key, rfl, hcalled⟩

/-- A new immediate answer is given to a caller that no board hears of. -/
theorem mem_immediate_step {g : Group ι} {e : Event ι} {c : ι} {o : Outcome ByteView}
    (ho : (c, o) ∈ (g.step e).immediate) :
    (c, o) ∈ g.immediate ∨
      ∃ access key, e = .lookup c access key ∧ c ∉ g.callers ∧
        ∀ a, (g.step e).flight a = g.flight a := by
  rcases g.lookup_or_akin e with ⟨caller, access, key, rfl⟩ | hakin
  · have hstep : g.step (.lookup caller access key) = g.lookup caller access key := rfl
    rw [hstep] at ho ⊢
    rcases g.lookup_cases caller access key with
      ⟨-, heq⟩ | ⟨hcalled, -, heq⟩ | ⟨value, hcalled, -, -, heq⟩ | ⟨-, -, -, heq⟩
    · rw [heq] at ho
      exact Or.inl ho
    -- Refused: the answer is new, and no board has changed.
    · rw [heq] at ho ⊢
      rcases List.mem_append.1 ho with ho | ho
      · exact Or.inl ho
      · cases List.mem_singleton.1 ho
        exact Or.inr ⟨access, key, rfl, hcalled, fun a => flight_eq_of_fields rfl rfl a⟩
    -- A hit: the same.
    · rw [heq] at ho ⊢
      rcases List.mem_append.1 ho with ho | ho
      · exact Or.inl ho
      · cases List.mem_singleton.1 ho
        exact Or.inr ⟨access, key, rfl, hcalled, fun a => flight_eq_of_fields rfl rfl a⟩
    · rw [heq, immediate_setFlight] at ho
      exact Or.inl ho
  · rw [hakin.immediate] at ho
    exact Or.inl ho

/-- Every event leaves every caller one seat. -/
theorem Seated.step {g : Group ι} (h : g.Seated) (e : Event ι) : (g.step e).Seated where
  called := by
    intro access c hc
    rcases mem_callers_flight_step hc with hold | ⟨key, rfl, -⟩
    · exact callers_step (h.called access c hold) e
    · exact (g.callers_lookup c access key).1
  apart := by
    intro c o access ho
    rcases mem_immediate_step ho with hold | ⟨a, key, rfl, hcalled, hsame⟩
    · obtain ⟨hc, hnot⟩ := h.apart c o access hold
      refine ⟨callers_step hc e, fun hmem => ?_⟩
      rcases mem_callers_flight_step hmem with hmem | ⟨key, -, hnew⟩
      · exact hnot hmem
      · exact hnew hc
    · refine ⟨(g.callers_lookup c a key).1, fun hmem => hcalled (h.called access c ?_)⟩
      rw [hsame] at hmem
      exact hmem

theorem Seated.run {g : Group ι} (h : g.Seated) (events : List (Event ι)) :
    (g.run events).Seated := by
  induction events generalizing g with
  | nil => exact h
  | cons e es ih => exact ih (h.step e)

/-! ## From an answer to its load -/

/-- A caller that waits for a load is answered only by the end of that load. -/
theorem ending_of_answer {g : Group ι} (hg : g.Unused) {before later : List (Event ι)}
    {access : Access} {caller leader : ι} {o : Outcome ByteView}
    (hwait : ((g.run before).flight access).leaderOf? caller = some leader)
    (ho : (g.run (before ++ later)).answer? access caller = some o) :
    ∃ how, ((g.run (before ++ later)).flight access).ending? leader = some how ∧
      o = how.outcome := by
  have hsound : Flight.Sound ((g.run before).flight access) := by
    rw [flight_run, hg.boards access]
    exact Flight.sound_run Flight.sound_empty _
  obtain ⟨key, hbound⟩ := hsound.bound_of_waiting hwait
  have hafter : Flight.Bound ((g.run (before ++ later)).flight access) caller leader key := by
    rw [run_append, flight_run]
    exact hbound.run _
  unfold answer? at ho
  split at ho
  next o' hat =>
    have happart := (hg.seated.run (before ++ later)).apart caller o' access (mem_of_find?_fst hat)
    exact absurd hafter.called happart.2
  next => exact hafter.answered o (mem_of_find?_fst ho)

/-- A caller that waits for a load is answered how the load ends. -/
theorem answer_of_waiting {g : Group ι} (hg : g.Unused) {before later : List (Event ι)}
    {access : Access} {caller leader : ι} {how : Ending ByteView} {o : Outcome ByteView}
    (hwait : ((g.run before).flight access).leaderOf? caller = some leader)
    (hend : ((g.run (before ++ later)).flight access).ending? leader = some how)
    (ho : (g.run (before ++ later)).answer? access caller = some o) : o = how.outcome := by
  obtain ⟨how', hend', rfl⟩ := ending_of_answer hg hwait ho
  rw [hend] at hend'
  rw [Option.some.inj hend']

/-! ## What a direct lookup is answered -/

/-- What a run makes a group produce. -/
def produced (g : Group ι) : List (Event ι) → List (String × List UInt8)
  | [] => []
  | e :: es => g.produces e ++ (g.step e).produced es

theorem produced_append (g : Group ι) (before after : List (Event ι)) :
    g.produced (before ++ after) = g.produced before ++ (g.run before).produced after := by
  induction before generalizing g with
  | nil => rfl
  | cons e es ih =>
    show g.produces e ++ (g.step e).produced (es ++ after) = _
    rw [ih (g.step e), ← List.append_assoc]
    rfl

/-- What one event produces in a run is produced by the run. -/
theorem mem_produced_mid {g : Group ι} {before after : List (Event ι)} {e : Event ι}
    {p : String × List UInt8} (h : p ∈ (g.run before).produces e) :
    p ∈ g.produced (before ++ e :: after) := by
  rw [produced_append]
  exact List.mem_append_right _ (List.mem_append_left _ h)

/-- A hit hands out the value that is stored. -/
theorem produces_hit {g : Group ι} {caller : ι} {access : Access} {key : String}
    {value : ByteView} (hcalled : caller ∉ g.callers) (hkey : key ≠ "")
    (hget : (g.store.get key).2 = some value) :
    (key, value.bytes) ∈ g.produces (.lookup caller access key) := by
  have hno : ¬ (caller ∈ g.callers ∨ key = "") := fun h => h.elim hcalled hkey
  simp only [produces, if_neg hno, hget]
  exact List.mem_singleton.2 rfl

/-- A group produces something when it looks a key up or its source answers. -/
theorem exists_of_mem_produced {g : Group ι} {events : List (Event ι)} {p : String × List UInt8}
    (h : p ∈ g.produced events) :
    (∃ caller access key, .lookup caller access key ∈ events) ∨
      ∃ access leader bytes, .sourceReply access leader (.ok bytes) ∈ events := by
  induction events generalizing g with
  | nil => cases h
  | cons e es ih =>
    rcases List.mem_append.1 h with h | h
    · cases e with
      | lookup caller access key => exact Or.inl ⟨caller, access, key, List.mem_cons_self⟩
      | sourceReply access leader reply =>
        cases reply with
        | ok bytes => exact Or.inr ⟨access, leader, bytes, List.mem_cons_self⟩
        | error text => cases h
      | registerPeers => cases h
      | start access leader picked => cases h
      | peerReply access leader reply => cases h
      | panic access leader text => cases h
      | deliver access caller => cases h
      | abandon access caller => cases h
    · rcases ih h with ⟨caller, access, key, hmem⟩ | ⟨access, leader, bytes, hmem⟩
      · exact Or.inl ⟨caller, access, key, List.mem_cons_of_mem e hmem⟩
      · exact Or.inr ⟨access, leader, bytes, List.mem_cons_of_mem e hmem⟩

/-- The supply of a load that asked the source is produced by the group. -/
theorem produces_supply {g : Group ι} {e : Event ι} {s : Supply ι} {key : String}
    (hs : s ∈ g.supplies e) (hrequest : s.request = .source key) :
    (key, s.bytes) ∈ g.produces e := by
  have hreq := request?_of_mem_supplies hs
  rw [hrequest] at hreq
  rcases brings_of_mem_supplies hs with rfl | rfl
  · simp only [supplies, hreq] at hs
    cases hs
  · simp only [produces, hreq]
    exact List.mem_singleton.2 rfl

/-- A direct lookup that is answered bytes asked for a key for which the group produced them. -/
theorem produced_of_answer {g : Group ι} (hg : g.Unused) {events : List (Event ι)} {caller : ι}
    {value : ByteView} (h : (g.run events).answer? .direct caller = some (.ok value)) :
    ∃ access key, .lookup caller access key ∈ events ∧ (key, value.bytes) ∈ g.produced events := by
  unfold answer? at h
  split at h
  next o ho =>
    -- a hit
    cases h
    obtain ⟨before, access, key, hfirst, hkey, hget⟩ :=
      exists_hit (mem_of_find?_fst ho) (by rw [hg.immediate]; exact List.not_mem_nil)
    obtain ⟨after, rfl⟩ := hfirst.split
    exact ⟨access, key, List.mem_append_right _ List.mem_cons_self,
      mem_produced_mid (produces_hit hfirst.first hkey hget)⟩
  next =>
    -- a load of the direct board, which only the source supplies
    obtain ⟨before, key, leader, how, hfirst, hkey, hend, hout⟩ :=
      load_of_answered hg (mem_of_find?_fst h)
    rw [outcome_eq_ok hout.symm] at hend
    have hfed := fed_run hg.fed events
    obtain ⟨s, hs, hof, haccess⟩ := hfed.ended .direct leader key value hend hkey
    have hsource : s.request = .source key := by
      rcases hof.request with hsource | ⟨address, hpeer⟩
      · exact hsource
      · have hrouted := hfed.remote s hs (by rw [hpeer]; rfl)
        rw [haccess] at hrouted
        cases hrouted
    obtain ⟨front, e, back, hsplit, hsup⟩ := exists_supplies hs
    obtain ⟨after, hlookup⟩ := hfirst.split
    refine ⟨.direct, key, ?_, ?_⟩
    · rw [hlookup]
      exact List.mem_append_right _ List.mem_cons_self
    · rw [hsplit, ← hof.bytes]
      exact mem_produced_mid (produces_supply hsup hsource)

end Group

end PeerCache
