import PeerCache.Proofs.Group.Moment
/-!
# PeerCache — events as moves

An event of a group is a list of moves with nothing in between: a lookup looks on until it is
answered or on a board, and a load that has its answer lands until it waits again or has ended. So
every state that `Group.run` comes to is a moment at rest, and what holds at every moment holds of
it (`exists_moves`).
-/

namespace PeerCache

namespace Group

namespace Moment

variable {ι : Type} [DecidableEq ι]

/-- Some moves lead from one moment to another. -/
def Leads (m n : Moment ι) : Prop := ∃ moves, m.run moves = n

theorem Leads.refl (m : Moment ι) : Leads m m := ⟨[], rfl⟩

theorem leads_step {m n : Moment ι} (move : Move ι) (h : m.step move = n) : Leads m n :=
  ⟨[move], h⟩

theorem Leads.trans {m n o : Moment ι} (hmn : Leads m n) (hno : Leads n o) : Leads m o := by
  obtain ⟨before, rfl⟩ := hmn
  obtain ⟨after, rfl⟩ := hno
  exact ⟨before ++ after, run_append m before after⟩

theorem Leads.to {m n o : Moment ι} (h : Leads m n) (heq : n = o) : Leads m o := heq ▸ h

/-! ## Moments on the way -/

/-- One lookup is on its way, and nothing else. -/
def looking (g : Group ι) (caller : ι) (visit : Visit) : Moment ι :=
  ⟨g, .insert .empty caller visit, .empty⟩

/-- One load is landing, and nothing else is on its way. -/
def landing (g : Group ι) (access : Access) (leader : ι) (next : Landing) : Moment ι :=
  ⟨g, .empty, .insert .empty (access, leader) next⟩

theorem looking_setVisit (g : Group ι) (caller : ι) (visit : Visit) (access : Access)
    (key : String) (next : Looking) :
    (looking g caller visit).setVisit caller access key next =
      looking g caller ⟨access, key, next⟩ :=
  congrArg (Moment.mk g · .empty) (Table.insert_insert _ _ _ _)

/-- A lookup that was the only one leaves nothing on its way when it has come to its end. -/
theorem erase_looking (g : Group ι) (caller : ι) (visit : Visit) :
    (⟨g, (looking g caller visit).visits.erase caller, .empty⟩ : Moment ι) = rest g :=
  congrArg (Moment.mk g · .empty) (Table.erase_insert rfl visit)

theorem landing_setLanding (g : Group ι) (access : Access) (leader : ι) (old next : Landing) :
    (landing g access leader old).setLanding access leader next = landing g access leader next :=
  congrArg (Moment.mk g .empty) (Table.insert_insert _ _ _ _)

theorem erase_landing (g : Group ι) (access : Access) (leader : ι) (next : Landing) :
    (⟨g, .empty, (landing g access leader next).landings.erase (access, leader)⟩ : Moment ι)
      = rest g :=
  congrArg (Moment.mk g .empty) (Table.erase_insert rfl next)

/-! ## A lookup, move by move -/

/-- One caller on its way goes on by one move. -/
theorem leads_look (g : Group ι) (caller : ι) (access : Access) (key : String) (next : Looking) :
    Leads (looking g caller ⟨access, key, next⟩)
      ((looking g caller ⟨access, key, next⟩).lookOn caller access key next) :=
  leads_step (.look caller) (look_eq (Table.find?_insert_self _ _ _))

/-- A lookup looks into the store. -/
theorem leads_counted (g : Group ι) (caller : ι) (access : Access) (key : String) :
    Leads (looking g caller ⟨access, key, .counted⟩)
      (looking { g with store := (g.store.get key).1 } caller
        ⟨access, key, match (g.store.get key).2 with
          | some value => .found value
          | none => .missed⟩) :=
  (leads_look g caller access key .counted).to
    (looking_setVisit { g with store := (g.store.get key).1 } caller _ access key _)

/-- A lookup that has found its value is answered. -/
theorem leads_found (g : Group ι) (caller : ι) (access : Access) (key : String)
    (value : ByteView) :
    Leads (looking g caller ⟨access, key, .found value⟩)
      (rest { g with
        counters := { g.counters with hits := g.counters.hits + 1 }
        immediate := g.immediate ++ [(caller, .ok value)] }) :=
  (leads_look g caller access key (.found value)).to (erase_looking _ caller _)

/-- A lookup that has missed comes to its board. -/
theorem leads_missed (g : Group ι) (caller : ι) (access : Access) (key : String) :
    Leads (looking g caller ⟨access, key, .missed⟩)
      (rest (g.setFlight access ((g.flight access).call caller key
        (.queued (decide (access = Access.routed) && g.hasRouter))))) :=
  ((leads_look g caller access key .missed).to (looking_setVisit g caller _ access key _)).trans
    ((leads_look g caller access key (.ready _)).to (erase_looking _ caller _))

/-- A lookup of the group is made of a call that comes in and of the caller going on to its end. -/
theorem leads_lookup (g : Group ι) (caller : ι) (access : Access) (key : String) :
    Leads (rest g) (rest (g.lookup caller access key)) := by
  rcases g.lookup_cases caller access key with
    ⟨hcalled, h⟩ | ⟨hcalled, hkey, h⟩ | ⟨value, hcalled, hkey, hget, h⟩ | ⟨hcalled, hkey, hget, h⟩
  · rw [h]
    exact Leads.refl _
  · rw [h]
    exact leads_step (.enter caller access key) (enter_refused (m := rest g) hcalled hkey)
  · refine (leads_step (.enter caller access key)
      (enter_counted (m := rest g) hcalled hkey)).trans ?_
    have hcounted := leads_counted { g with
      callers := g.callers ++ [caller]
      counters := { g.counters with gets := g.counters.gets + 1 } } caller access key
    simp only [hget] at hcounted
    rw [h]
    exact hcounted.trans (leads_found _ caller access key value)
  · refine (leads_step (.enter caller access key)
      (enter_counted (m := rest g) hcalled hkey)).trans ?_
    have hcounted := leads_counted { g with
      callers := g.callers ++ [caller]
      counters := { g.counters with gets := g.counters.gets + 1 } } caller access key
    simp only [hget] at hcounted
    rw [h]
    refine hcounted.trans ?_
    cases access <;> exact leads_missed _ caller _ key

/-! ## The end of a load, move by move -/

/-- One landing goes on by one move. -/
theorem leads_land {g : Group ι} {access : Access} {leader : ι} {key : String}
    (hkey : (g.flight access).key? leader = some key) (next : Landing) :
    Leads (landing g access leader next)
      ((landing g access leader next).landOn access leader key next) :=
  leads_step (.land access leader) (land_eq (Table.find?_insert_self _ _ _) hkey)

/-- The hook is told of all entries that were evicted, one after the other. -/
theorem leads_telling {g : Group ι} {access : Access} {leader : ι} {key : String}
    (hkey : (g.flight access).key? leader = some key) (origin : Origin) (bytes : List UInt8)
    (evicted : List (String × ByteView)) :
    Leads (landing g access leader (.telling origin bytes evicted))
      (landing { g with evicted := g.evicted ++ evicted } access leader
        (.telling origin bytes [])) := by
  induction evicted generalizing g with
  | nil =>
    rw [List.append_nil]
    exact Leads.refl _
  | cons entry evicted ih =>
    have hnext := ih (g := { g with evicted := g.evicted ++ [entry] })
      (by cases access <;> exact hkey)
    rw [List.append_assoc] at hnext
    refine Leads.trans ?_ hnext
    exact (leads_land hkey (.telling origin bytes (entry :: evicted))).to
      (landing_setLanding { g with evicted := g.evicted ++ [entry] } access leader _ _)

/-- A value is put into the store, and the hook is told of what that evicts. -/
theorem leads_keeping {g : Group ι} {access : Access} {leader : ι} {key : String}
    (hkey : (g.flight access).key? leader = some key) (origin : Origin) (bytes : List UInt8) :
    Leads (landing g access leader (.keeping origin bytes))
      (landing (g.keep key ⟨bytes⟩) access leader (.telling origin bytes [])) := by
  have hkept := (leads_land hkey (.keeping origin bytes)).to
    (landing_setLanding { g with store := (g.store.insert key ⟨bytes⟩).1 } access leader _
      (.telling origin bytes (g.store.insert key ⟨bytes⟩).2))
  exact hkept.trans (leads_telling (by cases access <;> exact hkey) origin bytes _)

/-- A load of which all is counted ends. -/
theorem leads_done {g : Group ι} {access : Access} {leader : ι} {key : String}
    (hkey : (g.flight access).key? leader = some key) (how : Ending ByteView) :
    Leads (landing g access leader (.done how)) (rest (g.finish access leader how)) :=
  (leads_land hkey (.done how)).to (erase_landing _ access leader _)

/-- A load that waits at rest begins to land when its answer comes. -/
theorem leads_reply {g : Group ι} {access : Access} {leader : ι} {move : Move ι} {next : Landing}
    (h : (rest g).step move = (rest g).setLanding access leader next) :
    Leads (rest g) (landing g access leader next) :=
  leads_step move h

/-- An answer of a peer is made of one that comes in and of the landing going on to its end. -/
theorem leads_peerReply (g : Group ι) (access : Access) (leader : ι)
    (reply : Except CacheError (List UInt8)) :
    Leads (rest g) (rest (g.peerReply access leader reply)) := by
  rcases g.peerReply_cases access leader reply with
    ⟨-, h⟩ | ⟨address, key, bytes, hreq, rfl, h⟩ | ⟨address, key, e, hreq, rfl, h⟩
  · rw [h]
    exact Leads.refl _
  -- A value: it is counted, then kept and told of by the policy, and then the load is done.
  · have hkey := (request?_eq_peer.1 hreq).2.1
    have hkey' : ((g.count fun c => { c with peerLoads := c.peerLoads + 1 }).flight access).key?
        leader = some key := by
      rw [flight_count]
      exact hkey
    have hreply : (rest g).step (.peerReply access leader (.ok bytes)) =
        (rest g).setLanding access leader (.fetched bytes) := by
      show (rest g).peerReply access leader (.ok bytes) = _
      unfold peerReply
      rw [show (rest g).request? access leader = _ from hreq]
    have hcounted := (leads_land hkey (.fetched bytes)).to
      (landing_setLanding (g.count fun c => { c with peerLoads := c.peerLoads + 1 }) access leader
        _ _)
    refine (leads_reply hreply).trans (hcounted.trans ?_)
    rw [h]
    show Leads (landing _ access leader (if g.policy = .populate then _ else _)) _
    split
    · have hkey'' : (((g.count fun c => { c with peerLoads := c.peerLoads + 1 }).keep key
          ⟨bytes⟩).flight access).key? leader = some key := by
        rw [flight_keep]
        exact hkey'
      refine (leads_keeping hkey' .peer bytes).trans ?_
      refine ((leads_land hkey'' (.telling .peer bytes [])).to
        (landing_setLanding _ access leader _ _)).trans ?_
      exact (leads_done hkey'' _).to (by cases access <;> rfl)
    · exact (leads_done hkey' _).to (by cases access <;> rfl)
  -- A failure: it is counted, and then the load turns to the source.
  · have hkey := (request?_eq_peer.1 hreq).2.1
    have hkey' : ((g.count fun c => { c with peerErrors := c.peerErrors + 1 }).flight access).key?
        leader = some key := by
      rw [flight_count]
      exact hkey
    have hreply : (rest g).step (.peerReply access leader (.error e)) =
        (rest g).setLanding access leader .rebuffed := by
      show (rest g).peerReply access leader (.error e) = _
      unfold peerReply
      rw [show (rest g).request? access leader = _ from hreq]
    have hcounted := (leads_land hkey .rebuffed).to
      (landing_setLanding (g.count fun c => { c with peerErrors := c.peerErrors + 1 }) access leader
        _ _)
    refine (leads_reply hreply).trans (hcounted.trans ?_)
    rw [h]
    exact ((leads_land hkey' .turning).to (erase_landing _ access leader _)).to
      (by cases access <;> rfl)

theorem leads_sourceReply (g : Group ι) (access : Access) (leader : ι)
    (reply : Except String (List UInt8)) :
    Leads (rest g) (rest (g.sourceReply access leader reply)) := by
  rcases g.sourceReply_cases access leader reply with
    ⟨-, h⟩ | ⟨key, bytes, hreq, rfl, h⟩ | ⟨key, text, hreq, rfl, h⟩
  · rw [h]
    exact Leads.refl _
  -- A value: it is kept and told of, then counted, and then the load is done.
  · have hkey := (request?_eq_source.1 hreq).2
    have hkey' : ((g.keep key ⟨bytes⟩).flight access).key? leader = some key := by
      rw [flight_keep]
      exact hkey
    have hkey'' : (((g.keep key ⟨bytes⟩).count fun c =>
        { c with localLoads := c.localLoads + 1 }).flight access).key? leader = some key := by
      rw [flight_count]
      exact hkey'
    have hreply : (rest g).step (.sourceReply access leader (.ok bytes)) =
        (rest g).setLanding access leader (.keeping .source bytes) := by
      show (rest g).sourceReply access leader (.ok bytes) = _
      unfold sourceReply
      rw [show (rest g).request? access leader = _ from hreq]
    refine (leads_reply hreply).trans ((leads_keeping hkey .source bytes).trans ?_)
    refine ((leads_land hkey' (.telling .source bytes [])).to
      (landing_setLanding _ access leader _ _)).trans ?_
    rw [h]
    exact (leads_done hkey'' _).to (by cases access <;> rfl)
  -- A failure: it is counted, and then the load is done.
  · have hkey := (request?_eq_source.1 hreq).2
    have hkey' : ((g.count fun c => { c with localErrors := c.localErrors + 1 }).flight access).key?
        leader = some key := by
      rw [flight_count]
      exact hkey
    have hreply : (rest g).step (.sourceReply access leader (.error text)) =
        (rest g).setLanding access leader (.failed text) := by
      show (rest g).sourceReply access leader (.error text) = _
      unfold sourceReply
      rw [show (rest g).request? access leader = _ from hreq]
    have hcounted := (leads_land hkey (.failed text)).to
      (landing_setLanding (g.count fun c => { c with localErrors := c.localErrors + 1 }) access
        leader _ _)
    refine (leads_reply hreply).trans (hcounted.trans ?_)
    rw [h]
    exact (leads_done hkey' _).to (by cases access <;> rfl)

/-! ## Events and runs -/

/-- So every event of a group is made of moves. -/
theorem leads_event (g : Group ι) (e : Event ι) : Leads (rest g) (rest (g.step e)) := by
  cases e with
  | registerPeers => exact leads_step .registerPeers rfl
  | lookup caller access key => exact leads_lookup g caller access key
  | start access leader picked => exact leads_step (.start access leader picked) rfl
  | peerReply access leader reply => exact leads_peerReply g access leader reply
  | sourceReply access leader reply => exact leads_sourceReply g access leader reply
  | panic access leader text =>
    refine leads_step (.panic access leader text) ?_
    show (rest g).panic access leader text = rest (g.panic access leader text)
    rcases g.panic_cases access leader text with ⟨hno, h⟩ | ⟨request, hreq, h⟩
    · unfold panic
      rw [h, show (rest g).request? access leader = none from hno]
    · unfold panic
      rw [h, show (rest g).request? access leader = some request from hreq]
      rfl
  | deliver access caller => exact leads_step (.deliver access caller) rfl
  | abandon access caller => exact leads_step (.abandon access caller) rfl

/-- What a run of the group comes to, moves come to as well. -/
theorem exists_moves (g : Group ι) (events : List (Event ι)) :
    ∃ moves, (rest g).run moves = rest (g.run events) := by
  show Leads (rest g) (rest (g.run events))
  induction events generalizing g with
  | nil => exact Leads.refl _
  | cons e es ih => exact (leads_event g e).trans (ih (g.step e))

end Moment

end Group

end PeerCache
