import Mathlib.Data.List.Induction
import PeerCache.Proofs.Group.Landings
import PeerCache.Proofs.Group.Moves
/-!
# PeerCache — the counters of a group

Every lookup and every load of a group is counted once, at whatever moment one looks:

* **`accounted_step`** — what one move does to the counters is what it adds to the account.
* **`inFlight_of_settled`** — when all callers have been answered no load is in flight.
* **`joined_of_oneAtATime`** — where lookups are made one at a time nobody joins a load.

The last section has the balance of the counters over whole runs.
-/

namespace PeerCache

/-! ## Numbers of entries -/

namespace Table

variable {κ ν : Type} [DecidableEq κ]

theorem size_insert_new {t : Table κ ν} {k : κ} (h : t.find? k = none) (v : ν) :
    (t.insert k v).size = t.size + 1 :=
  congrArg List.length (entries_insert v h)

theorem size_erase {t : Table κ ν} {k : κ} {v : ν} (h : t.find? k = some v) :
    (t.erase k).size + 1 = t.size :=
  (entries_erase_perm h).length_eq.symm

theorem size_insert {t : Table κ ν} {k : κ} {v : ν} (h : t.find? k = some v) (w : ν) :
    (t.insert k w).size = t.size :=
  size_erase h

theorem find?_of_size {t : Table κ ν} (h : t.size = 0) (k : κ) : t.find? k = none := by
  unfold find?
  rw [List.length_eq_zero_iff.1 h]
  rfl

theorem size_of_find? {t : Table κ ν} (h : ∀ k, t.find? k = none) : t.size = 0 := by
  refine List.length_eq_zero_iff.2 (List.eq_nil_iff_forall_not_mem.2 ?_)
  rintro ⟨k, v⟩ hmem
  cases (h k).symm.trans ((t.mem_iff_find? k v).1 hmem)

variable [DecidableEq ν]

/-- A new key brings one value more. -/
theorem count_insert_new {t : Table κ ν} {k : κ} (h : t.find? k = none) (v x : ν) :
    (t.insert k v).values.count x = t.values.count x + if v = x then 1 else 0 := by
  unfold values
  rw [entries_insert v h, List.map_cons, List.count_cons]
  simp only [beq_iff_eq]

theorem count_erase {t : Table κ ν} {k : κ} {v : ν} (h : t.find? k = some v) (x : ν) :
    (t.erase k).values.count x + (if v = x then 1 else 0) = t.values.count x := by
  have hcount := ((entries_erase_perm h).map Prod.snd).count_eq x
  rw [List.map_cons, List.count_cons] at hcount
  simp only [beq_iff_eq] at hcount
  exact hcount.symm

/-- A key that is there already gives its value for the new one. -/
theorem count_insert {t : Table κ ν} {k : κ} {v : ν} (h : t.find? k = some v) (w x : ν) :
    (t.insert k w).values.count x + (if v = x then 1 else 0) =
      t.values.count x + if w = x then 1 else 0 := by
  have herase := count_erase h x
  have hinsert : (t.insert k w).values.count x =
      (t.erase k).values.count x + if w = x then 1 else 0 := by
    show (w :: (t.erase k).values).count x = _
    rw [List.count_cons]
    simp only [beq_iff_eq]
  omega

end Table

namespace Group

namespace Moment

variable {ι : Type} [DecidableEq ι]

/-! ## What one move counts -/

omit [DecidableEq ι] in
/-- The failures of peers that are still to be counted are landings of their own. -/
theorem unheard_eq (m : Moment ι) : m.unheard = m.landings.values.count .rebuffed := rfl

/-- From one moment to a later one the counters change by what the moves between them add to the
account. Lookups that are on their way stand beside the hits, and peer errors that have not been
counted yet beside those that have. -/
structure Accounted (m n : Moment ι) (a : Account ι) : Prop where
  callers : n.group.callers.length + m.group.counters.gets =
    m.group.callers.length + n.group.counters.gets + a.refused.length
  gets : n.group.counters.gets + m.group.counters.hits + m.visits.size =
    m.group.counters.gets + n.group.counters.hits + n.visits.size + a.joined.length +
      a.opened.length
  peerLoads : n.group.counters.peerLoads =
    m.group.counters.peerLoads + (a.counted.map Prod.snd).count .peer
  localLoads : n.group.counters.localLoads =
    m.group.counters.localLoads + (a.counted.map Prod.snd).count .source
  localErrors : n.group.counters.localErrors =
    m.group.counters.localErrors + (a.counted.map Prod.snd).count .failed
  peerErrors : n.group.counters.peerErrors + n.unheard =
    m.group.counters.peerErrors + m.unheard + a.rebuffed.length

omit [DecidableEq ι] in
/-- Nothing has happened that is counted. -/
theorem accounted_same {m n : Moment ι} {ended : List (Load ι)}
    (hcounters : n.group.counters = m.group.counters) (hcallers : n.group.callers = m.group.callers)
    (hvisits : n.visits.size = m.visits.size) (hunheard : n.unheard = m.unheard) :
    Accounted m n { ended := ended } := by
  constructor <;> simp [hcounters, hcallers, hvisits, hunheard, Nat.add_comm]

omit [DecidableEq ι] in
/-- What a load has come to is counted. -/
theorem accounted_counted {m n : Moment ι} {closing : Closing} {load : Load ι}
    {ended : List (Load ι)} (hcounters : n.group.counters = closing.tally m.group.counters)
    (hcallers : n.group.callers = m.group.callers) (hvisits : n.visits.size = m.visits.size)
    (hunheard : n.unheard = m.unheard) :
    Accounted m n { counted := [(load, closing)], ended := ended } := by
  constructor <;> rw [hcounters] <;> cases closing <;>
    simp [Closing.tally, hcallers, hvisits, hunheard, Nat.add_comm]

/-- No landing goes on to a failure of a peer; one that was at it has counted it. -/
theorem unheard_landOn {m : Moment ι} {access : Access} {leader : ι} {landing : Landing}
    (hold : m.landings.find? (access, leader) = some landing) (key : String) :
    (m.landOn access leader key landing).unheard + (if landing = .rebuffed then 1 else 0) =
      m.unheard := by
  rw [unheard_eq, unheard_eq]
  rcases m.landings_landOn access leader key landing with ⟨next, hnext, heq⟩ | ⟨-, heq⟩
  · have hcount := Table.count_insert hold next .rebuffed
    rw [if_neg hnext.rebuffed] at hcount
    rw [heq]
    exact hcount
  · rw [heq]
    exact Table.count_erase hold _

/-! ## The moves of a lookup and of a load -/

/-- A landing that goes on counts its load where that is due; whether the load ends there is no
matter to the counters. -/
theorem accounted_landOn {m : Moment ι} {access : Access} {leader : ι} {landing : Landing}
    (hold : m.landings.find? (access, leader) = some landing) (key : String)
    {ended : List (Load ι)} :
    Accounted m (m.landOn access leader key landing)
      { counted := landing.counts.toList.map fun closing => ((access, leader), closing),
        ended := ended } := by
  obtain ⟨hakin, hvisits⟩ := m.akin_landOn access leader key landing
  have hunheard := unheard_landOn hold key
  have hsize := congrArg Table.size hvisits
  -- What is told of, and what is kept, counts nothing; the turn of a failed question was counted
  -- before it.
  cases landing with
  | fetched bytes => exact accounted_counted rfl hakin.callers hsize hunheard
  | rebuffed =>
    -- A failure that stood beside the peer errors is one of them now.
    have hone : (m.landOn access leader key .rebuffed).unheard + 1 = m.unheard := hunheard
    constructor
    case peerErrors =>
      show m.group.counters.peerErrors + 1 + _ = m.group.counters.peerErrors + m.unheard
      omega
    all_goals rfl
  | turning => exact accounted_same (counters_setFlight _ _ _) hakin.callers hsize hunheard
  | keeping origin bytes => exact accounted_same rfl hakin.callers hsize hunheard
  | telling origin bytes evicted =>
    cases evicted with
    | cons entry rest => cases origin <;> exact accounted_same rfl hakin.callers hsize hunheard
    | nil =>
      cases origin with
      | peer => exact accounted_same rfl hakin.callers hsize hunheard
      | source => exact accounted_counted rfl hakin.callers hsize hunheard
  | failed text => exact accounted_counted rfl hakin.callers hsize hunheard
  | done how => exact accounted_same (counters_setFlight _ _ _) hakin.callers hsize hunheard


/-- A call that comes in counts a lookup, or is refused without one. -/
theorem accounted_enter (m : Moment ι) (caller : ι) (access : Access) (key : String)
    (hseats : m.Seats) :
    Accounted m (m.enter caller access key)
      { refused := m.refuses (.enter caller access key) } := by
  rcases m.enter_cases caller access key with
    ⟨hcalled, heq⟩ | ⟨hnew, hkey, heq⟩ | ⟨hnew, hkey, heq⟩
  · rw [show m.refuses (.enter caller access key) = [] from if_neg fun h => h.1 hcalled, heq]
    exact accounted_same rfl rfl rfl rfl
  · rw [show m.refuses (.enter caller access key) = [caller] from if_pos ⟨hnew, hkey⟩, heq]
    constructor
    case callers => simp [Nat.add_right_comm]
    all_goals rfl
  · have hvisits : m.visits.find? caller = none := hseats.not_visiting hnew
    have hsize := Table.size_insert_new hvisits ⟨access, key, .counted⟩
    rw [show m.refuses (.enter caller access key) = [] from if_neg fun h => hkey h.2, heq]
    constructor
    case callers => simp only [List.length_append, List.length_singleton, List.length_nil]; omega
    case gets => simp only [hsize, List.length_nil]; omega
    all_goals rfl

/-- A lookup that goes on hits, joins a load, or opens one. -/
theorem accounted_look (m : Moment ι) (caller : ι) :
    Accounted m (m.look caller)
      { joined := m.joins (.look caller), opened := m.opens (.look caller) } := by
  cases hvisit : m.visits.find? caller with
  | none =>
    simp only [joins, opens, hvisit, look_of_none hvisit]
    exact accounted_same rfl rfl rfl rfl
  | some visit =>
    obtain ⟨access, key, looking⟩ := visit
    have herase := Table.size_erase hvisit
    have hinsert := fun next => Table.size_insert hvisit ⟨access, key, next⟩
    rw [look_eq hvisit]
    cases looking with
    | counted =>
      simp only [joins, opens, hvisit]
      exact accounted_same rfl rfl (hinsert _) rfl
    | found value =>
      simp only [joins, opens, hvisit]
      constructor
      case gets =>
        show m.group.counters.gets + m.group.counters.hits + m.visits.size =
          m.group.counters.gets + (m.group.counters.hits + 1) + (m.visits.erase caller).size
        omega
      all_goals rfl
    | missed =>
      simp only [joins, opens, hvisit]
      exact accounted_same rfl rfl (hinsert _) rfl
    | ready router =>
      -- a caller that joins and a load that is started count alike
      have hone : (m.joins (.look caller)).length + (m.opens (.look caller)).length = 1 := by
        simp only [joins, opens, hvisit]
        split <;> rfl
      have hcounters : (m.lookOn caller access key (.ready router)).group.counters =
          m.group.counters := counters_setFlight _ _ _
      have hcallers : (m.lookOn caller access key (.ready router)).group.callers =
          m.group.callers := callers_setFlight _ _ _
      constructor
      case gets =>
        rw [hcounters]
        show m.group.counters.gets + m.group.counters.hits + m.visits.size =
          m.group.counters.gets + m.group.counters.hits + (m.visits.erase caller).size +
            (m.joins (.look caller)).length + (m.opens (.look caller)).length
        omega
      case callers =>
        rw [hcounters, hcallers]
        rfl
      all_goals
        rw [hcounters]
        rfl

/-- A load whose answer comes has counted nothing yet, and no failure of its peer but the one that
comes now. -/
theorem unheard_setLanding {m : Moment ι} {access : Access} {leader : ι}
    (hold : m.landings.find? (access, leader) = none) (next : Landing) :
    (m.setLanding access leader next).unheard = m.unheard + if next = .rebuffed then 1 else 0 :=
  Table.count_insert_new hold next _

/-- An answer of a peer counts nothing yet. A failure stands on the account from now on, and waits
to be counted. -/
theorem accounted_peerReply (m : Moment ι) (access : Access) (leader : ι)
    (reply : Except CacheError (List UInt8)) :
    Accounted m (m.peerReply access leader reply)
      { rebuffed := m.rebuffs (.peerReply access leader reply) } := by
  rcases m.peerReply_cases access leader reply with
    ⟨hno, heq⟩ | ⟨address, name, key, hreq, ⟨bytes, rfl, heq⟩ | ⟨error, rfl, heq⟩⟩
  · have hsilent : m.rebuffs (.peerReply access leader reply) = [] := by
      unfold rebuffs
      split
      next heq =>
        cases heq
        split
        next hreq => exact absurd hreq (hno _ _ _)
        next => rfl
      next => rfl
    rw [hsilent, heq]
    exact accounted_same rfl rfl rfl rfl
  · rw [heq]
    exact accounted_same rfl rfl rfl (unheard_setLanding (request?_eq_some.1 hreq).1 _)
  -- The failure is on the account at once, and stands beside the peer errors until its landing goes
  -- on.
  · have hunheard := unheard_setLanding (request?_eq_some.1 hreq).1 .rebuffed
    simp only [rebuffs, hreq, heq]
    constructor
    case peerErrors =>
      show m.group.counters.peerErrors + (m.setLanding access leader .rebuffed).unheard = _
      rw [hunheard, Nat.add_assoc]
      rfl
    all_goals rfl

theorem accounted_sourceReply (m : Moment ι) (access : Access) (leader : ι)
    (reply : Except String (List UInt8)) :
    Accounted m (m.sourceReply access leader reply) {} := by
  rcases m.sourceReply_cases access leader reply with
    ⟨-, heq⟩ | ⟨key, hreq, ⟨bytes, -, heq⟩ | ⟨text, -, heq⟩⟩
  · rw [heq]
    exact accounted_same rfl rfl rfl rfl
  · rw [heq]
    exact accounted_same rfl rfl rfl (unheard_setLanding (request?_eq_some.1 hreq).1 _)
  · rw [heq]
    exact accounted_same rfl rfl rfl (unheard_setLanding (request?_eq_some.1 hreq).1 _)

/-- A panic ends its load and counts nothing. -/
theorem accounted_panic (m : Moment ι) (access : Access) (leader : ι) (text : String) :
    Accounted m (m.panic access leader text)
      { counted := m.counts (.panic access leader text)
        ended := m.ends (.panic access leader text) } := by
  rcases m.panic_cases access leader text with ⟨hno, heq⟩ | ⟨request, hreq, heq⟩
  · simp only [counts, hno, heq]
    exact accounted_same rfl rfl rfl rfl
  · simp only [counts, hreq, heq]
    exact accounted_counted (counters_setFlight _ _ _) (callers_setFlight _ _ _) rfl rfl

/-- A landing that goes on does what it stands at. -/
theorem accounted_land {m : Moment ι} (h : m.Landed) (access : Access) (leader : ι) :
    Accounted m (m.land access leader)
      { counted := m.counts (.land access leader), ended := m.ends (.land access leader) } := by
  cases hold : m.landings.find? (access, leader) with
  | none =>
    simp only [counts, hold, land_of_none hold]
    exact accounted_same rfl rfl rfl rfl
  | some old =>
    obtain ⟨phase, hwork, -⟩ := h access leader old hold
    obtain ⟨key, hkey⟩ := key?_of_work? hwork
    simp only [counts, hold, land_eq hold hkey]
    exact accounted_landOn hold key

/-- What one move does to the counters is what it adds to the account. -/
theorem accounted_step {m : Moment ι} (h : m.Orderly) (move : Move ι) :
    Accounted m (m.step move) (m.account [move]) := by
  have hone : ∀ {β : Type} (line : Moment ι → Move ι → List β),
      told step line m [move] = line m move := fun line => List.append_nil _
  simp only [account, hone]
  -- Four kinds of moves count nothing and stand on no line of the account.
  cases move with
  | registerPeers =>
    show Accounted m { m with group := m.group.step .registerPeers } {}
    rw [step_registerPeers]
    exact accounted_same rfl rfl rfl rfl
  | enter caller access key => exact accounted_enter m caller access key h.seats
  | look caller => exact accounted_look m caller
  | start access leader picked =>
    show Accounted m { m with group := m.group.start access leader picked } {}
    rcases m.group.start_cases access leader picked with ⟨-, h⟩ | ⟨router, -, h⟩ <;> rw [h]
    · exact accounted_same rfl rfl rfl rfl
    · exact accounted_same (counters_setFlight _ _ _) (callers_setFlight _ _ _) rfl rfl
  | peerReply access leader reply => exact accounted_peerReply m access leader reply
  | sourceReply access leader reply => exact accounted_sourceReply m access leader reply
  | panic access leader text => exact accounted_panic m access leader text
  | land access leader => exact accounted_land h.landed access leader
  | deliver access caller =>
    exact accounted_same (counters_setFlight _ _ _) (callers_setFlight _ _ _) rfl rfl
  | abandon access caller =>
    exact accounted_same (counters_setFlight _ _ _) (callers_setFlight _ _ _) rfl rfl

/-! ## What a run counts -/

/-- One account after another. -/
def Account.append (a b : Account ι) : Account ι where
  refused := a.refused ++ b.refused
  joined := a.joined ++ b.joined
  opened := a.opened ++ b.opened
  rebuffed := a.rebuffed ++ b.rebuffed
  counted := a.counted ++ b.counted
  ended := a.ended ++ b.ended

/-- The account of a run is that of its first move, and of the rest from there. -/
theorem account_cons (m : Moment ι) (move : Move ι) (moves : List (Move ι)) :
    m.account (move :: moves) = (m.account [move]).append ((m.step move).account moves) := by
  simp only [account, Account.append, told, List.append_nil]

omit [DecidableEq ι] in
/-- Accounts of two parts of a run add up. -/
theorem Accounted.trans {m n o : Moment ι} {a b : Account ι} (hmn : Accounted m n a)
    (hno : Accounted n o b) : Accounted m o (a.append b) where
  callers := by
    have h₁ := hmn.callers
    have h₂ := hno.callers
    simp only [Account.append, List.length_append]
    omega
  gets := by
    have h₁ := hmn.gets
    have h₂ := hno.gets
    simp only [Account.append, List.length_append]
    omega
  peerLoads := by
    rw [hno.peerLoads, hmn.peerLoads, Nat.add_assoc, ← List.count_append, ← List.map_append]
    rfl
  localLoads := by
    rw [hno.localLoads, hmn.localLoads, Nat.add_assoc, ← List.count_append, ← List.map_append]
    rfl
  localErrors := by
    rw [hno.localErrors, hmn.localErrors, Nat.add_assoc, ← List.count_append, ← List.map_append]
    rfl
  peerErrors := by
    rw [hno.peerErrors, hmn.peerErrors, Nat.add_assoc, ← List.length_append]
    rfl

/-- The run lemma: whatever moves are made, the counters differ by what the account says. -/
theorem accounted_run {m : Moment ι} (h : m.Orderly) (moves : List (Move ι)) :
    Accounted m (m.run moves) (m.account moves) := by
  induction moves generalizing m with
  | nil => exact accounted_same rfl rfl rfl rfl
  | cons move moves ih =>
    rw [account_cons]
    exact (accounted_step h move).trans (ih (h.step move))

/-! ## One call at a time

A caller that has been answered is not on its way, and a leader that has been answered leads no load
that is in flight. So when all callers have been answered nothing is in flight and nothing on its
way, and a lookup that is made then meets no load that it could join. -/

/-- A caller is answered at once or by the board that it is on. -/
theorem At.place_of_answer {m : Moment ι} (h : m.Orderly) {c : ι} {place : Place}
    (hat : m.At c place) {access : Access} {o : Outcome ByteView}
    (ho : m.group.answer? access c = some o) :
    place = .answered ∨
      place = .board access ∧ (c, o) ∈ (m.group.flight access).answered := by
  unfold Group.answer? at ho
  split at ho
  next o' hnow => exact Or.inl (hat.answered.1 ⟨o', mem_of_find?_fst hnow⟩)
  next =>
    have hmem := mem_of_find?_fst ho
    exact Or.inr ⟨(hat.board access).1 ((h.sound access).answered _ hmem), hmem⟩

/-- When all callers have been answered no lookup is on its way. -/
theorem visits_of_settled {m : Moment ι} (h : m.Orderly) (hsettled : m.Settled) :
    m.visits.size = 0 := by
  refine Table.size_of_find? fun c => ?_
  obtain ⟨place, hat⟩ := h.seats c
  cases hvisit : m.visits.find? c with
  | none => rfl
  | some visit =>
    obtain rfl := hat.visiting.1 ⟨visit, hvisit⟩
    obtain ⟨access, o, ho⟩ := hsettled c (hat.called.2 (by simp))
    rcases hat.place_of_answer h ho with heq | ⟨heq, -⟩ <;> cases heq

/-- When all callers have been answered no load is in flight. -/
theorem inFlight_of_settled {m : Moment ι} (h : m.Orderly) (hsettled : m.Settled) :
    m.group.inFlight = [] := by
  refine List.eq_nil_iff_forall_not_mem.2 ?_
  rintro ⟨access, leader⟩ hmem
  obtain ⟨phase, hwork⟩ := (inFlight_iff_work? (h.sound access) leader).1 hmem
  obtain ⟨key, hkey⟩ := key?_of_work? hwork
  have hbound : Flight.Bound (m.group.flight access) leader leader key := by
    obtain ⟨events, hevents⟩ := h.boards access
    rw [hevents] at hkey ⊢
    exact Flight.bound_of_key? hkey
  obtain ⟨place, hat⟩ := h.seats leader
  obtain rfl := (hat.board access).1 hbound.called
  -- the leader has been answered, and by nothing but the end of its own load
  obtain ⟨access', o, ho⟩ := hsettled leader (hat.called.2 (by simp))
  rcases hat.place_of_answer h ho with heq | ⟨heq, hanswered⟩ <;> cases heq
  obtain ⟨how, hend, -⟩ := hbound.answered o hanswered
  obtain ⟨k, hx⟩ := Flight.work?_eq_some.1 hwork
  rw [Flight.ending?_underway hx] at hend
  cases hend

/-! ## Nobody beside a call -/

/-- Whoever is on its way with a lookup is alone in the group. -/
def Alone (m : Moment ι) : Prop :=
  m.visits.size ≤ 1 ∧ (m.visits.size ≠ 0 → m.group.inFlight = [])

/-- A move that opens no load leaves none in flight where none was. -/
theorem inFlight_step_eq_nil {m : Moment ι} (h : m.Orderly) {move : Move ι}
    (hopens : m.opens move = []) (hnone : m.group.inFlight = []) :
    (m.step move).group.inFlight = [] := by
  have hloads := loads_step h move
  rw [hopens, hnone] at hloads
  exact (List.append_eq_nil_iff.1 hloads.symm.eq_nil).2

/-- A caller that is on its way alone stays so until it has opened its load. -/
theorem Alone.look {m : Moment ι} (halone : m.Alone) (h : m.Orderly) (caller : ι) :
    (m.look caller).Alone := by
  cases hvisit : m.visits.find? caller with
  | none =>
    rw [look_of_none hvisit]
    exact halone
  | some visit =>
    obtain ⟨access, key, looking⟩ := visit
    have herase := Table.size_erase hvisit
    have hsize := halone.1
    have hnone := halone.2 (by omega)
    -- the lookup stays the only one, or it was the only one and is on its way no more
    suffices hnext : (m.look caller).visits.size = 0 ∨
        (m.look caller).visits.size = m.visits.size ∧ m.opens (.look caller) = [] by
      rcases hnext with hgone | ⟨hsame, hopens⟩
      · exact ⟨by omega, fun hno => absurd hgone hno⟩
      · exact ⟨by omega, fun _ => inFlight_step_eq_nil h hopens hnone⟩
    rw [look_eq hvisit]
    cases looking with
    | counted => exact Or.inr ⟨Table.size_insert hvisit _, by simp only [opens, hvisit]⟩
    | found value => exact Or.inl (show (m.visits.erase caller).size = 0 by omega)
    | missed => exact Or.inr ⟨Table.size_insert hvisit _, by simp only [opens, hvisit]⟩
    | ready router => exact Or.inl (show (m.visits.erase caller).size = 0 by omega)

/-- Whoever is on its way stays alone if nobody comes in before the last one is settled. -/
theorem Alone.step {m : Moment ι} (halone : m.Alone) (h : m.Orderly) {move : Move ι}
    (hsettled : ∀ caller access key, move = .enter caller access key → m.Settled) :
    (m.step move).Alone := by
  rcases m.enter_or_look_or_akin move with
    ⟨caller, access, key, rfl⟩ | ⟨caller, rfl⟩ | ⟨hnot, -, hvisits⟩
  · -- When everybody is settled nobody is on the way and nothing is in flight.
    have hvisits := visits_of_settled h (hsettled caller access key rfl)
    have hnone := inFlight_of_settled h (hsettled caller access key rfl)
    refine ⟨?_, fun _ => inFlight_step_eq_nil h rfl hnone⟩
    show (m.enter caller access key).visits.size ≤ 1
    rcases m.enter_cases caller access key with ⟨-, heq⟩ | ⟨-, -, heq⟩ | ⟨-, -, heq⟩
    · rw [heq]
      exact halone.1
    · rw [heq]
      exact halone.1
    · have hinsert := Table.size_insert_new (Table.find?_of_size hvisits caller)
        ⟨access, key, .counted⟩
      rw [heq]
      show (m.visits.insert caller ⟨access, key, .counted⟩).size ≤ 1
      omega
  · exact halone.look h caller
  · -- Only a look opens a load.
    have hopens : m.opens move = [] := by
      refine List.eq_nil_iff_forall_not_mem.2 fun load hload => ?_
      obtain ⟨key, router, heq, -⟩ := mem_opens hload
      exact hnot load.2 heq
    unfold Alone
    rw [hvisits]
    exact ⟨halone.1, fun hno => inFlight_step_eq_nil h hopens (halone.2 hno)⟩

/-- So at each moment of a run in which callers come one at a time, whoever is on its way is
alone. -/
theorem alone_run {m : Moment ι} (halone : m.Alone) (h : m.Orderly) {moves : List (Move ι)}
    (hone : m.OneAtATime moves) {before after : List (Move ι)} (hsplit : moves = before ++ after) :
    (m.run before).Alone := by
  induction before using List.reverseRecOn generalizing after with
  | nil => exact halone
  | append_singleton before move ih =>
    have hsplit' : moves = before ++ move :: after := hsplit.trans (List.append_assoc _ _ _)
    rw [run_append]
    refine (ih hsplit').step (h.run before) fun caller access key heq => ?_
    subst heq
    exact hone before caller access key after hsplit'

/-- If callers come one at a time, nobody joins a load. -/
theorem joined_of_oneAtATime {m : Moment ι} (halone : m.Alone) (h : m.Orderly)
    {moves : List (Move ι)} (hone : m.OneAtATime moves) : (m.account moves).joined = [] := by
  refine List.eq_nil_iff_forall_not_mem.2 fun joiner hmem => ?_
  obtain ⟨before, move, after, hsplit, hjoin⟩ := exists_of_mem_told hmem
  have hbefore := alone_run halone h hone hsplit
  unfold joins at hjoin
  split at hjoin
  next caller =>
    split at hjoin
    next access key router hvisit =>
      split at hjoin
      next => cases hjoin
      next hmark =>
        obtain ⟨leader, hmark⟩ := Option.ne_none_iff_exists'.1 hmark
        have hflight : (access, leader) ∈ (m.run before).group.inFlight :=
          mem_inFlight.2 (List.mem_map.2 ⟨(key, leader), (Table.mem_iff_find? _ _ _).2 hmark, rfl⟩)
        have hsize : _ = (m.run before).visits.size := Table.size_erase hvisit
        rw [hbefore.2 (by omega)] at hflight
        cases hflight
    next => cases hjoin
  next => cases hjoin

/-! ## Runs without a panic -/

/-- A load is counted as one that has panicked by a panic. -/
theorem panic_of_counts {m : Moment ι} {move : Move ι} {load : Load ι}
    (h : (load, .panicked) ∈ m.counts move) : ∃ text, move = .panic load.1 load.2 text := by
  unfold counts at h
  split at h
  next access leader =>
    split at h
    next landing hlanding =>
      obtain ⟨closing, hclosing, heq⟩ := List.mem_map.1 h
      cases heq
      cases landing with
      | telling origin bytes evicted =>
        cases origin <;> cases evicted <;> simp [Landing.counts] at hclosing
      | _ => simp [Landing.counts] at hclosing
    next => cases h
  next access leader text =>
    split at h
    next =>
      cases List.mem_singleton.1 h
      exact ⟨text, rfl⟩
    next => cases h
  next => cases h

/-- Without a panic none is counted so. -/
theorem panicked_of_no_panic {m : Moment ι} {moves : List (Move ι)}
    (hno : ∀ access leader text, Move.panic access leader text ∉ moves) :
    ((m.account moves).counted.map Prod.snd).count .panicked = 0 := by
  refine List.count_eq_zero.2 fun hmem => ?_
  obtain ⟨⟨load, closing⟩, hcounted, rfl⟩ := List.mem_map.1 hmem
  obtain ⟨before, move, after, rfl, hcounts⟩ := exists_of_mem_told hcounted
  obtain ⟨text, rfl⟩ := panic_of_counts hcounts
  exact hno load.1 load.2 text (List.mem_append_right _ List.mem_cons_self)

/-- Whether a move is a lookup that is made. -/
def Move.isEnter : Move ι → Bool
  | .enter _ _ _ => true
  | _ => false

theorem oneAtATime_cons (m : Moment ι) (move : Move ι) (moves : List (Move ι)) :
    m.OneAtATime (move :: moves) ↔
      (move.isEnter = true → m.Settled) ∧ (m.step move).OneAtATime moves := by
  constructor
  · intro h
    constructor
    · intro henter
      cases move with
      | enter caller access key => exact h [] caller access key moves rfl
      | _ => cases henter
    · intro before caller access key after heq
      exact h (move :: before) caller access key after (congrArg (move :: ·) heq)
  · rintro ⟨hfirst, hrest⟩ before caller access key after heq
    cases before with
    | nil =>
      obtain ⟨rfl, -⟩ := List.cons.inj heq
      exact hfirst rfl
    | cons move' before =>
      obtain ⟨rfl, hrest'⟩ := List.cons.inj heq
      exact hrest before caller access key after hrest'

/-- Whether lookups are made one at a time is seen by going through the run. -/
def decideOneAtATime : (m : Moment ι) → (moves : List (Move ι)) → Decidable (m.OneAtATime moves)
  | _, [] => isTrue fun before _ _ _ _ heq => by cases before <;> cases heq
  | m, move :: moves =>
    have := decideOneAtATime (m.step move) moves
    decidable_of_iff _ (m.oneAtATime_cons move moves).symm

instance (m : Moment ι) (moves : List (Move ι)) : Decidable (m.OneAtATime moves) :=
  decideOneAtATime m moves

/-! ## The balance -/

/-- Every load that was closed was closed in one of four ways. -/
theorem length_eq_counts (closings : List Closing) :
    closings.length = closings.count .peer + closings.count .source + closings.count .failed +
      closings.count .panicked := by
  induction closings with
  | nil => rfl
  | cons closing closings ih =>
    have hcons : ∀ c : Closing,
        (closing :: closings).count c = closings.count c + if closing = c then 1 else 0 := by
      intro c
      rw [List.count_cons]
      simp only [beq_iff_eq]
    rw [List.length_cons, ih, hcons, hcons, hcons, hcons]
    cases closing <;> simp only [reduceCtorEq, if_true, if_false] <;> omega

/-- From a moment at which nothing has happened, every run is balanced, at each of its moments. -/
theorem balanced_run {m : Moment ι} (h : m.Orderly) (hcounters : m.group.counters = .zero)
    (hcallers : m.group.callers = []) (hvisits : m.visits.size = 0) (hunheard : m.unheard = 0)
    (hnone : m.group.inFlight = []) (moves : List (Move ι)) :
    Balanced (m.account moves) (m.run moves) := by
  have hloads := loads_run h hnone moves
  have hcounted := counted_run h hnone moves
  have honce := opened_nodup h moves
  obtain ⟨hcalled, hgets, hpeer, hlocal, hfailed, herrors⟩ := accounted_run h moves
  simp only [hcounters, hcallers, hvisits, hunheard, Counters.zero, List.length_nil, Nat.zero_add,
    Nat.add_zero] at hcalled hgets hpeer hlocal hfailed herrors
  refine ⟨hcalled, ?_, honce, hloads, ?_, hcounted, ?_, hpeer, hlocal, hfailed, ?_, herrors.symm,
    rebuffed_nodup h moves, rebuffed_subset_opened h hnone moves⟩
  · omega
  · exact fun access leader => inFlight_iff_work? ((h.run moves).sound access) leader
  · -- a load that has ended is not in flight, so it is not among the uncounted
    intro load hended
    have hopened := hloads.mem_iff.2 (List.mem_append_left _ hended)
    rcases List.mem_append.1 (hcounted.mem_iff.1 hopened) with hmem | hmem
    · exact hmem
    · have hnodup := hloads.nodup_iff.1 honce
      exact absurd rfl
        ((List.nodup_append.1 hnodup).2.2 load hended load (List.mem_filter.1 hmem).1)
  -- Each load that has been counted was counted in one of the four ways.
  · have hlength := hcounted.length_eq
    have hcounts := length_eq_counts ((m.account moves).counted.map Prod.snd)
    rw [List.length_append, List.length_map] at hlength
    rw [List.length_map] at hcounts
    omega

/-! ## The counters over whole runs -/

/-- With nothing on its way, a load that is in flight has not been counted, and the counters are
what the calls and the loads come to. -/
theorem Balanced.atRest {a : Account ι} {m : Moment ι} (h : Balanced a m) (hrest : m.AtRest) :
    BalancedAtRest a m.group := by
  have hgets := h.gets
  have hopened := h.opened
  have herrors := h.peerErrors
  have huncounted : m.uncounted = m.group.inFlight := by
    refine List.filter_eq_self.2 fun load _ => decide_eq_true ?_
    exact not_isCounted_of_none (Table.find?_of_size hrest.2 load)
  have hunheard : m.unheard = 0 := by
    unfold unheard Table.values
    rw [List.length_eq_zero_iff.1 hrest.2]
    rfl
  rw [huncounted] at hopened
  rw [hrest.1] at hgets
  exact ⟨hgets, hopened, by omega⟩

/-- Five calls, one after the other: a peer has the first value, the store has it then, the peer
fails and the source has the second value, for which the first is evicted, the source fails, and the
last key is empty. -/
def oneByOne : List (Move Nat) :=
  .registerPeers ::
  miss 0 .routed "a" ++ [.start .routed 0 (some "p"), .peerReply .routed 0 (.ok [1]),
    .land .routed 0, .land .routed 0, .land .routed 0, .land .routed 0, .deliver .routed 0] ++
  [.enter 1 .routed "a", .look 1, .look 1] ++
  miss 2 .routed "b" ++ [.start .routed 2 (some "p"), .peerReply .routed 2 (.error (.peer "down")),
    .land .routed 2, .land .routed 2, .sourceReply .routed 2 (.ok [2]), .land .routed 2,
    .land .routed 2, .land .routed 2, .land .routed 2, .deliver .routed 2] ++
  miss 3 .direct "c" ++ [.start .direct 3 none, .sourceReply .direct 3 (.error "no"),
    .land .direct 3, .land .direct 3, .deliver .direct 3] ++
  [.enter 4 .routed ""]

/-- While the hook is told of an entry, the load that evicted it is in flight and has been
counted. -/
example :
    let m : Moment Nat := run (fresh "g" 3 .populate)
      (.registerPeers :: miss 0 .direct "a" ++ [.start .direct 0 none,
        .sourceReply .direct 0 (.ok [1]), .land .direct 0, .land .direct 0, .land .direct 0] ++
      miss 1 .routed "b" ++ [.start .routed 1 (some "p"), .peerReply .routed 1 (.ok [2]),
        .land .routed 1, .land .routed 1, .land .routed 1])
    m.group.evicted = [("a", ⟨[1]⟩)] ∧ m.group.inFlight = [(.routed, 1)] ∧ m.uncounted = [] ∧
      m.group.counters = ⟨2, 0, 1, 0, 1, 0⟩ := by
  decide +kernel

end Moment

end Group

end PeerCache
