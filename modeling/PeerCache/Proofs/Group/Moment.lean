import PeerCache.Group.Moment
import PeerCache.Proofs.Flight.Callers
import PeerCache.Proofs.Group.Loads
/-!
# PeerCache — the moves of a group

What each move can do, said once, and what holds at every moment:

* **`look_eq`, `land_eq`, `peerReply_cases`, `sourceReply_cases`, `panic_cases`** — the inversion of
  one move.
* **`Takes`**, **`flight_step_cases`** — a board takes one event of its own from a move, or none.
* **`Seats`** — whoever has called is on its way with a lookup, or was answered at once, or is on
  one board, and on no more than one of these.
* **`Landed`** — a load that is landing is in flight and not queued.
-/

namespace PeerCache

namespace Group

namespace Moment

variable {ι : Type} [DecidableEq ι]

/-! ## One move -/

theorem look_eq {m : Moment ι} {caller : ι} {access : Access} {key : String} {looking : Looking}
    (h : m.visits.find? caller = some ⟨access, key, looking⟩) :
    m.look caller = m.lookOn caller access key looking := by
  unfold look
  rw [h]

theorem look_of_none {m : Moment ι} {caller : ι} (h : m.visits.find? caller = none) :
    m.look caller = m := by
  unfold look
  rw [h]

theorem land_eq {m : Moment ι} {access : Access} {leader : ι} {key : String} {landing : Landing}
    (h : m.landings.find? (access, leader) = some landing)
    (hkey : (m.group.flight access).key? leader = some key) :
    m.land access leader = m.landOn access leader key landing := by
  unfold land
  rw [h, hkey]

theorem land_of_none {m : Moment ι} {access : Access} {leader : ι}
    (h : m.landings.find? (access, leader) = none) : m.land access leader = m := by
  unfold land
  rw [h]

/-- What is asked for is what the group's load asks for, until its landing begins. -/
theorem request?_eq_some {m : Moment ι} {access : Access} {leader : ι} {request : Request} :
    m.request? access leader = some request ↔
      m.landings.find? (access, leader) = none ∧ m.group.request? access leader = some request := by
  unfold request?
  cases m.landings.find? (access, leader) with
  | none => simp
  | some landing => simp

/-- What an answer of a peer can do: nothing, if none is asked; or begin the landing. -/
theorem peerReply_cases (m : Moment ι) (access : Access) (leader : ι)
    (reply : Except CacheError (List UInt8)) :
    ((∀ address name key, m.request? access leader ≠ some (.peer address name key)) ∧
      m.peerReply access leader reply = m) ∨
    ∃ address name key, m.request? access leader = some (.peer address name key) ∧
      ((∃ bytes, reply = .ok bytes ∧
        m.peerReply access leader reply = m.setLanding access leader (.fetched bytes)) ∨
      ∃ error, reply = .error error ∧
        m.peerReply access leader reply = m.setLanding access leader .rebuffed) := by
  unfold peerReply
  cases hreq : m.request? access leader with
  | none => exact Or.inl ⟨by rintro _ _ _ ⟨⟩, rfl⟩
  | some request =>
    cases request with
    | source key => exact Or.inl ⟨by rintro _ _ _ ⟨⟩, rfl⟩
    | peer address name key =>
      refine Or.inr ⟨address, name, key, rfl, ?_⟩
      cases reply with
      | ok bytes => exact Or.inl ⟨bytes, rfl, rfl⟩
      | error error => exact Or.inr ⟨error, rfl, rfl⟩

/-- What an answer of the source can do: nothing, if it is not asked; or begin the landing. -/
theorem sourceReply_cases (m : Moment ι) (access : Access) (leader : ι)
    (reply : Except String (List UInt8)) :
    ((∀ key, m.request? access leader ≠ some (.source key)) ∧
      m.sourceReply access leader reply = m) ∨
    ∃ key, m.request? access leader = some (.source key) ∧
      ((∃ bytes, reply = .ok bytes ∧
        m.sourceReply access leader reply = m.setLanding access leader (.keeping .source bytes)) ∨
      ∃ text, reply = .error text ∧
        m.sourceReply access leader reply = m.setLanding access leader (.failed text)) := by
  unfold sourceReply
  cases hreq : m.request? access leader with
  | none => exact Or.inl ⟨by rintro _ ⟨⟩, rfl⟩
  | some request =>
    cases request with
    | peer address name key => exact Or.inl ⟨by rintro _ ⟨⟩, rfl⟩
    | source key =>
      refine Or.inr ⟨key, rfl, ?_⟩
      cases reply with
      | ok bytes => exact Or.inl ⟨bytes, rfl, rfl⟩
      | error text => exact Or.inr ⟨text, rfl, rfl⟩

/-- What a panic can do: nothing, or end a load that asks for something. -/
theorem panic_cases (m : Moment ι) (access : Access) (leader : ι) (text : String) :
    (m.request? access leader = none ∧ m.panic access leader text = m) ∨
    ∃ request, m.request? access leader = some request ∧
      m.panic access leader text =
        { m with group := m.group.finish access leader (.panicked text) } := by
  unfold panic
  cases hreq : m.request? access leader with
  | none => exact Or.inl ⟨rfl, rfl⟩
  | some request => exact Or.inr ⟨request, rfl, rfl⟩

/-! ## The boards

A board is changed by a lookup that is ready, by a load that starts, turns to the source, ends or
panics, and by a caller that picks its outcome up or gives up. -/

/-- What a move is for the board of one way in. -/
inductive Takes (m : Moment ι) (access : Access) :
    Move ι → Flight.Event ι Phase ByteView → Prop where
  | call {caller : ι} {key : String} {router : Bool}
    (visit : m.visits.find? caller = some ⟨access, key, .ready router⟩) :
    Takes m access (.look caller) (.call caller key (.queued router))
  | start {leader : ι} {router : Bool} (picked : Option String)
    (work : (m.group.flight access).work? leader = some (.queued router)) :
    Takes m access (.start access leader picked) (.advance leader (firstPhase router picked))
  | turn {leader : ι} (landing : m.landings.find? (access, leader) = some .turning) :
    Takes m access (.land access leader) (.advance leader .loading)
  | done {leader : ι} {how : Ending ByteView}
    (landing : m.landings.find? (access, leader) = some (.done how)) :
    Takes m access (.land access leader) (.finish leader how)
  | panic {leader : ι} {request : Request} (text : String)
    (waits : m.request? access leader = some request) :
    Takes m access (.panic access leader text) (.finish leader (.panicked text))
  | deliver (caller : ι) : Takes m access (.deliver access caller) (.deliver caller)
  | abandon (caller : ι) : Takes m access (.abandon access caller) (.abandon caller)

/-- A board on which one way in is changed takes that change, and the other board none. -/
theorem takes_setFlight {m : Moment ι} {g : Group ι} {a access : Access} {move : Move ι}
    {b : Flight.Event ι Phase ByteView} (hsame : g.flight access = m.group.flight access)
    (htakes : Takes m a move b) :
    (g.setFlight a ((m.group.flight a).step b)).flight access = m.group.flight access ∨
      ∃ b', Takes m access move b' ∧
        (g.setFlight a ((m.group.flight a).step b)).flight access
          = (m.group.flight access).step b' := by
  by_cases ha : access = a
  · subst ha
    exact Or.inr ⟨b, htakes, flight_setFlight_self g access _⟩
  · left
    rw [flight_setFlight_of_ne g ha, hsame]

/-- A lookup that goes on leaves the boards, or calls on its own. -/
theorem flight_lookOn (m : Moment ι) (caller : ι) (a : Access) (key : String) (looking : Looking)
    (access : Access) :
    (m.lookOn caller a key looking).group.flight access = m.group.flight access ∨
      ∃ router, looking = .ready router ∧ (m.lookOn caller a key looking).group =
        m.group.setFlight a ((m.group.flight a).step (.call caller key (.queued router))) := by
  cases looking with
  | counted => exact Or.inl (flight_eq_of_fields rfl rfl access)
  | found value => exact Or.inl (flight_eq_of_fields rfl rfl access)
  | missed => exact Or.inl rfl
  | ready router => exact Or.inr ⟨router, rfl, rfl⟩

/-- A landing that goes on leaves the boards, or turns its load, or ends it. -/
theorem flight_landOn (m : Moment ι) (a : Access) (leader : ι) (key : String) (landing : Landing)
    (access : Access) :
    (m.landOn a leader key landing).group.flight access = m.group.flight access ∨
      (landing = .turning ∧ (m.landOn a leader key landing).group =
        m.group.setFlight a ((m.group.flight a).step (.advance leader .loading))) ∨
      ∃ how, landing = .done how ∧ (m.landOn a leader key landing).group =
        m.group.setFlight a ((m.group.flight a).step (.finish leader how)) := by
  cases landing with
  | fetched bytes => exact Or.inl (flight_count m.group _ access)
  | rebuffed => exact Or.inl (flight_count m.group _ access)
  | turning => exact Or.inr (Or.inl ⟨rfl, rfl⟩)
  | keeping origin bytes => exact Or.inl (flight_eq_of_fields rfl rfl access)
  | telling origin bytes evicted =>
    left
    cases evicted with
    | cons entry rest => exact flight_eq_of_fields rfl rfl access
    | nil =>
      cases origin with
      | peer => rfl
      | source => exact flight_count m.group _ access
  | failed text => exact Or.inl (flight_count m.group _ access)
  | done how => exact Or.inr (Or.inr ⟨how, rfl, rfl⟩)

/-- A board takes an event from a move, or it stays as it is. -/
theorem flight_step_cases (m : Moment ι) (access : Access) (move : Move ι) :
    (m.step move).group.flight access = m.group.flight access ∨
      ∃ b, Takes m access move b ∧
        (m.step move).group.flight access = (m.group.flight access).step b := by
  -- Replies begin a landing and touch no board; what a board does take is named by `Takes`.
  cases move with
  | registerPeers =>
    left
    show (m.group.step .registerPeers).flight access = _
    rw [step_registerPeers]
    exact flight_eq_of_fields rfl rfl access
  | enter caller a key =>
    left
    show (m.enter caller a key).group.flight access = _
    unfold enter
    split
    · rfl
    · split <;> exact flight_eq_of_fields rfl rfl access
  | look caller =>
    show (m.look caller).group.flight access = _ ∨ ∃ b, _ ∧ (m.look caller).group.flight access = _
    cases hvisit : m.visits.find? caller with
    | none =>
      rw [look_of_none hvisit]
      exact Or.inl rfl
    | some visit =>
      obtain ⟨a, key, looking⟩ := visit
      rw [look_eq hvisit]
      rcases flight_lookOn m caller a key looking access with hsame | ⟨router, rfl, hgroup⟩
      · exact Or.inl hsame
      · rw [hgroup]
        exact takes_setFlight rfl (.call hvisit)
  | start a leader picked =>
    show (m.group.start a leader picked).flight access = _ ∨
      ∃ b, _ ∧ (m.group.start a leader picked).flight access = _
    rcases m.group.start_cases a leader picked with ⟨-, h⟩ | ⟨router, hwork, h⟩
    · rw [h]
      exact Or.inl rfl
    · rw [h]
      exact takes_setFlight rfl (.start picked hwork)
  | peerReply a leader reply =>
    left
    show (m.peerReply a leader reply).group.flight access = _
    rcases m.peerReply_cases a leader reply with
      ⟨-, h⟩ | ⟨_, _, _, -, ⟨bytes, -, h⟩ | ⟨error, -, h⟩⟩ <;> rw [h] <;> rfl
  | sourceReply a leader reply =>
    left
    show (m.sourceReply a leader reply).group.flight access = _
    rcases m.sourceReply_cases a leader reply with
      ⟨-, h⟩ | ⟨_, -, ⟨bytes, -, h⟩ | ⟨text, -, h⟩⟩ <;> rw [h] <;> rfl
  | panic a leader text =>
    show (m.panic a leader text).group.flight access = _ ∨
      ∃ b, _ ∧ (m.panic a leader text).group.flight access = _
    rcases m.panic_cases a leader text with ⟨-, h⟩ | ⟨request, hreq, h⟩
    · rw [h]
      exact Or.inl rfl
    · rw [h]
      exact takes_setFlight rfl (.panic text hreq)
  | land a leader =>
    show (m.land a leader).group.flight access = _ ∨
      ∃ b, _ ∧ (m.land a leader).group.flight access = _
    cases hlanding : m.landings.find? (a, leader) with
    | none =>
      rw [land_of_none hlanding]
      exact Or.inl rfl
    | some landing =>
      cases hkey : (m.group.flight a).key? leader with
      | none =>
        unfold land
        rw [hlanding, hkey]
        exact Or.inl rfl
      | some key =>
        rw [land_eq hlanding hkey]
        rcases flight_landOn m a leader key landing access with
          hsame | ⟨rfl, hgroup⟩ | ⟨how, rfl, hgroup⟩
        · exact Or.inl hsame
        · rw [hgroup]
          exact takes_setFlight rfl (.turn hlanding)
        · rw [hgroup]
          exact takes_setFlight rfl (.done hlanding)
  | deliver a caller => exact takes_setFlight rfl (.deliver caller)
  | abandon a caller => exact takes_setFlight rfl (.abandon caller)

/-! ## Where callers are

Only a lookup adds callers and immediate answers; all other moves leave them, and the lookups that
are on their way, as they are. -/

/-- A caller without a key is refused, and counted nowhere. -/
theorem enter_refused {m : Moment ι} {caller : ι} (hnew : caller ∉ m.group.callers)
    {access : Access} {key : String} (hkey : key = "") :
    m.enter caller access key =
      { m with group := { m.group with
          callers := m.group.callers ++ [caller]
          immediate := m.group.immediate ++ [(caller, .error keyRequired)] } } := by
  unfold enter
  rw [if_neg hnew, if_pos hkey]

/-- A caller with a key is counted, and is on its way. -/
theorem enter_counted {m : Moment ι} {caller : ι} (hnew : caller ∉ m.group.callers)
    {access : Access} {key : String} (hkey : key ≠ "") :
    m.enter caller access key =
      { m with
        group := { m.group with
          callers := m.group.callers ++ [caller]
          counters := { m.group.counters with gets := m.group.counters.gets + 1 } }
        visits := m.visits.insert caller ⟨access, key, .counted⟩ } := by
  unfold enter
  rw [if_neg hnew, if_neg hkey]
  rfl

/-- What coming in can do: nothing, if the caller has called before; be refused; or be counted. -/
theorem enter_cases (m : Moment ι) (caller : ι) (access : Access) (key : String) :
    (caller ∈ m.group.callers ∧ m.enter caller access key = m) ∨
    (caller ∉ m.group.callers ∧ key = "" ∧
      m.enter caller access key =
        { m with group := { m.group with
            callers := m.group.callers ++ [caller]
            immediate := m.group.immediate ++ [(caller, .error keyRequired)] } }) ∨
    (caller ∉ m.group.callers ∧ key ≠ "" ∧
      m.enter caller access key =
        { m with
          group := { m.group with
            callers := m.group.callers ++ [caller]
            counters := { m.group.counters with gets := m.group.counters.gets + 1 } }
          visits := m.visits.insert caller ⟨access, key, .counted⟩ }) := by
  by_cases hcalled : caller ∈ m.group.callers
  · exact Or.inl ⟨hcalled, if_pos hcalled⟩
  · right
    by_cases hkey : key = ""
    · exact Or.inl ⟨hcalled, hkey, enter_refused hcalled hkey⟩
    · exact Or.inr ⟨hcalled, hkey, enter_counted hcalled hkey⟩

/-- A landing brings nobody in. -/
theorem akin_landOn (m : Moment ι) (access : Access) (leader : ι) (key : String)
    (landing : Landing) :
    Akin m.group (m.landOn access leader key landing).group ∧
      (m.landOn access leader key landing).visits = m.visits := by
  have hself : Akin m.group m.group := ⟨rfl, rfl, rfl, rfl, id⟩
  cases landing with
  | fetched bytes => exact ⟨⟨rfl, rfl, rfl, rfl, id⟩, rfl⟩
  | rebuffed => exact ⟨⟨rfl, rfl, rfl, rfl, id⟩, rfl⟩
  | turning => exact ⟨hself.setFlight access _, rfl⟩
  | keeping origin bytes => exact ⟨⟨rfl, rfl, rfl, rfl, id⟩, rfl⟩
  | telling origin bytes evicted =>
    cases evicted with
    | cons entry rest => exact ⟨⟨rfl, rfl, rfl, rfl, id⟩, rfl⟩
    | nil => cases origin <;> exact ⟨⟨rfl, rfl, rfl, rfl, id⟩, rfl⟩
  | failed text => exact ⟨⟨rfl, rfl, rfl, rfl, id⟩, rfl⟩
  | done how => exact ⟨hself.setFlight access _, rfl⟩

/-- Nobody comes in, or goes on, but by its own moves. -/
theorem akin_step {m : Moment ι} {move : Move ι}
    (henter : ∀ caller access key, move ≠ .enter caller access key)
    (hlook : ∀ caller, move ≠ .look caller) :
    Akin m.group (m.step move).group ∧ (m.step move).visits = m.visits := by
  have hself : Akin m.group m.group := ⟨rfl, rfl, rfl, rfl, id⟩
  -- Replies change the landings only, and a panic one board.
  cases move with
  | registerPeers => exact ⟨Group.akin_step (e := .registerPeers) (by rintro _ _ _ ⟨⟩), rfl⟩
  | enter caller access key => exact absurd rfl (henter caller access key)
  | look caller => exact absurd rfl (hlook caller)
  | start access leader picked =>
    exact ⟨Group.akin_step (e := .start access leader picked) (by rintro _ _ _ ⟨⟩), rfl⟩
  | peerReply access leader reply =>
    show Akin m.group (m.peerReply access leader reply).group ∧
      (m.peerReply access leader reply).visits = m.visits
    rcases m.peerReply_cases access leader reply with
      ⟨-, h⟩ | ⟨_, _, _, -, ⟨bytes, -, h⟩ | ⟨error, -, h⟩⟩ <;> rw [h] <;> exact ⟨hself, rfl⟩
  | sourceReply access leader reply =>
    show Akin m.group (m.sourceReply access leader reply).group ∧
      (m.sourceReply access leader reply).visits = m.visits
    rcases m.sourceReply_cases access leader reply with
      ⟨-, h⟩ | ⟨_, -, ⟨bytes, -, h⟩ | ⟨text, -, h⟩⟩ <;> rw [h] <;> exact ⟨hself, rfl⟩
  | panic access leader text =>
    show Akin m.group (m.panic access leader text).group ∧
      (m.panic access leader text).visits = m.visits
    rcases m.panic_cases access leader text with ⟨-, h⟩ | ⟨request, -, h⟩ <;> rw [h]
    · exact ⟨hself, rfl⟩
    · exact ⟨hself.setFlight access _, rfl⟩
  | land access leader =>
    show Akin m.group (m.land access leader).group ∧ (m.land access leader).visits = m.visits
    unfold land
    split
    · exact akin_landOn m access leader _ _
    · exact ⟨hself, rfl⟩
  | deliver access caller => exact ⟨hself.setFlight access _, rfl⟩
  | abandon access caller => exact ⟨hself.setFlight access _, rfl⟩

/-- A move is that of a caller who comes in or is on its way, or it leaves the callers alone. -/
theorem enter_or_look_or_akin (m : Moment ι) (move : Move ι) :
    (∃ caller access key, move = .enter caller access key) ∨ (∃ caller, move = .look caller) ∨
    (∀ caller, move ≠ .look caller) ∧ Akin m.group (m.step move).group ∧
      (m.step move).visits = m.visits := by
  by_cases henter : ∃ caller access key, move = .enter caller access key
  · exact Or.inl henter
  by_cases hlook : ∃ caller, move = .look caller
  · exact Or.inr (Or.inl hlook)
  · have hnot : ∀ caller, move ≠ .look caller := fun caller heq => hlook ⟨caller, heq⟩
    exact Or.inr (Or.inr
      ⟨hnot, akin_step (fun caller access key heq => henter ⟨caller, access, key, heq⟩) hnot⟩)

/-- A board gets a new caller by a lookup that is ready, and loses none. -/
theorem mem_board_step {m : Moment ι} {access : Access} {move : Move ι} {c : ι} :
    c ∈ ((m.step move).group.flight access).callers ↔
      c ∈ (m.group.flight access).callers ∨
        ∃ key router, move = .look c ∧
          m.visits.find? c = some ⟨access, key, .ready router⟩ := by
  constructor
  · intro hc
    rcases m.flight_step_cases access move with hsame | ⟨b, htakes, hstep⟩
    · rw [hsame] at hc
      exact Or.inl hc
    · rw [hstep] at hc
      rcases Flight.mem_callers_step hc with hold | ⟨key, work, rfl⟩
      · exact Or.inl hold
      -- Of the events that a board takes only one is a call.
      · cases htakes with
        | call visit => exact Or.inr ⟨key, _, rfl, visit⟩
  · rintro (hold | ⟨key, router, rfl, hvisit⟩)
    · rcases m.flight_step_cases access move with hsame | ⟨b, -, hstep⟩
      · rw [hsame]
        exact hold
      · rw [hstep]
        exact (Flight.later_step _ b).callers c hold
    · show c ∈ ((m.look c).group.flight access).callers
      rw [look_eq hvisit]
      show c ∈ ((m.group.setFlight access _).flight access).callers
      rw [flight_setFlight_self]
      exact (Flight.mem_callers_call _ c key _ c).2 (Or.inr rfl)

/-- Where a caller can be. -/
inductive Place where
  | nowhere
  /-- It is on its way with a lookup. -/
  | visiting
  /-- It was answered at once. -/
  | answered
  /-- It waits, or has waited, on the board of a way in. -/
  | board (access : Access)

/-- A caller is at one place and at no other. -/
structure At (m : Moment ι) (c : ι) (place : Place) : Prop where
  called : c ∈ m.group.callers ↔ place ≠ .nowhere
  visiting : (∃ visit, m.visits.find? c = some visit) ↔ place = .visiting
  answered : (∃ o, (c, o) ∈ m.group.immediate) ↔ place = .answered
  board : ∀ access, c ∈ (m.group.flight access).callers ↔ place = .board access

/-- Everybody is at one place. -/
def Seats (m : Moment ι) : Prop := ∀ c, ∃ place, m.At c place

/-- A lookup that is made or goes on is nothing to other callers, and all other moves are nothing to
any caller. -/
theorem At.aside {m : Moment ι} {c : ι} {place : Place} (h : m.At c place) {move : Move ι}
    (henter : ∀ access key, move ≠ .enter c access key) (hlook : move ≠ .look c) :
    (m.step move).At c place := by
  have hboard : ∀ access, c ∈ ((m.step move).group.flight access).callers ↔
      c ∈ (m.group.flight access).callers := by
    intro access
    rw [mem_board_step]
    refine or_iff_left ?_
    rintro ⟨key, router, heq, -⟩
    exact hlook heq
  -- So the board is settled; the rest is what the group and the visits say of `c`.
  suffices hsame : (c ∈ (m.step move).group.callers ↔ c ∈ m.group.callers) ∧
      (m.step move).visits.find? c = m.visits.find? c ∧
      ∀ o, (c, o) ∈ (m.step move).group.immediate ↔ (c, o) ∈ m.group.immediate by
    obtain ⟨hcallers, hvisits, himmediate⟩ := hsame
    refine ⟨hcallers.trans h.called, ?_, ?_, fun access => (hboard access).trans (h.board access)⟩
    · rw [hvisits]
      exact h.visiting
    · simp only [himmediate]
      exact h.answered
  rcases m.enter_or_look_or_akin move with
    ⟨caller, access, key, rfl⟩ | ⟨caller, rfl⟩ | ⟨-, hakin, hvisits⟩
  · have hne : c ≠ caller := by
      rintro rfl
      exact henter access key rfl
    show (c ∈ (m.enter caller access key).group.callers ↔ _) ∧
      (m.enter caller access key).visits.find? c = _ ∧
      ∀ o, (c, o) ∈ (m.enter caller access key).group.immediate ↔ _
    rcases m.enter_cases caller access key with ⟨-, heq⟩ | ⟨-, -, heq⟩ | ⟨-, -, heq⟩
    · rw [heq]
      exact ⟨Iff.rfl, rfl, fun _ => Iff.rfl⟩
    · rw [heq]
      exact ⟨by simp [hne], rfl, by simp [hne]⟩
    · rw [heq]
      exact ⟨by simp [hne], (Table.find?_insert _ _ _ _).trans (if_neg hne), fun _ => Iff.rfl⟩
  · have hne : c ≠ caller := by
      rintro rfl
      exact hlook rfl
    show (c ∈ (m.look caller).group.callers ↔ _) ∧ (m.look caller).visits.find? c = _ ∧
      ∀ o, (c, o) ∈ (m.look caller).group.immediate ↔ _
    cases hvisit : m.visits.find? caller with
    | none =>
      rw [look_of_none hvisit]
      exact ⟨Iff.rfl, rfl, fun _ => Iff.rfl⟩
    | some visit =>
      obtain ⟨a, key, looking⟩ := visit
      rw [look_eq hvisit]
      cases looking with
      | counted =>
        exact ⟨Iff.rfl, (Table.find?_insert _ _ _ _).trans (if_neg hne), fun _ => Iff.rfl⟩
      | found value =>
        refine ⟨Iff.rfl, (Table.find?_erase _ _ _).trans (if_neg hne), fun o => ?_⟩
        show (c, o) ∈ m.group.immediate ++ [(caller, .ok value)] ↔ _
        simp [hne]
      | missed =>
        exact ⟨Iff.rfl, (Table.find?_insert _ _ _ _).trans (if_neg hne), fun _ => Iff.rfl⟩
      | ready router =>
        refine ⟨?_, (Table.find?_erase _ _ _).trans (if_neg hne), fun o => ?_⟩
        · show c ∈ (m.group.setFlight a _).callers ↔ _
          rw [callers_setFlight]
        · show (c, o) ∈ (m.group.setFlight a _).immediate ↔ _
          rw [immediate_setFlight]
  · rw [hakin.callers, hakin.immediate, hvisits]
    exact ⟨Iff.rfl, rfl, fun _ => Iff.rfl⟩

/-- Coming in leads to a place. -/
theorem At.enter {m : Moment ι} {c : ι} {place : Place} (h : m.At c place) (access : Access)
    (key : String) : ∃ place, (m.enter c access key).At c place := by
  have hboard : ∀ a, c ∈ ((m.enter c access key).group.flight a).callers ↔
      c ∈ (m.group.flight a).callers := by
    intro a
    show c ∈ ((m.step (.enter c access key)).group.flight a).callers ↔ _
    rw [mem_board_step]
    refine or_iff_left ?_
    rintro ⟨k, router, heq, -⟩
    cases heq
  -- Who has not called is nowhere yet, so it can only come from there.
  have hnowhere : c ∉ m.group.callers → place = .nowhere := fun hnew =>
    Classical.byContradiction fun hplace => hnew (h.called.2 hplace)
  rcases m.enter_cases c access key with ⟨-, heq⟩ | ⟨hnew, -, heq⟩ | ⟨hnew, -, heq⟩
  · rw [heq]
    exact ⟨place, h⟩
  · obtain rfl := hnowhere hnew
    refine ⟨.answered, ⟨?_, ?_, ?_, fun a => (hboard a).trans ?_⟩⟩
    · simp [heq]
    · rw [heq]
      exact h.visiting.trans (by simp)
    · simp [heq]
    · exact (h.board a).trans (by simp)
  · obtain rfl := hnowhere hnew
    refine ⟨.visiting, ⟨?_, ?_, ?_, fun a => (hboard a).trans ?_⟩⟩
    · simp [heq]
    · simp [heq]
    · rw [heq]
      exact h.answered.trans (by simp)
    · exact (h.board a).trans (by simp)

/-- Going on leads from one place to a next. -/
theorem At.look {m : Moment ι} {c : ι} {place : Place} (h : m.At c place) :
    ∃ place, (m.look c).At c place := by
  cases hvisit : m.visits.find? c with
  | none =>
    rw [look_of_none hvisit]
    exact ⟨place, h⟩
  | some visit =>
    obtain ⟨access, key, looking⟩ := visit
    obtain rfl := h.visiting.1 ⟨_, hvisit⟩
    -- Only with the last step of the lookup the caller comes to a board, that of its way in.
    have hboard : ∀ a, c ∈ ((m.look c).group.flight a).callers ↔
        ∃ router, a = access ∧ looking = .ready router := by
      intro a
      rw [show m.look c = m.step (.look c) from rfl, mem_board_step, h.board a, hvisit]
      simp [eq_comm]
    rw [look_eq hvisit] at hboard ⊢
    cases looking with
    | counted =>
      refine ⟨.visiting, ⟨h.called, ?_, h.answered, fun a => (hboard a).trans (by simp)⟩⟩
      exact ⟨fun _ => rfl, fun _ => ⟨_, Table.find?_insert_self _ _ _⟩⟩
    | found value =>
      refine ⟨.answered, ⟨?_, ?_, ?_, fun a => (hboard a).trans (by simp)⟩⟩
      · exact h.called.trans (by simp)
      · show (∃ visit, (m.visits.erase c).find? c = some visit) ↔ _
        simp
      · show (∃ o, (c, o) ∈ m.group.immediate ++ [(c, .ok value)]) ↔ _
        exact ⟨fun _ => rfl, fun _ => ⟨_, List.mem_append_right _ (List.mem_singleton.2 rfl)⟩⟩
    | missed =>
      refine ⟨.visiting, ⟨h.called, ?_, h.answered, fun a => (hboard a).trans (by simp)⟩⟩
      exact ⟨fun _ => rfl, fun _ => ⟨_, Table.find?_insert_self _ _ _⟩⟩
    | ready router =>
      refine ⟨.board access, ⟨?_, ?_, ?_, fun a => (hboard a).trans (by simp [eq_comm])⟩⟩
      · show c ∈ (m.group.setFlight access _).callers ↔ _
        rw [callers_setFlight]
        exact h.called.trans (by simp)
      · show (∃ visit, (m.visits.erase c).find? c = some visit) ↔ _
        simp
      · show (∃ o, (c, o) ∈ (m.group.setFlight access _).immediate) ↔ _
        rw [immediate_setFlight]
        exact h.answered.trans (by simp)

/-- Every move leaves every caller one place. -/
theorem Seats.step {m : Moment ι} (h : m.Seats) (move : Move ι) : (m.step move).Seats := by
  intro c
  obtain ⟨place, hat⟩ := h c
  by_cases henter : ∃ access key, move = .enter c access key
  · obtain ⟨access, key, rfl⟩ := henter
    exact hat.enter access key
  by_cases hlook : move = .look c
  · subst hlook
    exact hat.look
  · exact ⟨place, hat.aside (fun access key heq => henter ⟨access, key, heq⟩) hlook⟩

/-- A caller whose lookup is on its way is on no board. -/
theorem Seats.not_on_board {m : Moment ι} (h : m.Seats) {c : ι} {visit : Visit}
    (hvisit : m.visits.find? c = some visit) (access : Access) :
    c ∉ (m.group.flight access).callers := by
  obtain ⟨place, hat⟩ := h c
  obtain rfl := hat.visiting.1 ⟨visit, hvisit⟩
  exact fun hc => by cases (hat.board access).1 hc

/-- A lookup on its way has been made. -/
theorem Seats.not_visiting {m : Moment ι} (h : m.Seats) {c : ι} (hnew : c ∉ m.group.callers) :
    m.visits.find? c = none := by
  obtain ⟨place, hat⟩ := h c
  cases hvisit : m.visits.find? c with
  | none => rfl
  | some visit =>
    obtain rfl := hat.visiting.1 ⟨visit, hvisit⟩
    exact absurd (hat.called.2 (by simp)) hnew

/-! ## Loads that are landing

A load that is landing has work left on its board, and nothing but its own landing changes what that
is: it is not queued, so it cannot start, and it waits for nothing, so nothing panics on it. -/

/-- A load can be landing like this while its board has it in this phase. -/
structure Fits (landing : Landing) (phase : Phase) : Prop where
  started : ∀ router, phase ≠ .queued router
  asked : landing = .rebuffed ∨ landing = .turning → phase ≠ .loading

/-- Loads that are landing are in flight. -/
def Landed (m : Moment ι) : Prop :=
  ∀ access leader landing, m.landings.find? (access, leader) = some landing →
    ∃ phase, (m.group.flight access).work? leader = some phase ∧ Fits landing phase

/-- What a landing load has on its board is kept by all moves but its own. -/
theorem work?_step_landing {m : Moment ι} {access : Access} {leader : ι} {landing : Landing}
    (hlanding : m.landings.find? (access, leader) = some landing) {phase : Phase}
    (hwork : (m.group.flight access).work? leader = some phase)
    (hstarted : ∀ router, phase ≠ .queued router) {move : Move ι}
    (hmove : move ≠ .land access leader) :
    ((m.step move).group.flight access).work? leader = some phase := by
  rcases m.flight_step_cases access move with hsame | ⟨b, htakes, hstep⟩
  · rw [hsame]
    exact hwork
  · rw [hstep]
    refine Flight.work?_kept hwork (fun v heq => ?_) fun how heq => ?_
    · subst heq
      cases htakes with
      | start picked work =>
        rw [hwork] at work
        exact hstarted _ (Option.some.inj work)
      | turn landing => exact hmove rfl
    · subst heq
      cases htakes with
      | done landing => exact hmove rfl
      | panic text waits =>
        rw [(request?_eq_some.1 waits).1] at hlanding
        cases hlanding

/-- The landing `next` may come after `landing`. -/
structure Precedes (landing next : Landing) : Prop where
  goesOn : landing ≠ .turning ∧ ∀ how, landing ≠ .done how
  /-- A peer fails a load when the load asks it, and not when the load is landing. -/
  rebuffed : next ≠ .rebuffed
  /-- A load turns to the source only after its peer has failed. -/
  turning : next = .turning → landing = .rebuffed
  counted : next.isCounted = true ↔ landing.isCounted = true ∨ landing.counts ≠ none

/-- As long as the landing goes on the boards are as they were. -/
theorem Precedes.flight_landOn {landing next : Landing} (h : Precedes landing next) {m : Moment ι}
    {access : Access} {leader : ι} {key : String} (a : Access) :
    (m.landOn access leader key landing).group.flight a = m.group.flight a := by
  rcases m.flight_landOn access leader key landing a with hsame | ⟨heq, -⟩ | ⟨how, heq, -⟩
  · exact hsame
  · exact absurd heq h.goesOn.1
  · exact absurd heq (h.goesOn.2 how)

/-- What a landing load does leads to another landing, or it is the last thing that it does. -/
theorem landings_landOn (m : Moment ι) (access : Access) (leader : ι) (key : String)
    (landing : Landing) :
    (∃ next, Precedes landing next ∧ (m.landOn access leader key landing).landings =
      m.landings.insert (access, leader) next) ∨
    ((landing = .turning ∨ ∃ how, landing = .done how) ∧
      (m.landOn access leader key landing).landings = m.landings.erase (access, leader)) := by
  cases landing with
  | fetched bytes =>
    refine Or.inl ⟨_, ?_, rfl⟩
    split <;> constructor <;> simp [Landing.isCounted, Landing.counts]
  | turning => exact Or.inr ⟨Or.inl rfl, rfl⟩
  | telling origin bytes evicted =>
    left
    cases evicted with
    | cons entry rest => exact ⟨_, by constructor <;> simp [Landing.isCounted, Landing.counts], rfl⟩
    | nil =>
      cases origin <;>
        exact ⟨_, by constructor <;> simp [Landing.isCounted, Landing.counts], rfl⟩
  | done how => exact Or.inr ⟨Or.inr ⟨how, rfl⟩, rfl⟩
  | _ => exact Or.inl ⟨_, by constructor <;> simp [Landing.isCounted, Landing.counts], rfl⟩

/-- A load that asks begins its landing, and those of the others are as they were. -/
theorem landings_begun {m : Moment ι} {access a : Access} {leader l : ι} {move : Move ι}
    {request : Request} {landing : Landing} (hreq : m.request? a l = some request)
    (hcounted : landing.isCounted = false) (hturning : landing ≠ .turning)
    (hrebuffed : landing = .rebuffed → request.isRemote = true)
    (hsource : request.isRemote = false → ∃ reply, move = .sourceReply a l reply) :
    (m.setLanding a l landing).landings.find? (access, leader) =
      m.landings.find? (access, leader) ∨
    ∃ request landing', m.request? access leader = some request ∧
      (m.setLanding a l landing).group = m.group ∧
      (m.setLanding a l landing).landings.find? (access, leader) = some landing' ∧
      landing'.isCounted = false ∧ landing' ≠ .turning ∧
      (landing' = .rebuffed → request.isRemote = true) ∧
      (request.isRemote = false → ∃ reply, move = .sourceReply access leader reply) := by
  by_cases hload : (access, leader) = (a, l)
  · cases hload
    exact Or.inr ⟨request, landing, hreq, rfl, Table.find?_insert_self _ _ _, hcounted, hturning,
      hrebuffed, hsource⟩
  · exact Or.inl ((Table.find?_insert _ _ _ _).trans (if_neg hload))

/-- Beside its own landing, a load's landing changes only when its answer comes; nothing has been
counted then. -/
theorem find?_landings_step (m : Moment ι) {access : Access} {leader : ι} {move : Move ι}
    (hmove : move ≠ .land access leader) :
    (m.step move).landings.find? (access, leader) = m.landings.find? (access, leader) ∨
    ∃ request landing, m.request? access leader = some request ∧
      (m.step move).group = m.group ∧
      (m.step move).landings.find? (access, leader) = some landing ∧
      landing.isCounted = false ∧ landing ≠ .turning ∧
      (landing = .rebuffed → request.isRemote = true) ∧
      (request.isRemote = false → ∃ reply, move = .sourceReply access leader reply) := by
  -- Only the two replies begin a landing, and only of the load that asks.
  cases move with
  | registerPeers => exact Or.inl rfl
  | enter caller a key =>
    left
    show (m.enter caller a key).landings.find? _ = _
    rcases m.enter_cases caller a key with ⟨-, heq⟩ | ⟨-, -, heq⟩ | ⟨-, -, heq⟩ <;> rw [heq]
  | look caller =>
    left
    show (m.look caller).landings.find? _ = _
    cases hvisit : m.visits.find? caller with
    | none => rw [look_of_none hvisit]
    | some visit =>
      rw [look_eq hvisit]
      cases visit.looking <;> rfl
  | start a l picked => exact Or.inl rfl
  | peerReply a l reply =>
    show (m.peerReply a l reply).landings.find? _ = _ ∨
      ∃ request landing, _ ∧ (m.peerReply a l reply).group = _ ∧
        (m.peerReply a l reply).landings.find? _ = _ ∧ _
    rcases m.peerReply_cases a l reply with
      ⟨-, h⟩ | ⟨address, name, key, hreq, ⟨bytes, -, h⟩ | ⟨error, -, h⟩⟩
    · rw [h]
      exact Or.inl rfl
    · rw [h]
      exact landings_begun hreq rfl (by simp) (by simp) (by rintro ⟨⟩)
    · rw [h]
      exact landings_begun hreq rfl (by simp) (fun _ => rfl) (by rintro ⟨⟩)
  | sourceReply a l reply =>
    show (m.sourceReply a l reply).landings.find? _ = _ ∨
      ∃ request landing, _ ∧ (m.sourceReply a l reply).group = _ ∧
        (m.sourceReply a l reply).landings.find? _ = _ ∧ _
    rcases m.sourceReply_cases a l reply with
      ⟨-, h⟩ | ⟨key, hreq, ⟨bytes, -, h⟩ | ⟨text, -, h⟩⟩
    · rw [h]
      exact Or.inl rfl
    · rw [h]
      exact landings_begun hreq rfl (by simp) (by simp) fun _ => ⟨_, rfl⟩
    · rw [h]
      exact landings_begun hreq rfl (by simp) (by simp) fun _ => ⟨_, rfl⟩
  | panic a l text =>
    left
    show (m.panic a l text).landings.find? _ = _
    rcases m.panic_cases a l text with ⟨-, h⟩ | ⟨request, -, h⟩ <;> rw [h]
  | land a l =>
    -- The landing of another load goes on, or is over.
    left
    have hne : (access, leader) ≠ (a, l) := by
      rintro ⟨⟩
      exact hmove rfl
    show (m.land a l).landings.find? _ = _
    unfold land
    split
    next landing key _ _ =>
      rcases m.landings_landOn a l key landing with ⟨next, -, h⟩ | ⟨-, h⟩
      · rw [h]
        exact (Table.find?_insert _ _ _ _).trans (if_neg hne)
      · rw [h]
        exact (Table.find?_erase _ _ _).trans (if_neg hne)
    next => rfl
  | deliver a caller => exact Or.inl rfl
  | abandon a caller => exact Or.inl rfl

/-- Where a landing goes on, it still fits the phase of its load. -/
theorem Landed.land {m : Moment ι} (h : m.Landed) {access : Access} {leader : ι}
    {landing : Landing}
    (hfind : (m.land access leader).landings.find? (access, leader) = some landing) :
    ∃ phase, ((m.land access leader).group.flight access).work? leader = some phase ∧
      Fits landing phase := by
  cases hold : m.landings.find? (access, leader) with
  | none =>
    rw [land_of_none hold, hold] at hfind
    cases hfind
  | some old =>
    obtain ⟨phase, hwork, hfits⟩ := h access leader old hold
    obtain ⟨key, hkey⟩ := key?_of_work? hwork
    rw [land_eq hold hkey] at hfind ⊢
    rcases m.landings_landOn access leader key old with ⟨next, hnext, heq⟩ | ⟨-, heq⟩
    · rw [heq, Table.find?_insert_self] at hfind
      cases hfind
      rw [hnext.flight_landOn]
      refine ⟨phase, hwork, hfits.started, ?_⟩
      rintro (h | h)
      · exact absurd h hnext.rebuffed
      · exact hfits.asked (Or.inl (hnext.turning h))
    · rw [heq, Table.find?_erase_self] at hfind
      cases hfind

/-- Every move leaves each landing fitting the phase of its load. -/
theorem Landed.step {m : Moment ι} (h : m.Landed) (move : Move ι) : (m.step move).Landed := by
  intro access leader landing hfind
  by_cases hmove : move = .land access leader
  · subst hmove
    exact h.land hfind
  · rcases m.find?_landings_step hmove with
      hsame | ⟨request, l, hreq, hgroup, hl, -, hturning, hrebuffed, -⟩
    · rw [hsame] at hfind
      obtain ⟨phase, hwork, hfits⟩ := h access leader landing hfind
      exact ⟨phase, work?_step_landing hfind hwork hfits.started hmove, hfits⟩
    · rw [hl] at hfind
      cases hfind
      rw [hgroup]
      obtain ⟨-, hreq⟩ := request?_eq_some.1 hreq
      cases request with
      | peer address name key =>
        exact ⟨_, (request?_eq_peer.1 hreq).1, by simp, by simp⟩
      | source key =>
        refine ⟨_, (request?_eq_source.1 hreq).1, by simp, ?_⟩
        rintro (heq | heq)
        · cases hrebuffed heq
        · exact absurd heq hturning

/-! ## Every moment of a run -/

/-- What holds at every moment that a run comes to. -/
structure Orderly (m : Moment ι) : Prop where
  boards : ∀ access, ∃ events, m.group.flight access = Flight.run .empty events
  seats : m.Seats
  landed : m.Landed

theorem Orderly.sound {m : Moment ι} (h : m.Orderly) (access : Access) :
    Flight.Sound (m.group.flight access) := by
  obtain ⟨events, hevents⟩ := h.boards access
  rw [hevents]
  exact Flight.sound_run Flight.sound_empty events

/-- Every move leaves a moment orderly. -/
theorem Orderly.step {m : Moment ι} (h : m.Orderly) (move : Move ι) : (m.step move).Orderly where
  boards := by
    intro access
    obtain ⟨events, hevents⟩ := h.boards access
    rcases m.flight_step_cases access move with hsame | ⟨b, -, hstep⟩
    · exact ⟨events, hsame.trans hevents⟩
    · refine ⟨events ++ [b], ?_⟩
      rw [Flight.run_append, hstep, hevents]
      rfl
  seats := h.seats.step move
  landed := h.landed.step move

theorem Orderly.run {m : Moment ι} (h : m.Orderly) (moves : List (Move ι)) :
    (m.run moves).Orderly := by
  induction moves generalizing m with
  | nil => exact h
  | cons move moves ih => exact ih (h.step move)

theorem run_append (m : Moment ι) (before after : List (Move ι)) :
    m.run (before ++ after) = (m.run before).run after :=
  List.foldl_append

theorem orderly_fresh (name : String) (cacheBytes : Nat) (policy : RemotePolicy) :
    (fresh name cacheBytes policy : Moment ι).Orderly where
  boards := by
    intro access
    exact ⟨[], by cases access <;> rfl⟩
  seats := by
    refine fun c => ⟨.nowhere, ⟨?_, ?_, ?_, fun access => ?_⟩⟩
    · simp [fresh, rest, new]
    · simp [fresh, rest]
    · simp [fresh, rest, new]
    · cases access <;> simp [fresh, rest, new, flight, Flight.empty]
  landed := by
    intro access leader landing h
    cases h

end Moment

end Group

end PeerCache
