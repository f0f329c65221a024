import PeerCache.Group.Account
import PeerCache.Proofs.Group.Moment
/-!
# PeerCache — loads that start, land and end

What a run of moves does to the loads of a group:

* **`loads_step`**, **`loads_run`** — the loads that were in flight or have been started are in
  flight or have ended.
* **`counted_step`**, **`counted_run`** — the loads that were uncounted or have been started are
  uncounted or have been counted. A load is uncounted for as long as it is in flight at most.
* **`opened_nodup`**, **`rebuffed_nodup`** — a load is started once, and a peer fails it once at
  most.
-/

namespace PeerCache

namespace Flight

variable {ι σ α : Type} [DecidableEq ι]

/-- A leader has one marker. -/
theorem Sound.values_nodup {f : Flight ι σ α} (hf : Sound f) : f.markers.values.Nodup := by
  refine List.Nodup.map_on ?_ f.markers.nodup.of_map
  rintro ⟨key, l⟩ h ⟨key', _⟩ h' rfl
  obtain ⟨w, hx⟩ := (hf.marked key l).1 ((f.markers.mem_iff_find? key l).1 h)
  obtain ⟨w', hx'⟩ := (hf.marked key' l).1 ((f.markers.mem_iff_find? key' l).1 h')
  rw [hx] at hx'
  cases hx'
  rfl

end Flight

namespace Group

/-- No load is in flight twice. -/
theorem inFlight_nodup {ι : Type} [DecidableEq ι] {g : Group ι}
    (h : ∀ access, Flight.Sound (g.flight access)) : g.inFlight.Nodup := by
  have hway : ∀ access : Access,
      ((g.flight access).markers.values.map fun leader => (access, leader)).Nodup :=
    fun access => (h access).values_nodup.map fun _ _ heq => (Prod.mk.inj heq).2
  unfold inFlight
  simp only [List.flatMap_cons, List.flatMap_nil, List.append_nil]
  refine List.nodup_append.2 ⟨hway .routed, hway .direct, ?_⟩
  rintro _ h₁ _ h₂ rfl
  obtain ⟨l₁, -, rfl⟩ := List.mem_map.1 h₁
  obtain ⟨l₂, -, heq⟩ := List.mem_map.1 h₂
  cases heq

/-! ## Lists and landings -/

/-- What has been counted is not counted again. -/
theorem Landing.counts_of_isCounted {landing : Landing} (h : landing.isCounted = true) :
    landing.counts = none := by
  cases landing with
  | telling origin bytes evicted => cases origin <;> cases evicted <;> first | rfl | cases h
  | _ => first | rfl | cases h

/-- One entry of a list is in a part of it or not; the others are as they were. -/
theorem perm_filter_of_cons {α : Type} {l others : List α} {a : α} (h : l.Perm (a :: others))
    (p : α → Bool) : (l.filter p).Perm ((if p a = true then [a] else []) ++ others.filter p) := by
  refine (h.filter p).trans (List.Perm.of_eq ?_)
  rw [List.filter_cons]
  split <;> rfl

namespace Moment

variable {ι : Type} [DecidableEq ι]

/-- A load is opened by a caller that looks, past the store, and finds no marker. -/
theorem mem_opens {m : Moment ι} {move : Move ι} {load : Load ι} (h : load ∈ m.opens move) :
    ∃ key router, move = .look load.2 ∧
      m.visits.find? load.2 = some ⟨load.1, key, .ready router⟩ := by
  unfold opens at h
  split at h
  next caller =>
    split at h
    next access key router hvisit =>
      split at h
      next =>
        cases List.mem_singleton.1 h
        exact ⟨key, router, rfl, hvisit⟩
      next => cases h
    next => cases h
  next => cases h

/-! ## Loads that start and end -/

/-- A lookup that goes on puts in flight what it opens. -/
theorem loads_look {m : Moment ι} (h : m.Seats) (caller : ι) :
    (m.opens (.look caller) ++ m.group.inFlight).Perm (m.look caller).group.inFlight := by
  cases hvisit : m.visits.find? caller with
  | none =>
    rw [look_of_none hvisit]
    simp only [opens, hvisit, List.nil_append]
    exact List.Perm.refl _
  | some visit =>
    obtain ⟨access, key, looking⟩ := visit
    have hnew := h.not_on_board hvisit access
    rw [look_eq hvisit]
    cases looking with
    | counted =>
      simp only [opens, hvisit, List.nil_append]
      rw [inFlight_congr (g := m.group) (h := (m.lookOn caller access key .counted).group)
        (flight_eq_of_fields rfl rfl)]
    | found value =>
      simp only [opens, hvisit, List.nil_append]
      rw [inFlight_congr (g := m.group) (h := (m.lookOn caller access key (.found value)).group)
        (flight_eq_of_fields rfl rfl)]
    | missed =>
      simp only [opens, hvisit, List.nil_append]
      exact List.Perm.refl _
    | ready router =>
      -- The last step: the caller joins the load that is marked, or opens one and marks it.
      cases hmark : (m.group.flight access).markers.find? key with
      | some leader =>
        simp only [opens, hvisit, hmark, reduceCtorEq, if_false, List.nil_append]
        exact inFlight_join (fun _ => rfl) caller hmark _
      | none =>
        simp only [opens, hvisit, hmark, if_true]
        exact inFlight_register (fun _ => rfl) hnew hmark _

/-- A load that is landing does not end before its landing is done. -/
theorem ends_land {m : Moment ι} {access : Access} {leader : ι} {landing : Landing}
    (hold : m.landings.find? (access, leader) = some landing)
    (hdone : ∀ how, landing ≠ .done how) : m.ends (.land access leader) = [] := by
  simp only [ends, hold]
  split
  next how heq => exact absurd (Option.some.inj heq) (hdone how)
  next => rfl

/-- A landing that goes on takes out of flight what it ends. -/
theorem loads_land {m : Moment ι} (h : m.Orderly) (access : Access) (leader : ι) :
    m.group.inFlight.Perm
      (m.ends (.land access leader) ++ (m.land access leader).group.inFlight) := by
  cases hold : m.landings.find? (access, leader) with
  | none =>
    rw [land_of_none hold]
    simp only [ends, hold, List.nil_append]
    exact List.Perm.refl _
  | some old =>
    obtain ⟨phase, hwork, -⟩ := h.landed access leader old hold
    obtain ⟨key, hkey⟩ := key?_of_work? hwork
    rw [land_eq hold hkey]
    -- Only a landing that is done ends its load, and only a turn touches the board besides.
    rcases m.landings_landOn access leader key old with
      ⟨next, hnext, -⟩ | ⟨rfl | ⟨how, rfl⟩, -⟩
    · rw [ends_land hold hnext.goesOn.2, List.nil_append]
      exact List.Perm.of_eq (inFlight_congr hnext.flight_landOn).symm
    · rw [ends_land hold (by simp), List.nil_append]
      exact inFlight_kept (fun _ => rfl) (Flight.markers_advance (m.group.flight access) leader _)
    · simp only [ends, hold]
      exact inFlight_finish (fun _ => rfl) (h.sound access) hwork how

/-- The loads that were in flight or have been started are in flight or have ended. -/
theorem loads_step {m : Moment ι} (h : m.Orderly) (move : Move ι) :
    (m.opens move ++ m.group.inFlight).Perm (m.ends move ++ (m.step move).group.inFlight) := by
  -- Loads are opened by a look, and ended by a landing or a panic; what else happens on a board
  -- leaves its markers.
  cases move with
  | registerPeers =>
    show m.group.inFlight.Perm (m.group.step .registerPeers).inFlight
    rw [step_registerPeers]
    exact List.Perm.refl _
  | enter caller access key =>
    show m.group.inFlight.Perm (m.enter caller access key).group.inFlight
    rcases m.enter_cases caller access key with ⟨-, heq⟩ | ⟨-, -, heq⟩ | ⟨-, -, heq⟩ <;> rw [heq]
    · exact List.Perm.refl _
    · exact List.Perm.refl _
  | look caller => exact loads_look h.seats caller
  | start access leader picked =>
    show m.group.inFlight.Perm (m.group.start access leader picked).inFlight
    rcases m.group.start_cases access leader picked with ⟨-, h⟩ | ⟨router, -, h⟩
    · rw [h]
    · rw [h]
      exact inFlight_kept (fun _ => rfl) (Flight.markers_advance _ leader _)
  | peerReply access leader reply =>
    show m.group.inFlight.Perm (m.peerReply access leader reply).group.inFlight
    rcases m.peerReply_cases access leader reply with
      ⟨-, h⟩ | ⟨_, _, _, -, ⟨bytes, -, h⟩ | ⟨error, -, h⟩⟩ <;> rw [h] <;> exact List.Perm.refl _
  | sourceReply access leader reply =>
    show m.group.inFlight.Perm (m.sourceReply access leader reply).group.inFlight
    rcases m.sourceReply_cases access leader reply with
      ⟨-, h⟩ | ⟨_, -, ⟨bytes, -, h⟩ | ⟨text, -, h⟩⟩ <;> rw [h] <;> exact List.Perm.refl _
  | panic access leader text =>
    show m.group.inFlight.Perm
      (m.ends (.panic access leader text) ++ (m.panic access leader text).group.inFlight)
    rcases m.panic_cases access leader text with ⟨hno, heq⟩ | ⟨request, hreq, heq⟩
    · simp only [ends, hno, List.nil_append, heq]
      exact List.Perm.refl _
    · obtain ⟨phase, hwork⟩ := work?_of_request? (request?_eq_some.1 hreq).2
      simp only [ends, hreq, heq]
      exact inFlight_finish (fun _ => rfl) (h.sound access) hwork _
  | land access leader => exact loads_land h access leader
  | deliver access caller =>
    exact inFlight_kept (fun _ => rfl) (Flight.markers_deliver (m.group.flight access) caller)
  | abandon access caller => exact inFlight_kept (fun _ => rfl) rfl

/-! ## Loads that are counted

A load that is started has not been counted, and it is counted once: by a panic, with which it ends,
or by its landing, after which it is still in flight. -/

/-- Whether a load has been counted is told by where its landing stands. -/
theorem isCounted_of_find? {m : Moment ι} {load : Load ι} {landing : Landing}
    (h : m.landings.find? load = some landing) :
    m.IsCounted load ↔ landing.isCounted = true := by
  constructor
  · rintro ⟨landing', h', hcounted⟩
    cases h.symm.trans h'
    exact hcounted
  · exact fun hcounted => ⟨landing, h, hcounted⟩

/-- A load without a landing has not been counted. -/
theorem not_isCounted_of_none {m : Moment ι} {load : Load ι} (h : m.landings.find? load = none) :
    ¬ m.IsCounted load := by
  rintro ⟨landing, h', -⟩
  cases h.symm.trans h'

/-- What is counted of a load is nothing to the moves of others. -/
theorem isCounted_step (m : Moment ι) (move : Move ι) {load : Load ι}
    (hmove : move ≠ .land load.1 load.2) : (m.step move).IsCounted load ↔ m.IsCounted load := by
  rcases m.find?_landings_step hmove with
    hsame | ⟨request, landing, hreq, -, hlanding, hcounted, -⟩
  · unfold IsCounted
    rw [show (m.step move).landings.find? load = m.landings.find? load from hsame]
  · refine iff_of_false ?_ (not_isCounted_of_none (request?_eq_some.1 hreq).1)
    rw [isCounted_of_find? hlanding, hcounted]
    exact Bool.false_ne_true

/-- A landing that goes on and is not at its end is counted afterwards if it was counted before or
is now. -/
theorem isCounted_landOn (m : Moment ι) (access : Access) (leader : ι) (key : String)
    {landing : Landing} (hdone : ∀ how, landing ≠ .done how) :
    (m.landOn access leader key landing).IsCounted (access, leader) ↔
      landing.isCounted = true ∨ landing.counts ≠ none := by
  rcases m.landings_landOn access leader key landing with ⟨next, hnext, heq⟩ | ⟨hlast, heq⟩
  · have hfind := Table.find?_insert_self m.landings (access, leader) next
    exact (isCounted_of_find? (heq ▸ hfind)).trans hnext.counted
  · have hfind := Table.find?_erase_self m.landings (access, leader)
    obtain rfl : landing = .turning := hlast.resolve_right fun ⟨how, h⟩ => hdone how h
    refine iff_of_false (not_isCounted_of_none (heq ▸ hfind)) ?_
    simp [Landing.isCounted, Landing.counts]

/-- A load that is not landing. -/
theorem not_landing_of_board {m : Moment ι} (h : m.Landed) {access : Access} {c : ι}
    (hsound : Flight.Sound (m.group.flight access)) (hc : c ∉ (m.group.flight access).callers) :
    m.landings.find? (access, c) = none := by
  cases hfind : m.landings.find? (access, c) with
  | none => rfl
  | some landing =>
    obtain ⟨phase, hwork, -⟩ := h access c landing hfind
    obtain ⟨key, hx⟩ := Flight.work?_eq_some.1 hwork
    cases (hsound.execution?_eq_none hc).symm.trans hx

/-- Beside its landing, a load is counted when it ends. -/
theorem counts_of_ne_land {m : Moment ι} {move : Move ι}
    (hmove : ∀ access leader, move ≠ .land access leader) :
    (m.counts move).map Prod.fst = m.ends move := by
  cases move with
  | land access leader => exact absurd rfl (hmove access leader)
  | panic access leader text =>
    simp only [counts, ends]
    split <;> rfl
  | _ => rfl

/-- What ends without a landing has not been counted before. -/
theorem not_isCounted_of_ends {m : Moment ι} {move : Move ι}
    (hmove : ∀ access leader, move ≠ .land access leader) {load : Load ι}
    (h : load ∈ m.ends move) : ¬ m.IsCounted load := by
  unfold ends at h
  split at h
  next access leader => exact absurd rfl (hmove access leader)
  next access leader text =>
    split at h
    next request hreq =>
      cases List.mem_singleton.1 h
      exact not_isCounted_of_none (request?_eq_some.1 hreq).1
    next => cases h
  next => cases h

/-- A landing that goes on counts a load that was not. -/
theorem counted_land {m : Moment ι} (h : m.Orderly) (access : Access) (leader : ι) :
    m.uncounted.Perm ((m.counts (.land access leader)).map Prod.fst ++
      (m.land access leader).uncounted) := by
  cases hold : m.landings.find? (access, leader) with
  | none =>
    rw [land_of_none hold]
    simp only [counts, hold, List.map_nil, List.nil_append]
    exact List.Perm.refl _
  | some old =>
    obtain ⟨phase, hwork, -⟩ := h.landed access leader old hold
    obtain ⟨key, hkey⟩ := key?_of_work? hwork
    obtain ⟨others, hsplit⟩ : ∃ others, m.group.inFlight.Perm ((access, leader) :: others) :=
      ⟨_, List.perm_cons_erase ((inFlight_iff_work? (h.sound access) leader).2 ⟨phase, hwork⟩)⟩
    have hnot : (access, leader) ∉ others :=
      (List.nodup_cons.1 (hsplit.nodup_iff.1 (inFlight_nodup h.sound))).1
    -- the other loads in flight are counted after the move as they were before it
    have hothers : others.filter (fun load => ¬ m.IsCounted load) =
        others.filter fun load => ¬ (m.land access leader).IsCounted load := by
      refine List.filter_congr fun load hload => decide_eq_decide.2 (not_congr ?_)
      refine (m.isCounted_step (.land access leader) ?_).symm
      rintro ⟨⟩
      exact hnot hload
    have hbefore := perm_filter_of_cons hsplit fun load => decide (¬ m.IsCounted load)
    have hloads := loads_land h access leader
    simp only [counts, hold]
    refine hbefore.trans ?_
    rw [hothers]
    simp only [decide_eq_true_eq, isCounted_of_find? hold]
    by_cases hdone : ∃ how, old = .done how
    · obtain ⟨how, rfl⟩ := hdone
      simp only [ends, hold] at hloads
      exact (List.Perm.cons_inv (hsplit.symm.trans hloads)).filter _
    · rw [ends_land hold fun how heq => hdone ⟨how, heq⟩, List.nil_append] at hloads
      have hafter := perm_filter_of_cons (hloads.symm.trans hsplit)
        fun load => decide (¬ (m.land access leader).IsCounted load)
      have hnext := m.isCounted_landOn access leader key fun how heq => hdone ⟨how, heq⟩
      rw [← land_eq hold hkey] at hnext
      simp only [decide_eq_true_eq, hnext] at hafter
      refine List.Perm.trans ?_ (hafter.symm.append_left _)
      rw [← List.append_assoc]
      refine List.Perm.append_right _ (List.Perm.of_eq ?_)
      cases hcounted : old.isCounted with
      | true => simp [Landing.counts_of_isCounted hcounted]
      | false => cases old.counts <;> simp

/-- The loads that were uncounted or have been started are uncounted or have been counted. -/
theorem counted_step {m : Moment ι} (h : m.Orderly) (move : Move ι) :
    (m.opens move ++ m.uncounted).Perm ((m.counts move).map Prod.fst ++
      (m.step move).uncounted) := by
  by_cases hland : ∃ access leader, move = .land access leader
  · obtain ⟨access, leader, rfl⟩ := hland
    exact counted_land h access leader
  have hmove : ∀ access leader, move ≠ .land access leader :=
    fun access leader heq => hland ⟨access, leader, heq⟩
  -- whatever starts or ends here has not been counted
  have hopens : (m.opens move).filter (fun load => ¬ m.IsCounted load) = m.opens move := by
    refine List.filter_eq_self.2 fun load hload => decide_eq_true ?_
    obtain ⟨key, router, -, hvisit⟩ := mem_opens hload
    exact not_isCounted_of_none
      (not_landing_of_board h.landed (h.sound load.1) (h.seats.not_on_board hvisit load.1))
  have hends : (m.ends move).filter (fun load => ¬ m.IsCounted load) = m.ends move :=
    List.filter_eq_self.2 fun load hload => decide_eq_true (not_isCounted_of_ends hmove hload)
  have hsame : (m.step move).uncounted =
      (m.step move).group.inFlight.filter fun load => ¬ m.IsCounted load :=
    List.filter_congr fun load _ =>
      decide_eq_decide.2 (not_congr (m.isCounted_step move (hmove load.1 load.2)))
  have hloads := (loads_step h move).filter fun load => decide (¬ m.IsCounted load)
  rw [List.filter_append, List.filter_append, hopens, hends] at hloads
  rw [counts_of_ne_land hmove, hsame]
  exact hloads

/-! ## Loads over a run -/

theorem loads_run {m : Moment ι} (h : m.Orderly) (hnone : m.group.inFlight = [])
    (moves : List (Move ι)) :
    (m.account moves).opened.Perm ((m.account moves).ended ++ (m.run moves).group.inFlight) := by
  have hperm := perm_told opens ends (fun m => m.group.inFlight) Orderly
    (fun _ move h => h.step move) (fun _ move h => loads_step h move) h moves
  rw [hnone, List.append_nil] at hperm
  exact hperm

/-- Over a run, what was opened has been counted or is still to be. -/
theorem counted_run {m : Moment ι} (h : m.Orderly) (hnone : m.group.inFlight = [])
    (moves : List (Move ι)) :
    (m.account moves).opened.Perm
      ((m.account moves).counted.map Prod.fst ++ (m.run moves).uncounted) := by
  have hperm := perm_told opens (fun m move => (counts m move).map Prod.fst) uncounted Orderly
    (fun _ move h => h.step move) (fun _ move h => counted_step h move) h moves
  rw [show m.uncounted = [] from by unfold uncounted; rw [hnone]; rfl, List.append_nil,
    map_told counts Prod.fst] at hperm
  exact hperm

/-- A load is started once: its leader is on the board from then on. -/
theorem opened_nodup {m : Moment ι} (h : m.Orderly) (moves : List (Move ι)) :
    (m.account moves).opened.Nodup := by
  refine (nodup_told Orderly (fun m load => load.2 ∈ (m.group.flight load.1).callers)
    (fun _ move h => h.step move) ?_ ?_ ?_ h moves).1
  · intro m move
    unfold opens
    split
    next =>
      split
      next =>
        split
        · exact List.nodup_singleton _
        · exact List.nodup_nil
      next => exact List.nodup_nil
    next => exact List.nodup_nil
  · intro m move load h hopens
    obtain ⟨key, router, rfl, hvisit⟩ := mem_opens hopens
    exact ⟨h.seats.not_on_board hvisit load.1, mem_board_step.2 (Or.inr ⟨key, router, rfl, hvisit⟩)⟩
  · exact fun m move load _ hstands => mem_board_step.2 (Or.inl hstands)

/-! ## A peer fails a load once

From when its peer has failed, a load is about to turn to the source or has turned. -/

/-- The peer of a load has failed. -/
def Rebuffed (m : Moment ι) (load : Load ι) : Prop :=
  m.landings.find? load = some .rebuffed ∨ m.landings.find? load = some .turning ∨
    Turned (m.group.flight load.1) load.2

theorem mem_rebuffs {m : Moment ι} {move : Move ι} {load : Load ι} (h : load ∈ m.rebuffs move) :
    ∃ error address name key, move = .peerReply load.1 load.2 (.error error) ∧
      m.request? load.1 load.2 = some (.peer address name key) := by
  unfold rebuffs at h
  split at h
  next access leader error =>
    split at h
    next address name key hreq =>
      cases List.mem_singleton.1 h
      exact ⟨error, address, name, key, rfl, hreq⟩
    next => cases h
  next => cases h

/-- A load that has turned to the source waits for nothing else, whatever happens. -/
theorem turned_step {m : Moment ι} {access : Access} {leader : ι}
    (h : Turned (m.group.flight access) leader) (move : Move ι) :
    Turned ((m.step move).group.flight access) leader := by
  rcases m.flight_step_cases access move with hsame | ⟨b, htakes, hstep⟩
  · rw [hsame]
    exact h
  · rw [hstep]
    refine h.step fun phase heq => ?_
    subst heq
    cases htakes with
    | start picked work => exact Or.inr ⟨_, work⟩
    | turn landing => exact Or.inl rfl

/-- A load that a peer has failed stays so. -/
theorem Rebuffed.step {m : Moment ι} {load : Load ι} (h : m.Rebuffed load) (hm : m.Orderly)
    (move : Move ι) : (m.step move).Rebuffed load := by
  -- The landing of a rebuff goes from one stage to the next, and then the load has turned for good.
  by_cases hmove : move = .land load.1 load.2
  · subst hmove
    rcases h with hlanding | hlanding | hturned
    · obtain ⟨phase, hwork, -⟩ := hm.landed load.1 load.2 _ hlanding
      obtain ⟨key, hkey⟩ := key?_of_work? hwork
      right; left
      show (m.land load.1 load.2).landings.find? load = _
      rw [land_eq hlanding hkey]
      exact Table.find?_insert_self _ _ _
    · obtain ⟨phase, hwork, -⟩ := hm.landed load.1 load.2 _ hlanding
      obtain ⟨key, hkey⟩ := key?_of_work? hwork
      right; right
      show Turned ((m.land load.1 load.2).group.flight load.1) load.2
      rw [land_eq hlanding hkey]
      show Turned ((m.group.setFlight load.1 _).flight load.1) load.2
      rw [flight_setFlight_self]
      exact turned_advance hwork
    · exact Or.inr (Or.inr (turned_step hturned _))
  · -- a load that is landing waits for no answer
    have hkept : ∀ landing, m.landings.find? load = some landing →
        (m.step move).landings.find? load = some landing := by
      intro landing hlanding
      rcases m.find?_landings_step hmove with hsame | ⟨request, -, hreq, -⟩
      · exact hsame.trans hlanding
      · cases (request?_eq_some.1 hreq).1.symm.trans hlanding
    exact h.imp (hkept _) (Or.imp (hkept _) fun hturned => turned_step hturned move)

/-! ## At most once in a run -/

/-- A load is failed by a peer once at most: it is turned to the source then. -/
theorem rebuffed_nodup {m : Moment ι} (h : m.Orderly) (moves : List (Move ι)) :
    (m.account moves).rebuffed.Nodup := by
  refine (nodup_told Orderly Rebuffed (fun _ move h => h.step move) ?_ ?_
    (fun m move load h hstands => hstands.step h move) h moves).1
  · intro m move
    unfold rebuffs
    split
    next =>
      split
      · exact List.nodup_singleton _
      · exact List.nodup_nil
    next => exact List.nodup_nil
  · intro m move load h hrebuffs
    obtain ⟨error, address, name, key, rfl, hreq⟩ := mem_rebuffs hrebuffs
    obtain ⟨hnone, hasking⟩ := request?_eq_some.1 hreq
    constructor
    · rintro (hlanding | hlanding | hturned)
      · cases hnone.symm.trans hlanding
      · cases hnone.symm.trans hlanding
      · cases hturned.phase _ (request?_eq_peer.1 hasking).1
    · left
      show (m.peerReply load.1 load.2 (.error error)).landings.find? load = _
      unfold peerReply
      rw [hreq]
      exact Table.find?_insert_self _ _ _

/-- A load that a peer fails has been started. -/
theorem rebuffed_subset_opened {m : Moment ι} (h : m.Orderly) (hnone : m.group.inFlight = [])
    (moves : List (Move ι)) : (m.account moves).rebuffed ⊆ (m.account moves).opened := by
  intro load hload
  obtain ⟨before, move, after, rfl, hrebuffs⟩ := exists_of_mem_told hload
  obtain ⟨error, address, name, key, -, hreq⟩ := mem_rebuffs hrebuffs
  have hflight : load ∈ (m.run before).group.inFlight :=
    (inFlight_iff_work? ((h.run before).sound load.1) load.2).2
      (work?_of_request? (request?_eq_some.1 hreq).2)
  have hopened := (loads_run h hnone before).mem_iff.2 (List.mem_append_right _ hflight)
  show load ∈ told step opens m (before ++ move :: after)
  rw [told_append]
  exact List.mem_append_left _ hopened

end Moment

end Group

end PeerCache
