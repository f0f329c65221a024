import Mathlib.Data.List.Induction
import PeerCache.Group.SourceCalls
import PeerCache.Proofs.Group.Landings
/-!
# PeerCache — calls of the source for one key

* **`calling_step`**, **`calling_run`** — a call is in progress from when a load calls the source
  until the source returns.
* **`called_nodup`** — a load has `Turned` to the source when it has called it, so it does not call
  again.
* **`leader_of_atSource`** — a board has one execution of a key at a time, so two calls for one key
  that are in progress at once are of loads that have come by different ways in.

The last section has the result for whole runs.
-/

namespace PeerCache

namespace Group

namespace Moment

variable {ι : Type} [DecidableEq ι]

/-! ## A load calls the source once -/

/-- What a load that calls the source is about to do. -/
theorem callsSource_cases {m : Moment ι} {move : Move ι} {load : Load ι}
    (h : load ∈ m.callsSource move) :
    (∃ picked router, move = .start load.1 load.2 picked ∧
      (m.group.flight load.1).work? load.2 = some (.queued router) ∧
      firstPhase router picked = .loading) ∨
    (move = .land load.1 load.2 ∧ m.landings.find? load = some .turning) := by
  unfold callsSource at h
  split at h
  next access leader picked =>
    split at h
    next router hwork =>
      split at h
      next => cases h
      next hnobody =>
        cases List.mem_singleton.1 h
        refine Or.inl ⟨picked, router, rfl, hwork, firstPhase_eq_loading.2 fun hrouter => ?_⟩
        exact Classical.byContradiction fun hpicked => hnobody ⟨hrouter, hpicked⟩
    next => cases h
  next access leader =>
    split at h
    next hturning =>
      cases List.mem_singleton.1 h
      exact Or.inr ⟨rfl, hturning⟩
    next => cases h
  next => cases h

/-- A load that calls the source has not turned to it before. -/
theorem not_turned_of_callsSource {m : Moment ι} (h : m.Landed) {move : Move ι} {load : Load ι}
    (hcalls : load ∈ m.callsSource move) : ¬ Turned (m.group.flight load.1) load.2 := by
  intro hturned
  rcases callsSource_cases hcalls with ⟨picked, router, -, hwork, -⟩ | ⟨-, hturning⟩
  · cases hturned.phase _ hwork
  · obtain ⟨phase, hwork, hfits⟩ := h load.1 load.2 _ hturning
    exact hfits.asked (Or.inr rfl) (hturned.phase phase hwork)

/-- A load that calls the source waits for it. -/
theorem work?_of_callsSource {m : Moment ι} (h : m.Landed) {move : Move ι} {load : Load ι}
    (hcalls : load ∈ m.callsSource move) :
    ((m.step move).group.flight load.1).work? load.2 = some .loading := by
  rcases callsSource_cases hcalls with ⟨picked, router, rfl, hwork, hphase⟩ | ⟨rfl, hturning⟩
  · show ((m.group.start load.1 load.2 picked).flight load.1).work? load.2 = some .loading
    rcases m.group.start_cases load.1 load.2 picked with ⟨hno, -⟩ | ⟨router', hwork', hstart⟩
    · exact absurd hwork (hno router)
    · rw [hwork] at hwork'
      cases hwork'
      rw [hstart, flight_setFlight_self, Flight.work?_advance hwork, hphase]
  · obtain ⟨phase, hwork, -⟩ := h load.1 load.2 _ hturning
    obtain ⟨key, hkey⟩ := key?_of_work? hwork
    show ((m.land load.1 load.2).group.flight load.1).work? load.2 = some .loading
    rw [land_eq hturning hkey]
    show ((m.group.setFlight load.1 _).flight load.1).work? load.2 = some .loading
    rw [flight_setFlight_self, Flight.work?_advance hwork]

theorem turned_of_loading {f : Flight ι Phase ByteView} {leader : ι}
    (h : f.work? leader = some .loading) : Turned f leader where
  key := key?_of_work? h
  phase := fun _ hwork => (Option.some.inj (h.symm.trans hwork)).symm

/-- No load calls the source twice in a run. -/
theorem called_nodup {m : Moment ι} (h : m.Orderly) (moves : List (Move ι)) :
    (told step callsSource m moves).Nodup := by
  refine (nodup_told Orderly (fun m load => Turned (m.group.flight load.1) load.2)
    (fun _ move h => h.step move) ?_ ?_ (fun m move load _ hturned => turned_step hturned move)
    h moves).1
  · intro m move
    unfold callsSource
    split
    next =>
      split
      next =>
        split
        · exact List.nodup_nil
        · exact List.nodup_singleton _
      next => exact List.nodup_nil
    next =>
      split
      next => exact List.nodup_singleton _
      next => exact List.nodup_nil
    next => exact List.nodup_nil
  · exact fun m move load h hcalls => ⟨not_turned_of_callsSource h.landed hcalls,
      turned_of_loading (work?_of_callsSource h.landed hcalls)⟩

/-! ## Calls in progress -/

/-- A load waits for the source. -/
structure Calling (m : Moment ι) (load : Load ι) : Prop where
  landing : m.landings.find? load = none
  work : (m.group.flight load.1).work? load.2 = some .loading

/-- A load calls the source for a key exactly if it is calling and this is its key. -/
theorem calling_iff {m : Moment ι} {load : Load ι} {key : String} :
    m.request? load.1 load.2 = some (.source key) ↔
      m.Calling load ∧ (m.group.flight load.1).key? load.2 = some key := by
  rw [request?_eq_some, request?_eq_source]
  exact ⟨fun ⟨hnone, hwork, hkey⟩ => ⟨⟨hnone, hwork⟩, hkey⟩,
    fun ⟨⟨hnone, hwork⟩, hkey⟩ => ⟨hnone, hwork, hkey⟩⟩

/-- A load that is calling calls for some key. -/
theorem Calling.request? {m : Moment ι} {load : Load ι} (h : m.Calling load) :
    ∃ key, m.request? load.1 load.2 = some (.source key) := by
  obtain ⟨key, hkey⟩ := key?_of_work? h.work
  exact ⟨key, calling_iff.2 ⟨h, hkey⟩⟩

/-- A call of the source returns by its answer or by its panic. -/
theorem mem_sourceReturns {m : Moment ι} {move : Move ι} {load : Load ι} :
    load ∈ m.sourceReturns move ↔ m.Calling load ∧
      ((∃ reply, move = .sourceReply load.1 load.2 reply) ∨
        ∃ text, move = .panic load.1 load.2 text) := by
  constructor
  · intro h
    unfold sourceReturns at h
    split at h
    next access leader reply =>
      split at h
      next key hreq =>
        cases List.mem_singleton.1 h
        exact ⟨(calling_iff.1 hreq).1, Or.inl ⟨reply, rfl⟩⟩
      next => cases h
    next access leader text =>
      split at h
      next key hreq =>
        cases List.mem_singleton.1 h
        exact ⟨(calling_iff.1 hreq).1, Or.inr ⟨text, rfl⟩⟩
      next => cases h
    next => cases h
  · rintro ⟨hcalling, ⟨reply, rfl⟩ | ⟨text, rfl⟩⟩
    · obtain ⟨key, hreq⟩ := hcalling.request?
      simp only [sourceReturns, hreq, List.mem_singleton]
    · obtain ⟨key, hreq⟩ := hcalling.request?
      simp only [sourceReturns, hreq, List.mem_singleton]

/-- Nothing but the return of the source changes what a load is that waits for it. -/
theorem Calling.step {m : Moment ι} {load : Load ι} (h : m.Calling load) {move : Move ι}
    (hreturns : load ∉ m.sourceReturns move) : (m.step move).Calling load := by
  have hmove := fun hmove => hreturns (mem_sourceReturns.2 ⟨h, hmove⟩)
  constructor
  · by_cases hland : move = .land load.1 load.2
    · subst hland
      show (m.land load.1 load.2).landings.find? load = none
      rw [land_of_none h.landing]
      exact h.landing
    -- A landing of this load would begin by the answer of the source, which is a return.
    · rcases m.find?_landings_step hland with
        hsame | ⟨request, landing, hreq, -, -, -, -, -, hsource⟩
      · exact hsame.trans h.landing
      · obtain ⟨key, hkey⟩ := h.request?
        rw [hkey] at hreq
        cases hreq
        exact absurd (Or.inl (hsource rfl)) hmove
  · rcases m.flight_step_cases load.1 move with hsame | ⟨b, htakes, hstep⟩
    · rw [hsame]
      exact h.work
    · rw [hstep]
      -- On its board only a start or a turn could send it elsewhere, and only a landing or a panic
      -- end it.
      refine Flight.work?_kept h.work (fun phase heq => ?_) fun how heq => ?_
      · subst heq
        cases htakes with
        | start picked work => cases h.work.symm.trans work
        | turn landing => cases h.landing.symm.trans landing
      · subst heq
        cases htakes with
        | done landing => cases h.landing.symm.trans landing
        | panic text waits => exact hmove (Or.inr ⟨text, rfl⟩)

/-- A load that lands and waits for the source then has called it. -/
theorem calling_of_land {m : Moment ι} (h : m.Orderly) {load : Load ι}
    (hafter : (m.land load.1 load.2).Calling load) :
    m.Calling load ∨ load ∈ m.callsSource (.land load.1 load.2) := by
  cases hold : m.landings.find? (load.1, load.2) with
  | none =>
    rw [land_of_none hold] at hafter
    exact Or.inl hafter
  | some old =>
    obtain ⟨phase, hwork, -⟩ := h.landed load.1 load.2 old hold
    obtain ⟨key, hkey⟩ := key?_of_work? hwork
    rw [land_eq hold hkey] at hafter
    have hnone := hafter.landing
    rcases m.landings_landOn load.1 load.2 key old with
      ⟨next, -, heq⟩ | ⟨rfl | ⟨how, rfl⟩, -⟩
    · rw [heq] at hnone
      cases (Table.find?_insert_self _ _ _).symm.trans hnone
    · right
      simp only [callsSource, hold, List.mem_singleton]
    · have hended : ((m.group.flight load.1).finish load.2 how).work? load.2 = some .loading := by
        have hwork' : ((m.group.setFlight load.1 _).flight load.1).work? load.2 = some .loading :=
          hafter.work
        rwa [flight_setFlight_self] at hwork'
      cases (Flight.work?_finish_self _ _ _).symm.trans hended

/-- A load comes to wait for the source by calling it. -/
theorem calling_of_step {m : Moment ι} (h : m.Orderly) {move : Move ι} {load : Load ι}
    (hafter : (m.step move).Calling load) : m.Calling load ∨ load ∈ m.callsSource move := by
  by_cases hland : move = .land load.1 load.2
  · subst hland
    exact calling_of_land h hafter
  -- Another move ends no landing of this load, so there was none.
  have hlanding : m.landings.find? load = none := by
    rcases m.find?_landings_step hland with hsame | ⟨request, landing, -, -, hfind, -⟩
    · exact hsame.symm.trans hafter.landing
    · cases hfind.symm.trans hafter.landing
  have hwork := hafter.work
  rcases m.flight_step_cases load.1 move with hsame | ⟨b, htakes, hstep⟩
  · rw [hsame] at hwork
    exact Or.inl ⟨hlanding, hwork⟩
  · rw [hstep] at hwork
    rcases Flight.work?_step hwork with hold | ⟨heq, -⟩ | ⟨-, key, heq⟩
    · exact Or.inl ⟨hlanding, hold⟩
    · cases htakes with
      | start picked work =>
        obtain ⟨rfl, hphase⟩ := Flight.Event.advance.inj heq
        refine Or.inr ?_
        simp only [callsSource, work]
        rw [if_neg fun hasked => hasked.2 (firstPhase_eq_loading.1 hphase hasked.1)]
        exact List.mem_singleton.2 rfl
      | turn landing =>
        cases heq
        exact absurd rfl hland
      | _ => cases heq
    · subst heq
      cases htakes

/-! ## Steps and runs -/

/-- A call is in progress when it has begun or was in progress, and the source does not return. -/
theorem calling_step {m : Moment ι} (h : m.Orderly) (move : Move ι) (load : Load ι) :
    (m.step move).Calling load ↔
      (m.Calling load ∨ load ∈ m.callsSource move) ∧ load ∉ m.sourceReturns move := by
  constructor
  · intro hafter
    refine ⟨calling_of_step h hafter, fun hreturns => ?_⟩
    obtain ⟨hcalling, ⟨reply, rfl⟩ | ⟨text, rfl⟩⟩ := mem_sourceReturns.1 hreturns
    · obtain ⟨key, hreq⟩ := hcalling.request?
      -- the answer of the source is the beginning of a landing
      have hlanding : (m.sourceReply load.1 load.2 reply).landings.find? load = none :=
        hafter.landing
      rcases m.sourceReply_cases load.1 load.2 reply with
        ⟨hno, -⟩ | ⟨_, -, ⟨bytes, -, heq⟩ | ⟨text, -, heq⟩⟩
      · exact hno key hreq
      · rw [heq] at hlanding
        cases (Table.find?_insert_self _ _ _).symm.trans hlanding
      · rw [heq] at hlanding
        cases (Table.find?_insert_self _ _ _).symm.trans hlanding
    · obtain ⟨key, hreq⟩ := hcalling.request?
      have hwork : ((m.panic load.1 load.2 text).group.flight load.1).work? load.2 =
          some .loading := hafter.work
      rcases m.panic_cases load.1 load.2 text with ⟨hno, -⟩ | ⟨request, -, heq⟩
      · cases hno.symm.trans hreq
      · rw [heq] at hwork
        have hended : ((m.group.setFlight load.1 _).flight load.1).work? load.2 = _ := hwork
        rw [flight_setFlight_self, Flight.work?_finish_self] at hended
        cases hended
  · rintro ⟨hcalling | hcalls, hreturns⟩
    · exact hcalling.step hreturns
    · refine ⟨?_, work?_of_callsSource h.landed hcalls⟩
      rcases callsSource_cases hcalls with ⟨picked, router, rfl, hwork, -⟩ | ⟨rfl, hturning⟩
      · -- a load that is queued is not landing
        show m.landings.find? load = none
        cases hfind : m.landings.find? load with
        | none => rfl
        | some landing =>
          obtain ⟨phase, hwork', hfits⟩ := h.landed load.1 load.2 landing hfind
          exact absurd (Option.some.inj (hwork'.symm.trans hwork)) (hfits.started router)
      · obtain ⟨phase, hwork, -⟩ := h.landed load.1 load.2 _ hturning
        obtain ⟨key, hkey⟩ := key?_of_work? hwork
        show (m.land load.1 load.2).landings.find? load = none
        rw [land_eq hturning hkey]
        exact Table.find?_erase_self _ _

theorem turned_run {m : Moment ι} {access : Access} {leader : ι}
    (h : Turned (m.group.flight access) leader) (moves : List (Move ι)) :
    Turned ((m.run moves).group.flight access) leader := by
  induction moves generalizing m with
  | nil => exact h
  | cons move moves ih => exact ih (turned_step h move)

/-- A load of which a call has returned has turned to the source. -/
theorem turned_of_returned {m : Moment ι} {moves : List (Move ι)} {load : Load ι}
    (h : load ∈ told step sourceReturns m moves) :
    Turned ((m.run moves).group.flight load.1) load.2 := by
  obtain ⟨before, move, after, rfl, hreturns⟩ := exists_of_mem_told h
  rw [run_append]
  exact turned_run (turned_of_loading (mem_sourceReturns.1 hreturns).1.work) (move :: after)

/-- Over a run in which no call is in progress at the beginning, the calls in progress are those
that have begun and not returned. -/
theorem calling_run {m : Moment ι} (h : m.Orderly) (hnone : ∀ load, ¬ m.Calling load)
    (moves : List (Move ι)) (load : Load ι) :
    (m.run moves).Calling load ↔
      load ∈ told step callsSource m moves ∧ load ∉ told step sourceReturns m moves := by
  -- By induction from the end, with what one move changes (`calling_step`).
  induction moves using List.reverseRecOn with
  | nil => exact iff_of_false (hnone load) fun h => List.not_mem_nil h.1
  | append_singleton before move ih =>
    have hone : ∀ line : Moment ι → Move ι → List (Load ι),
        told step line m (before ++ [move]) =
          told step line m before ++ line (m.run before) move := by
      intro line
      rw [told_append]
      exact congrArg (told step line m before ++ ·) (List.append_nil _)
    rw [run_append, hone, hone, List.mem_append, List.mem_append]
    refine (calling_step (h.run before) move load).trans ?_
    rw [ih]
    constructor
    · rintro ⟨⟨hcalled, hopen⟩ | hcalls, hreturns⟩
      · exact ⟨Or.inl hcalled, fun hover => hover.elim hopen hreturns⟩
      · -- a load of which a call has returned does not call again
        refine ⟨Or.inr hcalls, fun hover => hover.elim (fun hbefore => ?_) hreturns⟩
        exact not_turned_of_callsSource (h.run before).landed hcalls (turned_of_returned hbefore)
    · rintro ⟨hcalled | hcalls, hopen⟩
      · exact ⟨Or.inl ⟨hcalled, fun hover => hopen (Or.inl hover)⟩,
          fun hover => hopen (Or.inr hover)⟩
      · exact ⟨Or.inr hcalls, fun hover => hopen (Or.inr hover)⟩

/-! ## Calls for one key -/

/-- At the source for a key are the loads that ask it for this key. -/
theorem mem_atSource {m : Moment ι} (h : m.Orderly) {key : String} {load : Load ι} :
    load ∈ m.atSource key ↔ m.request? load.1 load.2 = some (.source key) := by
  unfold atSource
  rw [List.mem_filter, decide_eq_true_eq]
  exact and_iff_right_of_imp fun hreq => (inFlight_iff_work? (h.sound load.1) load.2).2
    (work?_of_request? (request?_eq_some.1 hreq).2)

/-- A board has one call for a key in progress at a time: the one of the execution that the key's
marker names. -/
theorem leader_of_atSource {m : Moment ι} (h : m.Orderly) {key : String} {load : Load ι}
    (hload : load ∈ m.atSource key) :
    (m.group.flight load.1).markers.find? key = some load.2 := by
  obtain ⟨hcalling, hkey⟩ := calling_iff.1 ((mem_atSource h).1 hload)
  obtain ⟨k, hx⟩ := Flight.work?_eq_some.1 hcalling.work
  unfold Flight.key? at hkey
  rw [hx] at hkey
  cases hkey
  exact ((h.sound load.1).marked k load.2).2 ⟨_, hx⟩

/-- At most one load of each way in is at the source for a key. -/
theorem atSource_accesses_nodup {m : Moment ι} (h : m.Orderly) (key : String) :
    ((m.atSource key).map Prod.fst).Nodup := by
  refine List.Nodup.map_on ?_ ((inFlight_nodup h.sound).filter _)
  rintro ⟨access, l⟩ hl ⟨_, l'⟩ hl' rfl
  have hmark := leader_of_atSource h hl
  have hmark' := leader_of_atSource h hl'
  exact Prod.ext rfl (Option.some.inj (hmark.symm.trans hmark'))

/-- There are as many calls for a key in progress as ways in that they came by, at most. -/
theorem atSource_length_le {m : Moment ι} (h : m.Orderly) {key : String} (ways : List Access)
    (hways : ∀ load ∈ m.atSource key, load.1 ∈ ways) :
    (m.atSource key).length ≤ ways.length := by
  rw [← List.length_map (f := Prod.fst)]
  refine (List.subperm_of_subset (atSource_accesses_nodup h key) fun access hmem => ?_).length_le
  obtain ⟨load, hload, rfl⟩ := List.mem_map.1 hmem
  exact hways load hload

/-! ## One way in -/

/-- A lookup on its way was made as what it is. -/
theorem visit_of_step {m : Moment ι} {move : Move ι} {c : ι} {access : Access} {key : String}
    {looking : Looking} (h : (m.step move).visits.find? c = some ⟨access, key, looking⟩) :
    move = .enter c access key ∨ ∃ before, m.visits.find? c = some ⟨access, key, before⟩ := by
  rcases m.enter_or_look_or_akin move with
    ⟨caller, a, k, rfl⟩ | ⟨caller, rfl⟩ | ⟨-, -, hvisits⟩
  · have hvisit : (m.enter caller a k).visits.find? c = some ⟨access, key, looking⟩ := h
    rcases m.enter_cases caller a k with ⟨-, heq⟩ | ⟨-, -, heq⟩ | ⟨-, -, heq⟩ <;>
      rw [heq] at hvisit
    · exact Or.inr ⟨looking, hvisit⟩
    · exact Or.inr ⟨looking, hvisit⟩
    · rw [Table.find?_insert] at hvisit
      split at hvisit
      next hc =>
        cases hvisit
        exact Or.inl (by rw [hc])
      next => exact Or.inr ⟨looking, hvisit⟩
  · right
    have hvisit : (m.look caller).visits.find? c = some ⟨access, key, looking⟩ := h
    cases hold : m.visits.find? caller with
    | none =>
      rw [look_of_none hold] at hvisit
      exact ⟨looking, hvisit⟩
    | some visit =>
      obtain ⟨a, k, before⟩ := visit
      -- Going on leaves way in and key as they are.
      have hset : ∀ next, (m.visits.insert caller ⟨a, k, next⟩).find? c =
          some ⟨access, key, looking⟩ →
          ∃ before, m.visits.find? c = some ⟨access, key, before⟩ := by
        intro next hnext
        rw [Table.find?_insert] at hnext
        split at hnext
        next hc =>
          cases hnext
          exact ⟨before, hc ▸ hold⟩
        next => exact ⟨looking, hnext⟩
      have herase : (m.visits.erase caller).find? c = some ⟨access, key, looking⟩ →
          ∃ before, m.visits.find? c = some ⟨access, key, before⟩ := by
        intro hnext
        rw [Table.find?_erase] at hnext
        split at hnext
        next => cases hnext
        next => exact ⟨looking, hnext⟩
      rw [look_eq hold] at hvisit
      cases before with
      | counted => exact hset _ hvisit
      | found value => exact herase hvisit
      | missed => exact hset _ hvisit
      | ready router => exact herase hvisit
  · exact Or.inr ⟨looking, hvisits ▸ h⟩

/-- Nobody has come by a way in, or is about to. -/
structure Untrodden (m : Moment ι) (access : Access) : Prop where
  visits : ∀ c key looking, m.visits.find? c ≠ some ⟨access, key, looking⟩
  board : ∀ c, c ∉ (m.group.flight access).callers

/-- A way in stays untrodden as long as nobody enters by it. -/
theorem Untrodden.step {m : Moment ι} {access : Access} (h : m.Untrodden access) {move : Move ι}
    (hmove : ∀ caller key, move ≠ .enter caller access key) : (m.step move).Untrodden access where
  board := by
    intro c hc
    rcases mem_board_step.1 hc with hold | ⟨key, router, -, hvisit⟩
    · exact h.board c hold
    · exact h.visits c key _ hvisit
  visits := by
    intro c key looking hvisit
    rcases visit_of_step hvisit with henter | ⟨before, hbefore⟩
    · exact hmove c key henter
    · exact h.visits c key before hbefore

theorem Untrodden.run {m : Moment ι} {access : Access} (h : m.Untrodden access)
    {moves : List (Move ι)} (hmoves : ∀ caller key, Move.enter caller access key ∉ moves) :
    (m.run moves).Untrodden access := by
  induction moves generalizing m with
  | nil => exact h
  | cons move moves ih =>
    refine ih (h.step fun caller key heq => ?_) fun caller key hmem => ?_
    · exact hmoves caller key (heq ▸ List.mem_cons_self)
    · exact hmoves caller key (List.mem_cons_of_mem _ hmem)

theorem untrodden_fresh (name : String) (cacheBytes : Nat) (policy : RemotePolicy)
    (access : Access) : (fresh name cacheBytes policy : Moment ι).Untrodden access where
  visits := by
    intro c key looking hvisit
    cases hvisit
  board := by
    intro c hc
    cases access <;> cases hc

/-- No call is in progress for a load by a way in that nobody has come by. -/
theorem Untrodden.access_ne {m : Moment ι} {access : Access} (h : m.Untrodden access)
    (hm : m.Orderly) {key : String} {load : Load ι} (hload : load ∈ m.atSource key) :
    load.1 ≠ access := by
  rintro rfl
  obtain ⟨hcalling, -⟩ := calling_iff.1 ((mem_atSource hm).1 hload)
  obtain ⟨k, hx⟩ := Flight.work?_eq_some.1 hcalling.work
  cases ((hm.sound load.1).execution?_eq_none (h.board load.2)).symm.trans hx

/-! ## Whole runs -/

/-- The calls of a group's source that are in progress at any moment of any run from the group's
making: those that a load has begun and that have not returned, by an answer or a panic. At most one
for a key is in progress for each way into the group, so there are at most two: one for a routed and
one for a direct load. Where all lookups come by the same way there is at most one. -/
theorem source_calls (name : String) (cacheBytes : Nat) (policy : RemotePolicy)
    (moves : List (Move ι)) :
    (told step callsSource (fresh name cacheBytes policy) moves).Nodup ∧
    (∀ key load, load ∈ (run (fresh name cacheBytes policy) moves).atSource key ↔
      load ∈ told step callsSource (fresh name cacheBytes policy) moves ∧
      load ∉ told step sourceReturns (fresh name cacheBytes policy) moves ∧
      ((run (fresh name cacheBytes policy) moves).group.flight load.1).key? load.2 = some key) ∧
    (∀ key, (((run (fresh name cacheBytes policy) moves).atSource key).map Prod.fst).Nodup) ∧
    (∀ key, ((run (fresh name cacheBytes policy) moves).atSource key).length ≤ 2) ∧
    ∀ unused, (∀ caller key, Move.enter caller unused key ∉ moves) →
      ∀ key, ((run (fresh name cacheBytes policy) moves).atSource key).length ≤ 1 := by
  have hfresh := orderly_fresh (ι := ι) name cacheBytes policy
  have horderly := hfresh.run moves
  have hnone : ∀ load, ¬ (fresh name cacheBytes policy : Moment ι).Calling load := by
    rintro ⟨access, leader⟩ hcalling
    cases access <;> cases hcalling.work
  refine ⟨called_nodup hfresh moves, fun key load => ?_, atSource_accesses_nodup horderly,
    fun key => ?_, fun unused hunused key => ?_⟩
  · rw [mem_atSource horderly, calling_iff, calling_run hfresh hnone, and_assoc]
  · refine atSource_length_le horderly [.routed, .direct] fun load _ => ?_
    cases load.1 <;> simp
  -- With one way in unused, all loads are of the other one.
  · have huntrodden := (untrodden_fresh (ι := ι) name cacheBytes policy unused).run hunused
    obtain ⟨other, hother⟩ : ∃ other : Access, ∀ access, access ≠ unused → access = other := by
      cases unused with
      | routed => exact ⟨.direct, fun access => by cases access <;> simp⟩
      | direct => exact ⟨.routed, fun access => by cases access <;> simp⟩
    refine atSource_length_le horderly [other] fun load hload => ?_
    exact List.mem_singleton.2 (hother _ (huntrodden.access_ne horderly hload))

/-- Lookups by one way in: the second caller joins the load of the first, the third looks another
key up, and the last two come after the source has failed the first load. -/
def oneWay : List (Move Nat) :=
  miss 0 .routed "k" ++ miss 1 .routed "k" ++ miss 2 .routed "j" ++
  [.start .routed 0 none, .start .routed 2 none, .sourceReply .routed 0 (.error "no"),
    .land .routed 0, .land .routed 0] ++
  miss 3 .routed "k" ++ miss 4 .routed "k" ++ [.start .routed 3 none]

/-- Several callers by one way in, two of which ask for a key whose load is underway: one call of
the source at a time for each key. -/
theorem source_calls_one_way :
    (∀ caller key, Move.enter caller .direct key ∉ oneWay) ∧
    told step callsSource (fresh "g" 64 .skip) oneWay =
      [(.routed, 0), (.routed, 2), (.routed, 3)] ∧
    (run (fresh "g" 64 .skip) oneWay).atSource "k" = [(.routed, 3)] ∧
    (run (fresh "g" 64 .skip) oneWay).atSource "j" = [(.routed, 2)] ∧
    ∀ key, ((run (fresh "g" 64 .skip) oneWay).atSource key).length ≤ 1 := by
  have hunused : ∀ caller key, Move.enter caller .direct key ∉ oneWay := by
    intro caller key h
    simp [oneWay, miss] at h
  exact ⟨hunused, by decide +kernel, by decide +kernel, by decide +kernel,
    (source_calls "g" 64 .skip oneWay).2.2.2.2 .direct hunused⟩

/-- Two callers whose lookups do not share a load. -/
def twoWays : List (Move Nat) :=
  miss 0 .routed "k" ++ miss 1 .direct "k" ++ [.start .routed 0 none, .start .direct 1 none]

/-- A routed and a direct load call the source for one key at the same time. -/
theorem source_calls_two_ways :
    (run (fresh "g" 64 .skip) twoWays).atSource "k" = [(.routed, 0), (.direct, 1)] ∧
    ¬ ((run (fresh "g" 64 .skip) twoWays).atSource "k").length ≤ 1 := by
  decide +kernel

end Moment

end Group

end PeerCache
