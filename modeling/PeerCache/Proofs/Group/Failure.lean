import PeerCache.Proofs.Group.Alone
import PeerCache.Proofs.Group.Burst
/-!
# PeerCache — a failed call leaves nothing behind

A call that has a group to itself and fails:

* with an empty key it was refused at its lookup, and after that nothing applies (`refused`);
* with any other key it missed and started a load (`Missed`), which has failed. The marker that the
  lookup set is gone with the load, and the store was not touched, so the next caller misses too
  (`failure_of_missed`).
-/

namespace PeerCache

namespace Group

variable {ι : Type} [DecidableEq ι]

/-! ## How often a peer turns a load away -/

/-- A list that has nothing but `x`, and that once. -/
theorem length_eq_ite {α : Type} [BEq α] [LawfulBEq α] {xs : List α} {x : α} (hnodup : xs.Nodup)
    (hall : ∀ y ∈ xs, y = x) : xs.length = if x ∈ xs then 1 else 0 := by
  cases xs with
  | nil => rfl
  | cons y ys =>
    have hy : y = x := hall y List.mem_cons_self
    have hys : ys = [] := by
      apply List.eq_nil_iff_forall_not_mem.2
      intro z hz
      have hzx : z = x := hall z (List.mem_cons_of_mem y hz)
      rw [hy, ← hzx] at hnodup
      exact (List.nodup_cons.1 hnodup).1 hz
    rw [hys, hy, if_pos List.mem_cons_self]
    rfl

/-- Of the own events of a call, only those of its load are told of in the account. -/
theorem eq_of_mem_rebuffed {g : Group ι} {access : Access} {leader caller : ι}
    {events : List (Event ι)} (hown : ∀ e ∈ events, e.IsOwn access leader caller) {load : Load ι}
    (h : load ∈ ledger rebuffs g events) : load = (access, leader) := by
  obtain ⟨before, e, after, rfl, hmem⟩ := exists_of_mem_ledger h
  obtain ⟨error, address, group, key, rfl, -⟩ := mem_rebuffs hmem
  have h := hown _ (List.mem_append_right before List.mem_cons_self)
  exact Prod.ext h.1 h.2

/-! ## A lookup that misses -/

/-- What the lookup of a new caller has done when it starts a load. -/
structure Missed (g h : Group ι) (caller : ι) (access : Access) (key : String) : Prop where
  store : h.store = g.store
  evicted : h.evicted = g.evicted
  counters : h.counters = { g.counters with gets := g.counters.gets + 1 }
  markers : ∀ a, (h.flight a).markers =
    if a = access then (g.flight a).markers.insert key caller else (g.flight a).markers
  key : (h.flight access).key? caller = some key
  waits : (h.flight access).leaderOf? caller = some caller
  queued : ∃ router, (h.flight access).work? caller = some (.queued router)

/-- A new caller whose key is not held and not in flight starts a load. -/
theorem missed_lookup {g : Group ι} (hg : g.Ready) {caller : ι} (hnew : caller ∉ g.callers)
    {access : Access} {key : String} (hkey : key ≠ "") (hget : (g.store.get key).2 = none)
    (hquiet : (g.flight access).markers.find? key = none) :
    Missed g (g.lookup caller access key) caller access key := by
  have hboard := hg.seated.not_on_board hnew access
  rcases g.lookup_cases caller access key with
    ⟨hcalled, -⟩ | ⟨-, hempty, -⟩ | ⟨value, -, -, hhit, -⟩ | ⟨-, -, -, h⟩
  · exact absurd hcalled hnew
  · exact absurd hempty hkey
  · rw [hget] at hhit
    cases hhit
  -- The miss: a new caller and no marker, so the call starts its own load.
  · obtain ⟨hload, hmarkers⟩ := Flight.call_new (hg.boards access) hboard hquiet
      (.queued (decide (access = Access.routed) && g.hasRouter))
    have hattached : (g.flight access).attached caller key = caller :=
      Flight.attached_of_no_marker hquiet caller
    rw [h]
    constructor
    case store => rw [store_setFlight, hg.store.get_of_miss hget]
    case evicted => exact (setFlight_frame _ _ _).2.2.2.2.2.2.1
    case counters => rw [counters_setFlight]
    case markers =>
      intro a
      rw [flight_setFlight]
      by_cases ha : a = access
      · rw [if_pos ha.symm, if_pos ha, hmarkers, ha]
      · rw [if_neg fun heq => ha heq.symm, if_neg ha]
        exact congrArg Flight.markers (flight_eq_of_fields rfl rfl a)
    case key =>
      rw [flight_setFlight_self]
      exact Option.map_eq_some_iff.2 ⟨_, hload, rfl⟩
    case waits =>
      rw [flight_setFlight_self, Flight.leaderOf?_call (hg.boards access), if_pos ⟨rfl, hboard⟩,
        hattached]
    case queued =>
      rw [flight_setFlight_self]
      exact ⟨_, Flight.work?_eq_some.2 ⟨key, hload⟩⟩

/-! ## The two ways to fail -/

omit [DecidableEq ι] in
/-- What fails a load fails its callers as the source does. -/
theorem outcome_of_fails {access : Access} {leader : ι} {event : Event ι} {how : Ending ByteView}
    {closing : Closing} (h : event.Fails access leader how closing) :
    ∃ text, how.outcome = .error (.source text) := by
  cases h with
  | source text => exact ⟨text, rfl⟩
  | panic text => exact ⟨_, rfl⟩

section Call

variable {g : Group ι} {caller : ι} {access : Access} {key : String} {own : List (Event ι)}

/-- A refused call: the caller leads no load, so nothing that follows applies. -/
theorem failure_of_refused (hg : g.Ready) (hnew : caller ∉ g.callers)
    (hown : ∀ e ∈ own, e.IsOwn access caller caller) :
    Failure g caller access "" (.lookup caller access "" :: own) keyRequired := by
  have hrun : g.run (.lookup caller access "" :: own) = (g.lookup caller access "").run own := rfl
  have hlookup : g.lookup caller access "" =
      { g with
        callers := g.callers ++ [caller]
        immediate := g.immediate ++ [(caller, .error keyRequired)] } := by
    unfold lookup
    rw [if_neg hnew, if_pos rfl]
  have hflight : ∀ a, (g.lookup caller access "").flight a = g.flight a := by
    rw [hlookup]
    exact flight_eq_of_fields rfl rfl
  have hidle : ((g.lookup caller access "").flight access).work? caller = none := by
    have hexecution := (hg.boards access).execution?_eq_none (hg.seated.not_on_board hnew access)
    rw [hflight]
    unfold Flight.work?
    rw [hexecution]
  have hcourse : Course (g.lookup caller access "") access caller own := course_run hown
  -- Nothing is underway, so a course that begins with a load that is does not apply.
  cases hcourse with
  | gained value markers work => simp [hidle] at work
  | failed how closing event mem fails fruitless closes markers work => simp [hidle] at work
  | on fruitless closes rebuffs markers =>
    have hcounters := fruitless.counters
    rw [rebuffs hidle, hlookup] at hcounters
    constructor
    case store => rw [hrun, fruitless.store, hlookup]
    case evicted => rw [hrun, fruitless.evicted, hlookup]
    case markers =>
      intro a
      rw [hrun, markers, hflight]
    case refused =>
      intro _
      rw [hrun, hlookup]
      exact ⟨rfl, hcounters⟩
    case counted => exact fun hne => absurd rfl hne
    case ended => exact fun hne => absurd rfl hne
    case source => exact fun hne => absurd rfl hne
    case again => exact fun hne => absurd rfl hne

/-- A call that started a load which has ended, and not by a value. -/
theorem failure_of_missed (hg : g.Ready) (hnew : caller ∉ g.callers) (hkey : key ≠ "")
    (hget : (g.store.get key).2 = none) (hquiet : (g.flight access).markers.find? key = none)
    (hown : ∀ e ∈ own, e.IsOwn access caller caller)
    (hafter : (g.run (.lookup caller access key :: own)).Ready) {how : Ending ByteView}
    {e : CacheError}
    (hend : (((g.lookup caller access key).run own).flight access).ending? caller = some how)
    (he : .error e = how.outcome) :
    Failure g caller access key (.lookup caller access key :: own) e := by
  have hmissed : Missed g (g.lookup caller access key) caller access key :=
    missed_lookup hg hnew hkey hget hquiet
  have hrun : g.run (.lookup caller access key :: own) = (g.lookup caller access key).run own := rfl
  have hrebuffs : ledger rebuffs g (.lookup caller access key :: own) =
      ledger rebuffs (g.lookup caller access key) own := rfl
  have hcloses : ledger closes g (.lookup caller access key :: own) =
      ledger closes (g.lookup caller access key) own := rfl
  have hcourse : Course (g.lookup caller access key) access caller own := course_run hown
  -- The load has ended in a failure, so its course is the one of failed loads.
  cases hcourse with
  | on fruitless closes rebuffs markers work =>
    obtain ⟨router, hqueued⟩ := hmissed.queued
    cases hqueued.symm.trans (Flight.work?_eq_none_of_ending? work hend)
  | gained value markers work ending =>
    rw [ending] at hend
    cases hend
    cases he
  | failed how' closing event mem fails fruitless closes markers work ending =>
    rw [ending] at hend
    cases hend
    have hstore : (g.run (.lookup caller access key :: own)).store = g.store := by
      rw [hrun, fruitless.store, hmissed.store]
    -- The marker that the call has set is the one that its load has taken away.
    have hmarkers : ∀ a, ((g.run (.lookup caller access key :: own)).flight a).markers =
        (g.flight a).markers := by
      intro a
      rw [hrun, markers a key hmissed.key, hmissed.markers]
      by_cases ha : a = access
      · rw [if_pos ha, if_pos ha, Table.erase_insert (ha ▸ hquiet)]
      · rw [if_neg ha, if_neg ha]
    constructor
    case store => exact hstore
    case evicted => rw [hrun, fruitless.evicted, hmissed.evicted]
    case markers => exact hmarkers
    case refused => exact fun hempty => absurd hempty hkey
    case counted =>
      intro _
      -- A peer has failed it at most once, as the load turns to the source then.
      have hpeer : (ledger rebuffs (g.lookup caller access key) own).length =
          if (access, caller) ∈ ledger rebuffs (g.lookup caller access key) own then 1 else 0 :=
        length_eq_ite (rebuffed_nodup _ own) fun load h => eq_of_mem_rebuffed hown h
      have hclosing : (([((access, caller), closing)] : List (Load ι × Closing)).map Prod.snd).count
          .failed = if ((access, caller), Closing.failed) ∈ [((access, caller), closing)] then 1
            else 0 := by
        cases closing <;> simp
      have hcounters := fruitless.counters
      rw [closes, hclosing, hmissed.counters] at hcounters
      rw [hrun, hrebuffs, hcloses, closes, hcounters, ← hpeer]
    case ended =>
      intro _
      exact ⟨event, List.mem_cons_of_mem _ mem, how, closing, fails, by rw [hcloses, closes], he⟩
    case source =>
      intro _
      obtain ⟨text, htext⟩ := outcome_of_fails fails
      rw [htext] at he
      cases he
      exact ⟨text, rfl⟩
    case again =>
      -- Store and markers are as before the call, so the next one misses in the same way.
      intro _ next a hnext hfree
      have hmiss : ((g.run (.lookup caller access key :: own)).store.get key).2 = none := by
        rw [hstore, hget]
      rw [← hmarkers] at hfree
      exact ⟨if_pos ⟨hnext, hkey, hmiss, hfree⟩,
        (missed_lookup hafter hnext hkey hmiss hfree).queued⟩

end Call

/-! ## Every failing call -/

/-- **A failed call.** Take a group that any run has led to, a caller that has not called, and a key
that is not being loaded on the caller's way in. The caller looks the key up; then nothing happens
but what is this call's own, and the caller is answered with an error. All that is left of the call
are the counters of it: the store is the same, nobody was evicted, and the keys in flight are those
of before. An empty key is refused and not counted at all. Any other key counts as one get, as one
failure of a peer exactly if a peer failed the load, and as one failure of the source exactly if the
source did; the error is then one of the source, and the next lookup of the key starts a load. -/
theorem failed_call (name : String) (cacheBytes : Nat) (policy : RemotePolicy)
    (before own : List (Event ι)) (caller : ι) (access : Access) (key : String) (e : CacheError)
    (hnew : caller ∉ ((new name cacheBytes policy).run before).callers)
    (hquiet : (((new name cacheBytes policy).run before).flight access).markers.find? key = none)
    (hown : ∀ event ∈ own, event.IsOwn access caller caller)
    (hanswer : (((new name cacheBytes policy).run before).run
      (.lookup caller access key :: own)).answer? access caller = some (.error e)) :
    Failure ((new name cacheBytes policy).run before) caller access key
      (.lookup caller access key :: own) e := by
  have hunused : (new name cacheBytes policy : Group ι).Unused :=
    unused_new name cacheBytes policy false
  have hg := ready_run hunused before
  -- whoever is answered at once keeps that answer
  have honce : ∀ o, ((new name cacheBytes policy).run before).atOnce? ⟨access, key⟩ = some o →
      o = .error e := by
    intro o ho
    exact Option.some.inj ((answer?_of_atOnce? hg hnew ho own).symm.trans hanswer)
  by_cases hkey : key = ""
  · subst hkey
    cases honce (.error keyRequired) rfl
    exact failure_of_refused hg hnew hown
  · have hget : (((new name cacheBytes policy).run before).store.get key).2 = none := by
      cases hheld : (((new name cacheBytes policy).run before).store.get key).2 with
      | none => rfl
      | some value =>
        have hvalue : ((new name cacheBytes policy).run before).atOnce? ⟨access, key⟩ =
            some (.ok value) := by
          rw [atOnce?_of_ne hkey, hheld]
          rfl
        cases honce _ hvalue
    have hfirst : (new name cacheBytes policy).run (before ++ [.lookup caller access key]) =
        ((new name cacheBytes policy).run before).lookup caller access key := run_append _ _ _
    have hall : (new name cacheBytes policy).run ((before ++ [.lookup caller access key]) ++ own) =
        ((new name cacheBytes policy).run before).run (.lookup caller access key :: own) := by
      rw [List.append_assoc]
      exact (run_lookup _ before own caller access key).symm
    have hwait := (missed_lookup hg hnew hkey hget hquiet).waits
    rw [← hfirst] at hwait
    rw [← hall] at hanswer
    obtain ⟨how, hend, he⟩ := ending_of_answer hunused hwait hanswer
    rw [hall] at hend
    have hafter := ready_run hunused ((before ++ [.lookup caller access key]) ++ own)
    rw [hall] at hafter
    exact failure_of_missed hg hnew hkey hget hquiet hown hafter hend he

/-- A group with a router. -/
def withRouter : Group Nat := (new "g" 8 .populate).run [.registerPeers]

/-- A load that fails twice. -/
def failsTwice : List (Event Nat) :=
  [.start .routed 0 (some "p"), .peerReply .routed 0 (.error (.peer "down")),
    .sourceReply .routed 0 (.error "gone"), .deliver .routed 0]

/-- First the peer fails the load and then the source. -/
theorem failed_call_twice :
    0 ∉ withRouter.callers ∧ (withRouter.flight .routed).markers.find? "k" = none ∧
    (∀ event ∈ failsTwice, event.IsOwn .routed 0 0) ∧
    (withRouter.run (.lookup 0 .routed "k" :: failsTwice)).answer? .routed 0 =
      some (.error (.source "gone")) ∧
    (withRouter.run (.lookup 0 .routed "k" :: failsTwice)).counters = ⟨1, 0, 0, 1, 0, 1⟩ ∧
    (withRouter.run (.lookup 0 .routed "k" :: failsTwice)).store = .new 8 := by
  have hnew : 0 ∉ withRouter.callers := by decide
  have hquiet : (withRouter.flight .routed).markers.find? "k" = none := by decide
  have hown : ∀ event ∈ failsTwice, event.IsOwn .routed 0 0 := by simp [failsTwice, Event.IsOwn]
  have hanswer : (withRouter.run (.lookup 0 .routed "k" :: failsTwice)).answer? .routed 0 =
      some (.error (.source "gone")) := by rfl
  have hfailure : Failure withRouter 0 .routed "k" (.lookup 0 .routed "k" :: failsTwice)
      (.source "gone") :=
    failed_call "g" 8 .populate [.registerPeers] failsTwice 0 .routed "k" (.source "gone") hnew
      hquiet
      hown hanswer
  have hrebuffed : ((.routed, 0) : Load Nat) ∈
      ledger rebuffs withRouter (.lookup 0 .routed "k" :: failsTwice) := by decide
  have hclosed : (((.routed, 0), .failed) : Load Nat × Closing) ∈
      ledger closes withRouter (.lookup 0 .routed "k" :: failsTwice) := by decide
  have hcounters := hfailure.counted (by decide)
  rw [if_pos hrebuffed, if_pos hclosed] at hcounters
  exact ⟨hnew, hquiet, hown, hanswer, hcounters, hfailure.store⟩

end Group

end PeerCache
