import Mathlib.Data.Finset.Card
import Mathlib.Data.List.Induction
import PeerCache.Group.Burst
import PeerCache.Proofs.Flight.Callers
import PeerCache.Proofs.Group.Loads
import PeerCache.Proofs.Lru.Ledger
/-!
# PeerCache — calls made together

Callers that come at once are told apart by their calls alone:

* **`Ready`** — what holds of every group that a run has reached. `lookup_at_once`, `lookup_waits`
  and the lemmas after them say what the lookup of a new caller does to such a group.
* **`After`** — a group after the lookups of some calls, in terms of the group before all of them:
  what is held is the same, and loads are in flight for the calls that needed one. `After.concat`
  adds one more call, and `after_run` counts the loads that a list of calls starts.
* **`Seat`** — where each caller is: answered at once, or waiting for the one load that is in flight
  for its call. So callers of one call share their place for good.
* **`count_closed`** — a load that has been started ends once.
-/

namespace PeerCache

namespace Store

/-! ## What a store holds -/

theorem Sound.nodup {s : Store} (h : Sound s) : (s.entries.map Prod.fst).Nodup := by
  obtain ⟨r, hr⟩ := h
  unfold Store.entries
  cases hc : s.lru with
  | none => exact List.nodup_nil
  | some c =>
    show (c.entries.map Prod.fst).Nodup
    rw [(hr.used c hc).entries_eq]
    exact (hr.used c hc).nodup

/-- A lookup finds what the store holds. -/
theorem Sound.get_eq_some_iff {s : Store} (h : Sound s) {key : String} {value : ByteView} :
    (s.get key).2 = some value ↔ (key, value) ∈ s.entries := by
  have hnodup := h.nodup
  obtain ⟨r, hr⟩ := h
  rw [hr.entries_eq] at hnodup
  rw [(hr.get key).1, hr.entries_eq, Recency.get_eq_peek, Recency.mem_iff_peek hnodup]

/-- A lookup only changes the order of the entries. -/
theorem Sound.perm_get {s : Store} (h : Sound s) (key : String) :
    s.entries.Perm (s.get key).1.entries := by
  have hnodup := h.nodup
  obtain ⟨r, hr⟩ := h
  rw [hr.entries_eq] at hnodup
  rw [hr.entries_eq, (hr.get key).2.entries_eq]
  exact Recency.perm_get hnodup key

/-- One lookup makes no difference to the answer of another. -/
theorem Sound.get_get {s : Store} (h : Sound s) (key k : String) :
    ((s.get key).1.get k).2 = (s.get k).2 := by
  refine Option.ext fun value => ?_
  rw [(h.get key).get_eq_some_iff, h.get_eq_some_iff, (h.perm_get key).mem_iff]

end Store

namespace Group

variable {ι : Type} [DecidableEq ι]

/-! ## Groups that a run has reached -/

/-- The group is one that a run can reach. -/
structure Ready (g : Group ι) : Prop where
  seated : g.Seated
  boards : ∀ access, Flight.Sound (g.flight access)
  store : g.store.Sound
  /-- Nothing is held for the empty key. -/
  keyed : ¬ g.Stores ""

/-- A call on a board has a key. -/
theorem key_ne_of_mem_boardEvents {g : Group ι} {access : Access} {events : List (Event ι)}
    {caller : ι} {key : String} {phase : Phase}
    (h : .call caller key phase ∈ g.boardEvents access events) : key ≠ "" := by
  induction events generalizing g with
  | nil => cases h
  | cons e es ih =>
    rcases List.mem_append.1 h with h | h
    · have hb : g.boardEvent? access e = some (.call caller key phase) := Option.mem_toList.1 h
      obtain ⟨rfl, -, -⟩ := call_of_boardEvent? hb
      simp only [boardEvent?] at hb
      split at hb
      next hmiss => exact hmiss.2.2.1
      next => cases hb
    · exact ih h

/-- No load is for an empty key. -/
theorem key?_ne_empty {g : Group ι} (hg : g.Unused) {events : List (Event ι)} {access : Access}
    {leader : ι} : ((g.run events).flight access).key? leader ≠ some "" := by
  intro hkey
  rw [flight_run, hg.boards access] at hkey
  obtain ⟨before, work, hcall⟩ := Flight.exists_first_call_of_key? hkey
  exact key_ne_of_mem_boardEvents hcall.mem rfl

/-- After any run a group is ready for a burst. -/
theorem ready_run {g : Group ι} (hg : g.Unused) (events : List (Event ι)) :
    (g.run events).Ready where
  seated := hg.seated.run events
  boards := by
    refine sound_flight_run (fun access => ?_) events
    rw [hg.boards access]
    exact Flight.sound_empty
  store := (fed_run hg.fed events).store
  keyed := by
    intro hheld
    obtain ⟨⟨key, value⟩, hmem, rfl⟩ := List.mem_map.1 hheld
    -- an entry for the empty key would have been supplied to a load of the empty key
    obtain ⟨s, hs, hof, -⟩ := (fed_run hg.fed events).stored _ hmem
    obtain ⟨before, e, after, -, hsup⟩ := exists_supplies hs
    have hkey := key?_of_mem_supplies hsup
    rcases hof.request with hrequest | ⟨address, hrequest⟩
    · rw [hrequest] at hkey
      exact key?_ne_empty hg hkey
    · rw [hrequest] at hkey
      exact key?_ne_empty hg hkey

/-! ## One lookup -/

/-- What a call is answered at once: an empty key is refused, and a held key has its value. -/
def atOnce? (g : Group ι) (call : Call) : Option (Outcome ByteView) :=
  if call.key = "" then some (.error keyRequired)
  else (g.store.get call.key).2.map .ok

/-- What a caller was answered at once. -/
def immediate? (g : Group ι) (caller : ι) : Option (Outcome ByteView) :=
  (g.immediate.find? fun a => a.1 = caller).map Prod.snd

omit [DecidableEq ι] in
/-- A key is stored exactly if a lookup finds it. -/
theorem stores_iff {g : Group ι} (hstore : g.store.Sound) {key : String} :
    g.Stores key ↔ (g.store.get key).2 ≠ none := by
  rw [Option.ne_none_iff_exists']
  constructor
  · intro hheld
    obtain ⟨⟨k, value⟩, hmem, rfl⟩ := List.mem_map.1 hheld
    exact ⟨value, hstore.get_eq_some_iff.2 hmem⟩
  · rintro ⟨value, hget⟩
    exact List.mem_map.2 ⟨_, hstore.get_eq_some_iff.1 hget, rfl⟩

omit [DecidableEq ι] in
/-- Who is not answered at once has a key that is not held. -/
theorem atOnce?_eq_none_iff {g : Group ι} (hstore : g.store.Sound) {call : Call} :
    g.atOnce? call = none ↔ call.key ≠ "" ∧ ¬ g.Stores call.key := by
  unfold atOnce?
  rw [stores_iff hstore, not_not]
  by_cases hkey : call.key = ""
  · simp [hkey]
  · simp [hkey]

omit [DecidableEq ι] in
theorem atOnce?_of_ne {g : Group ι} {access : Access} {key : String} (hkey : key ≠ "") :
    g.atOnce? ⟨access, key⟩ = (g.store.get key).2.map .ok := if_neg hkey

section Lookup

variable {g : Group ι} {caller : ι} {call : Call}

/-- A new caller that is answered at once is heard of by no board. -/
theorem lookup_at_once (hnew : caller ∉ g.callers) {o : Outcome ByteView}
    (ho : g.atOnce? call = some o) :
    (g.lookup caller call.access call.key).immediate = g.immediate ++ [(caller, o)] ∧
      ∀ a, (g.lookup caller call.access call.key).flight a = g.flight a := by
  unfold atOnce? at ho
  rcases g.lookup_cases caller call.access call.key with
    ⟨hcalled, -⟩ | ⟨-, hkey, h⟩ | ⟨value, -, hkey, hget, h⟩ | ⟨-, hkey, hget, -⟩
  · exact absurd hcalled hnew
  · rw [if_pos hkey] at ho
    rw [h, ← Option.some.inj ho]
    exact ⟨rfl, flight_eq_of_fields rfl rfl⟩
  · rw [if_neg hkey, hget] at ho
    rw [h, ← Option.some.inj ho]
    exact ⟨rfl, flight_eq_of_fields rfl rfl⟩
  · rw [if_neg hkey, hget] at ho
    cases ho

/-- A new caller that is not answered at once calls on its board. -/
theorem lookup_waits (hnew : caller ∉ g.callers) (hnone : g.atOnce? call = none) :
    (g.lookup caller call.access call.key).immediate = g.immediate ∧
      ∃ phase, ∀ a, (g.lookup caller call.access call.key).flight a =
        if call.access = a then (g.flight call.access).call caller call.key phase
        else g.flight a := by
  unfold atOnce? at hnone
  rcases g.lookup_cases caller call.access call.key with
    ⟨hcalled, -⟩ | ⟨-, hkey, -⟩ | ⟨value, -, hkey, hget, -⟩ | ⟨-, -, -, h⟩
  · exact absurd hcalled hnew
  · rw [if_pos hkey] at hnone
    cases hnone
  · rw [if_neg hkey, hget] at hnone
    cases hnone
  · rw [h]
    refine ⟨immediate_setFlight _ _ _,
      .queued (decide (call.access = Access.routed) && g.hasRouter), fun a => ?_⟩
    rw [flight_setFlight]
    split
    · rfl
    · exact flight_eq_of_fields rfl rfl a

/-- A lookup leaves the store, or brings an entry of it to the front. -/
theorem store_lookup (g : Group ι) (caller : ι) (access : Access) (key : String) :
    (g.lookup caller access key).store = g.store ∨
      (g.lookup caller access key).store = (g.store.get key).1 := by
  rcases g.lookup_cases caller access key with
    ⟨-, h⟩ | ⟨-, -, h⟩ | ⟨value, -, -, -, h⟩ | ⟨-, -, -, h⟩
  · rw [h]
    exact Or.inl rfl
  · rw [h]
    exact Or.inl rfl
  · rw [h]
    exact Or.inr rfl
  · rw [h, store_setFlight]
    exact Or.inr rfl

/-- A lookup makes no difference to what is held. -/
theorem stores_lookup (hstore : g.store.Sound) (caller : ι) (access : Access) (key k : String) :
    (g.lookup caller access key).Stores k ↔ g.Stores k := by
  unfold Stores
  rcases g.store_lookup caller access key with h | h
  · rw [h]
  · rw [h, ((hstore.perm_get key).map Prod.fst).mem_iff]

/-- A lookup makes no difference to what others are answered at once. -/
theorem atOnce?_lookup (hstore : g.store.Sound) (caller : ι) (access : Access) (key : String)
    (d : Call) : (g.lookup caller access key).atOnce? d = g.atOnce? d := by
  unfold atOnce?
  rcases g.store_lookup caller access key with h | h
  · rw [h]
  · rw [h, hstore.get_get]

/-- After a new caller's lookup the load that it waits for is the one in flight for its call. -/
theorem find?_markers_lookup (hg : g.Ready) (hnew : caller ∉ g.callers) (d : Call) :
    ((g.lookup caller call.access call.key).flight d.access).markers.find? d.key =
      if d = call ∧ g.atOnce? call = none then
        some ((g.flight call.access).attached caller call.key)
      else (g.flight d.access).markers.find? d.key := by
  cases honce : g.atOnce? call with
  | some o =>
    rw [(lookup_at_once hnew honce).2, if_neg fun h => by cases h.2]
  | none =>
    obtain ⟨-, phase, hflight⟩ := lookup_waits hnew honce
    have hboard := hg.seated.not_on_board hnew call.access
    rw [hflight]
    by_cases ha : call.access = d.access
    · rw [if_pos ha, Flight.find?_markers_call]
      by_cases hk : d.key = call.key
      · have hd : d = call := by
          cases d
          cases call
          cases ha
          cases hk
          rfl
        rw [if_pos ⟨hk, hboard⟩, if_pos ⟨hd, rfl⟩]
      · rw [if_neg fun h => hk h.1, if_neg fun h => hk (congrArg Call.key h.1), ha]
    · rw [if_neg ha, if_neg fun h => ha (congrArg Call.access h.1).symm]

/-- After a new caller's lookup a load for its call is in flight if the call needed one. -/
theorem underway_lookup (hg : g.Ready) (hnew : caller ∉ g.callers) (d : Call) :
    (g.lookup caller call.access call.key).Underway d ↔
      g.Underway d ∨ (d = call ∧ g.Needs call) := by
  have hnone : g.atOnce? call = none ↔ call.key ≠ "" ∧ ¬ g.Stores call.key :=
    atOnce?_eq_none_iff hg.store
  unfold Underway
  rw [find?_markers_lookup hg hnew]
  by_cases hd : d = call ∧ g.atOnce? call = none
  · rw [if_pos hd]
    obtain ⟨rfl, honce⟩ := hd
    refine iff_of_true rfl ?_
    by_cases hunderway : g.Underway d
    · exact Or.inl hunderway
    · exact Or.inr ⟨rfl, (hnone.1 honce).1, (hnone.1 honce).2, hunderway⟩
  · rw [if_neg hd]
    refine (or_iff_left fun h => hd ⟨h.1, hnone.2 ⟨h.2.1, h.2.2.1⟩⟩).symm

/-- A new caller starts a load if its call needs one. -/
theorem opens_lookup (hg : g.Ready) (hnew : caller ∉ g.callers) :
    g.opens (.lookup caller call.access call.key) =
      if g.Needs call then [(call.access, caller)] else [] := by
  have hmiss : ¬ g.Stores call.key ↔ (g.store.get call.key).2 = none := by
    rw [stores_iff hg.store, not_not]
  have hmark : ¬ g.Underway call ↔ (g.flight call.access).markers.find? call.key = none := by
    unfold Underway
    rw [Bool.not_eq_true, Option.isSome_eq_false_iff, Option.isNone_iff_eq_none]
  unfold opens Needs
  simp only [hnew, not_false_eq_true, true_and, hmiss, hmark, ne_eq]

/-- What a new caller counts as. -/
theorem counters_lookup (hg : g.Ready) (hnew : caller ∉ g.callers) (call : Call) :
    (g.lookup caller call.access call.key).counters.gets =
        g.counters.gets + (if call.key ≠ "" then 1 else 0) ∧
      (g.lookup caller call.access call.key).counters.hits =
        g.counters.hits + (if g.Stores call.key then 1 else 0) := by
  rcases g.lookup_cases caller call.access call.key with
    ⟨hcalled, -⟩ | ⟨-, hkey, h⟩ | ⟨value, -, hkey, hget, h⟩ | ⟨-, hkey, hget, h⟩
  · exact absurd hcalled hnew
  · rw [h, if_neg (not_not.2 hkey), hkey, if_neg hg.keyed]
    exact ⟨rfl, rfl⟩
  · have hheld : g.Stores call.key :=
      (stores_iff hg.store).2 (by rw [hget]; exact Option.some_ne_none value)
    rw [h, if_pos hkey, if_pos hheld]
    exact ⟨rfl, rfl⟩
  · have hheld : ¬ g.Stores call.key := fun hh => (stores_iff hg.store).1 hh hget
    rw [h, if_pos hkey, if_neg hheld, counters_setFlight]
    exact ⟨rfl, rfl⟩

/-- A new caller that is not answered at once waits for the load that its key is attached to. -/
theorem leaderOf?_of_lookup (hg : g.Ready) (hnew : caller ∉ g.callers)
    (hnone : g.atOnce? call = none) :
    ((g.lookup caller call.access call.key).flight call.access).leaderOf? caller =
      some ((g.flight call.access).attached caller call.key) := by
  have hboard := hg.seated.not_on_board hnew call.access
  obtain ⟨-, phase, hflight⟩ := lookup_waits hnew hnone
  rw [hflight, if_pos rfl, Flight.leaderOf?_call (hg.boards _), if_pos ⟨rfl, hboard⟩]

/-- A lookup moves no other caller. -/
theorem leaderOf?_lookup (hg : g.Ready) (hnew : caller ∉ g.callers) {c : ι} (hc : c ≠ caller)
    (a : Access) : ((g.lookup caller call.access call.key).flight a).leaderOf? c
      = (g.flight a).leaderOf? c := by
  cases honce : g.atOnce? call with
  | some o => rw [(lookup_at_once hnew honce).2]
  | none =>
    obtain ⟨-, phase, hflight⟩ := lookup_waits hnew honce
    rw [hflight]
    split
    next ha => rw [Flight.leaderOf?_call (hg.boards _), if_neg fun h => hc h.1, ha]
    next => rfl

end Lookup

/-! ## A caller in its place

A caller of a burst is answered at once or waits, and its call decides which: if it waits, then for
the one load that is in flight for the call. -/

/-- Immediate answers are only added to. -/
theorem immediate_step (g : Group ι) (e : Event ι) :
    ∃ rest, (g.step e).immediate = g.immediate ++ rest := by
  rcases g.lookup_or_akin e with ⟨caller, access, key, rfl⟩ | hakin
  · show ∃ rest, (g.lookup caller access key).immediate = g.immediate ++ rest
    rcases g.lookup_cases caller access key with
      ⟨-, h⟩ | ⟨-, -, h⟩ | ⟨value, -, -, -, h⟩ | ⟨-, -, -, h⟩
    · rw [h]
      exact ⟨[], (List.append_nil _).symm⟩
    · rw [h]
      exact ⟨_, rfl⟩
    · rw [h]
      exact ⟨_, rfl⟩
    · rw [h, immediate_setFlight]
      exact ⟨[], (List.append_nil _).symm⟩
  · exact ⟨[], hakin.immediate.trans (List.append_nil _).symm⟩

/-- Who was answered at once stays so. -/
theorem immediate?_step {g : Group ι} {caller : ι} {o : Outcome ByteView}
    (h : g.immediate? caller = some o) (e : Event ι) : (g.step e).immediate? caller = some o := by
  obtain ⟨rest, hrest⟩ := g.immediate_step e
  obtain ⟨a, ha, rfl⟩ := Option.map_eq_some_iff.1 h
  unfold immediate?
  rw [hrest, List.find?_append, ha]
  rfl

theorem immediate?_run {g : Group ι} {caller : ι} {o : Outcome ByteView}
    (h : g.immediate? caller = some o) (events : List (Event ι)) :
    (g.run events).immediate? caller = some o := by
  induction events generalizing g with
  | nil => exact h
  | cons e es ih => exact ih (immediate?_step h e)

/-- Where `caller` is in group `h`, having made `call` together with others in group `g`. -/
structure Seat (g h : Group ι) (caller : ι) (call : Call) : Prop where
  atOnce : ∀ o, g.atOnce? call = some o → h.immediate? caller = some o
  waits : g.atOnce? call = none → ∃ l,
    (h.flight call.access).markers.find? call.key = some l ∧
      (h.flight call.access).leaderOf? caller = some l

/-- A new caller gets the seat that its call is due. -/
theorem seat_lookup {g h : Group ι} (hh : h.Ready) {caller : ι} {call : Call}
    (hnew : caller ∉ h.callers) (hsame : h.atOnce? call = g.atOnce? call) :
    Seat g (h.lookup caller call.access call.key) caller call := by
  constructor
  · intro o ho
    rw [← hsame] at ho
    have hfirst : h.immediate.find? (fun a => a.1 = caller) = none := by
      refine List.find?_eq_none.2 ?_
      rintro ⟨c, o'⟩ hmem hc
      obtain rfl : c = caller := of_decide_eq_true hc
      exact hnew (hh.seated.apart c o' call.access hmem).1
    unfold immediate?
    rw [(lookup_at_once hnew ho).1, List.find?_append, hfirst]
    simp
  · intro hnone
    rw [← hsame] at hnone
    refine ⟨(h.flight call.access).attached caller call.key, ?_, leaderOf?_of_lookup hh hnew hnone⟩
    rw [find?_markers_lookup hh hnew, if_pos ⟨rfl, hnone⟩]

/-- The lookups of others leave a caller in its place. -/
theorem Seat.lookup {g h : Group ι} {c : ι} {call : Call} (hseat : Seat g h c call) (hh : h.Ready)
    {caller : ι} (hnew : caller ∉ h.callers) (hc : c ≠ caller) (d : Call) :
    Seat g (h.lookup caller d.access d.key) c call := by
  constructor
  · intro o ho
    exact immediate?_step (hseat.atOnce o ho) (.lookup caller d.access d.key)
  · intro hnone
    obtain ⟨l, hmark, hwait⟩ := hseat.waits hnone
    refine ⟨l, ?_, (leaderOf?_lookup hh hnew hc call.access).trans hwait⟩
    rw [find?_markers_lookup hh hnew]
    split
    next hd => rw [← hd.1, Flight.attached_of_marker hmark]
    next => exact hmark

/-! ## All lookups -/

/-- Group `h` is group `g` after the lookups of some calls. -/
structure After (g h : Group ι) (calls : List (ι × Call)) : Prop where
  callers : ∀ c, c ∈ h.callers ↔ c ∈ g.callers ∨ c ∈ calls.map Prod.fst
  stores : ∀ key, h.Stores key ↔ g.Stores key
  atOnce : ∀ d, h.atOnce? d = g.atOnce? d
  underway : ∀ d, h.Underway d ↔ g.Underway d ∨ (d ∈ calls.map Prod.snd ∧ g.Needs d)
  hits : h.counters.hits = g.counters.hits + calls.countP fun c => g.Stores c.2.key
  gets : h.counters.gets = g.counters.gets + calls.countP fun c => c.2.key ≠ ""
  seats : ∀ c ∈ calls, Seat g h c.1 c.2

theorem After.refl (g : Group ι) : After g g [] where
  callers := fun _ => (or_iff_left List.not_mem_nil).symm
  stores := fun _ => Iff.rfl
  atOnce := fun _ => rfl
  underway := fun _ => (or_iff_left fun h => List.not_mem_nil h.1).symm
  hits := rfl
  gets := rfl
  seats := fun _ hc => absurd hc List.not_mem_nil

/-- A call that is made again needs no load any more. -/
theorem After.needs_iff {g h : Group ι} {calls : List (ι × Call)} (hafter : After g h calls)
    (d : Call) : h.Needs d ↔ g.Needs d ∧ d ∉ calls.map Prod.snd := by
  have hunfold : ∀ k : Group ι, k.Needs d ↔ d.key ≠ "" ∧ ¬ k.Stores d.key ∧ ¬ k.Underway d :=
    fun _ => Iff.rfl
  rw [hunfold h, hafter.stores, hafter.underway, hunfold g]
  tauto

/-- One more call of a new caller. -/
theorem After.concat {g h : Group ι} {calls : List (ι × Call)} (hafter : After g h calls)
    (hh : h.Ready) {c : ι × Call} (hnew : c.1 ∉ h.callers) :
    After g (h.lookup c.1 c.2.access c.2.key) (calls ++ [c]) := by
  obtain ⟨hgets, hhits⟩ := counters_lookup hh hnew c.2
  refine ⟨fun x => ?_, fun key => ?_, fun d => ?_, fun d => ?_, ?_, ?_, ?_⟩
  · rw [List.map_append, List.mem_append, List.map_singleton, List.mem_singleton, ← or_assoc,
      ← hafter.callers x]
    refine ⟨mem_callers_lookup, ?_⟩
    have hlookup := h.callers_lookup c.1 c.2.access c.2.key
    rintro (hx | rfl)
    · exact hlookup.2 x hx
    · exact hlookup.1
  · exact (stores_lookup hh.store c.1 c.2.access c.2.key key).trans (hafter.stores key)
  · exact (atOnce?_lookup hh.store c.1 c.2.access c.2.key d).trans (hafter.atOnce d)
  · rw [underway_lookup hh hnew, hafter.underway, hafter.needs_iff, List.map_append,
      List.mem_append, List.map_singleton, List.mem_singleton]
    -- For this call a load is underway now, if it needed one; for the others nothing changes.
    by_cases hd : d = c.2
    · subst hd
      tauto
    · simp only [hd, false_and, or_false]
  · rw [hhits, hafter.hits, List.countP_append, List.countP_singleton, ← Nat.add_assoc]
    simp only [hafter.stores, decide_eq_true_eq]
  · rw [hgets, hafter.gets, List.countP_append, List.countP_singleton, ← Nat.add_assoc]
    simp only [decide_eq_true_eq]
  · intro x hx
    rcases List.mem_append.1 hx with hx | hx
    · refine (hafter.seats x hx).lookup hh hnew ?_ c.2
      -- The callers are different, so nobody is moved from the seat that it has.
      rintro heq
      rw [← heq] at hnew
      exact hnew ((hafter.callers x.1).2 (Or.inr (List.mem_map_of_mem hx)))
    · rw [List.mem_singleton.1 hx]
      exact seat_lookup hh hnew (hafter.atOnce c.2)

/-- The calls of a list that satisfy `p`, each once, when one more call is made. -/
theorem length_dedup_filter_concat (calls : List Call) (c : Call) (p : Call → Bool) :
    ((calls ++ [c]).filter p).dedup.length =
      (calls.filter p).dedup.length + if p c = true ∧ c ∉ calls then 1 else 0 := by
  by_cases hp : p c = true
  · have happend : (calls.filter p ++ [c]).toFinset = insert c (calls.filter p).toFinset := by
      ext x
      simp
    rw [List.filter_append, List.filter_cons_of_pos hp, List.filter_nil, ← List.card_toFinset,
      ← List.card_toFinset, happend]
    by_cases hc : c ∈ calls
    · have hmem : c ∈ (calls.filter p).toFinset :=
        List.mem_toFinset.2 (List.mem_filter.2 ⟨hc, hp⟩)
      rw [if_neg fun h => h.2 hc, Finset.insert_eq_of_mem hmem, Nat.add_zero]
    · have hmem : c ∉ (calls.filter p).toFinset := fun h =>
        hc (List.mem_filter.1 (List.mem_toFinset.1 h)).1
      rw [if_pos ⟨hp, hc⟩, Finset.card_insert_of_notMem hmem]
  · rw [List.filter_append, List.filter_cons_of_neg hp, List.filter_nil, List.append_nil,
      if_neg fun h => hp h.1, Nat.add_zero]

omit [DecidableEq ι] in
theorem together_concat (calls : List (ι × Call)) (c : ι × Call) :
    together (calls ++ [c]) = together calls ++ [.lookup c.1 c.2.access c.2.key] :=
  List.map_append

/-- The lookups of a burst, one after another. -/
theorem after_run {g : Group ι} (hg : g.Unused) (before : List (Event ι)) (calls : List (ι × Call))
    (hnew : ∀ c ∈ calls, c.1 ∉ (g.run before).callers) (hnodup : (calls.map Prod.fst).Nodup) :
    After (g.run before) ((g.run before).run (together calls)) calls ∧
      (ledger opens (g.run before) (together calls)).length =
        ((calls.map Prod.snd).filter fun c => (g.run before).Needs c).dedup.length := by
  -- By induction from the end: the last call finds the group as the others have left it.
  induction calls using List.reverseRecOn with
  | nil => exact ⟨After.refl _, rfl⟩
  | append_singleton calls c ih =>
    rw [List.map_append, List.map_singleton, List.nodup_append] at hnodup
    obtain ⟨hnodup, -, hapart⟩ := hnodup
    obtain ⟨hafter, hlength⟩ := ih (fun x hx => hnew x (List.mem_append_left _ hx)) hnodup
    have hready : ((g.run before).run (together calls)).Ready := by
      rw [← run_append]
      exact ready_run hg _
    have hfresh : c.1 ∉ ((g.run before).run (together calls)).callers := by
      rw [hafter.callers]
      rintro (hc | hc)
      · exact hnew c (List.mem_append_right _ (List.mem_singleton.2 rfl)) hc
      · exact hapart c.1 hc c.1 (List.mem_singleton.2 rfl) rfl
    -- It opens a load if it needs one that no earlier call has opened.
    have hopens : ((g.run before).run (together calls)).opens (.lookup c.1 c.2.access c.2.key) =
        if (g.run before).Needs c.2 ∧ c.2 ∉ calls.map Prod.snd then [(c.2.access, c.1)]
        else [] := by
      rw [opens_lookup hready hfresh]
      simp only [hafter.needs_iff]
    rw [together_concat, run_append, ledger_append, List.length_append, hlength]
    refine ⟨hafter.concat hready hfresh, ?_⟩
    rw [List.map_append, List.map_singleton, length_dedup_filter_concat]
    show _ + (((g.run before).run (together calls)).opens _ ++ []).length = _
    rw [List.append_nil, hopens]
    simp only [decide_eq_true_eq]
    split
    · rfl
    · rfl

/-! ## What comes of the callers -/

theorem answer?_of_immediate? {g : Group ι} {caller : ι} {o : Outcome ByteView}
    (h : g.immediate? caller = some o) (access : Access) : g.answer? access caller = some o := by
  unfold immediate? at h
  unfold answer?
  rw [h]

/-- A new caller that is answered at once keeps the answer. -/
theorem answer?_of_atOnce? {g : Group ι} (hg : g.Ready) {caller : ι} (hnew : caller ∉ g.callers)
    {access : Access} {key : String} {o : Outcome ByteView}
    (ho : g.atOnce? ⟨access, key⟩ = some o) (events : List (Event ι)) :
    ((g.lookup caller access key).run events).answer? access caller = some o := by
  let call : Call := ⟨access, key⟩
  have hseat : Seat g (g.lookup caller call.access call.key) caller call := seat_lookup hg hnew rfl
  exact answer?_of_immediate? (immediate?_run (hseat.atOnce o ho) events) access

/-- Who waits keeps waiting for the same load until it is answered, unless it gives up. -/
theorem waits_or_answered_run {g : Group ι} (hboards : ∀ access, Flight.Sound (g.flight access))
    {access : Access} {caller l : ι} {events : List (Event ι)}
    (hwait : (g.flight access).leaderOf? caller = some l ∨
      ∃ o, (g.flight access).answer? caller = some o)
    (hno : .abandon access caller ∉ events) :
    ((g.run events).flight access).leaderOf? caller = some l ∨
      ∃ o, ((g.run events).flight access).answer? caller = some o := by
  induction events generalizing g with
  | nil => exact hwait
  | cons e es ih =>
    refine ih (sound_flight_run hboards [e]) ?_ fun h => hno (List.mem_cons_of_mem e h)
    rcases g.flight_step_cases access e with ⟨-, hsame⟩ | ⟨b, hb, hstep⟩
    · rw [hsame]
      exact hwait
    · rw [hstep]
      rcases hwait with hwait | ⟨o, ho⟩
      · refine Flight.waits_or_answered (hboards access) hwait ?_
        rintro rfl
        rw [abandon_of_boardEvent? hb] at hno
        exact hno List.mem_cons_self
      · exact Or.inr ⟨o, Flight.answer?_step ho b⟩

theorem exists_answer?_of_board {g : Group ι} {access : Access} {caller : ι}
    (h : ∃ o, (g.flight access).answer? caller = some o) :
    ∃ o, g.answer? access caller = some o := by
  unfold answer?
  split
  · exact ⟨_, rfl⟩
  · exact h

/-- Whoever waits for a load that is not in flight can pick up its outcome. -/
theorem exists_answer?_deliver {g : Group ι} {access : Access}
    (hboard : Flight.Sound (g.flight access)) {caller l : ι} (hquiet : (access, l) ∉ g.inFlight)
    (hwait : (g.flight access).leaderOf? caller = some l ∨
      ∃ o, (g.flight access).answer? caller = some o) :
    ∃ o, (g.deliver access caller).answer? access caller = some o := by
  have hflight : (g.deliver access caller).flight access = (g.flight access).deliver caller :=
    flight_setFlight_self g access _
  refine exists_answer?_of_board ?_
  rw [hflight]
  rcases hwait with hwait | ⟨o, ho⟩
  · obtain ⟨-, x, hx⟩ := hboard.waits _ (Flight.leaderOf?_mem hwait)
    obtain ⟨leader, key, p⟩ := x
    obtain rfl : leader = l := Flight.leader_of_execution? hx
    cases p with
    | underway phase =>
      -- Then the load would be in flight.
      have hflies : (access, leader) ∈ g.inFlight :=
        (inFlight_iff_work? hboard leader).2 ⟨phase, Flight.work?_eq_some.2 ⟨key, hx⟩⟩
      exact absurd hflies hquiet
    | ended how =>
      have hanswer := Flight.answer?_deliver (g.flight access) caller caller
      rw [hwait, if_pos rfl, Option.bind_some, Flight.ending?_eq_some.2 ⟨key, hx⟩] at hanswer
      rw [hanswer]
      cases (g.flight access).answer? caller with
      | none => exact ⟨_, rfl⟩
      | some o => exact ⟨o, rfl⟩
  · exact ⟨o, Flight.answer?_step ho (.deliver caller)⟩

/-! ## The counters -/

/-- A load that is started in the second part of a run ends there once, or is still in flight. -/
theorem count_closed {g : Group ι} (hg : g.Orderly) (hnone : g.inFlight = [])
    (before after : List (Event ι)) {load : Load ι}
    (hopened : load ∈ ledger opens (g.run before) after) :
    ((ledger closes (g.run before) after).map Prod.fst).count load =
      if load ∈ (g.run (before ++ after)).inFlight then 0 else 1 := by
  have hfirst := loads_run hg hnone before
  have honce := opened_nodup g (before ++ after)
  have hloads := loads_run hg hnone (before ++ after)
  rw [ledger_append] at honce
  rw [ledger_append, ledger_append, List.map_append, List.append_assoc] at hloads
  -- the load was not there before, so it has not ended there either
  have hnot : load ∉ ledger opens g before := fun h =>
    List.disjoint_of_nodup_append honce h hopened
  have hearlier : ((ledger closes g before).map Prod.fst).count load = 0 :=
    List.count_eq_zero.2 fun h => hnot (hfirst.mem_iff.2 (List.mem_append_left _ h))
  have hone : (ledger opens g before ++ ledger opens (g.run before) after).count load = 1 :=
    List.count_eq_one_of_mem honce (List.mem_append_right _ hopened)
  have hcount := hloads.count_eq load
  rw [hone, List.count_append, hearlier, List.count_append, Nat.zero_add] at hcount
  have hnodup : (g.run (before ++ after)).inFlight.Nodup :=
    (List.nodup_append.1 (List.nodup_append.1 (hloads.nodup_iff.1 honce)).2.1).2.1
  split
  next hmem =>
    rw [List.count_eq_one_of_mem hnodup hmem] at hcount
    omega
  next hmem =>
    rw [List.count_eq_zero.2 hmem] at hcount
    omega

/-! ## Whole runs -/

/-- Calls that are made together on a group that any run has reached, each by a caller that has not
called before. -/
theorem run_together (name : String) (cacheBytes : Nat) (policy : RemotePolicy)
    (before : List (Event ι)) (calls : List (ι × Call))
    (hnew : ∀ c ∈ calls, c.1 ∉ (run (new name cacheBytes policy) before).callers)
    (hnodup : (calls.map Prod.fst).Nodup) :
    Burst (run (new name cacheBytes policy) before) calls := by
  have hg : (new name cacheBytes policy : Group ι).Unused :=
    unused_new name cacheBytes policy false
  obtain ⟨hafter, hlength⟩ := after_run hg before calls hnew hnodup
  have hlater : ∀ later, (run (new name cacheBytes policy) before).run (together calls ++ later) =
      run (new name cacheBytes policy) (before ++ together calls ++ later) := by
    intro later
    rw [List.append_assoc, run_append (new name cacheBytes policy) before]
  have hsplit := run_append (run (new name cacheBytes policy) before) (together calls)
  refine ⟨hlength, fun later load hload => ?_, hafter.hits, hafter.gets, ?_, ?_, ?_⟩
  · rw [← run_append]
    refine count_closed hg.orderly hg.inFlight before (together calls ++ later) ?_
    rw [ledger_append]
    exact List.mem_append_left _ hload
  · intro later caller₁ caller₂ call o₁ o₂ h₁ h₂ ho₁ ho₂
    have hseat₁ := hafter.seats _ h₁
    have hseat₂ := hafter.seats _ h₂
    cases honce : (run (new name cacheBytes policy) before).atOnce? call with
    | some o =>
      rw [hsplit, answer?_of_immediate? (immediate?_run (hseat₁.atOnce o honce) later)] at ho₁
      rw [hsplit, answer?_of_immediate? (immediate?_run (hseat₂.atOnce o honce) later)] at ho₂
      exact (Option.some.inj ho₁).symm.trans (Option.some.inj ho₂)
    | none =>
      -- both wait for the load that is in flight for the call
      obtain ⟨l, hmark, hwait₁⟩ := hseat₁.waits honce
      obtain ⟨l', hmark', hwait₂⟩ := hseat₂.waits honce
      obtain rfl : l = l' := Option.some.inj (hmark.symm.trans hmark')
      rw [← run_append] at hwait₁ hwait₂
      rw [hlater] at ho₁ ho₂
      obtain ⟨how₁, hend₁, rfl⟩ := ending_of_answer hg hwait₁ ho₁
      obtain ⟨how₂, hend₂, rfl⟩ := ending_of_answer hg hwait₂ ho₂
      rw [hend₁] at hend₂
      rw [Option.some.inj hend₂]
  · intro later caller call hmem hno hquiet
    have hseat := hafter.seats _ hmem
    cases honce : (run (new name cacheBytes policy) before).atOnce? call with
    | some o =>
      rw [hsplit]
      have himmediate :=
        immediate?_run (hseat.atOnce o honce) (later ++ [.deliver call.access caller])
      rw [run_append] at himmediate
      exact ⟨o, answer?_of_immediate? himmediate call.access⟩
    | none =>
      obtain ⟨l, -, hwait⟩ := hseat.waits honce
      have hready := ready_run hg (before ++ together calls)
      have hready' := ready_run hg (before ++ together calls ++ later)
      rw [run_append] at hready
      rw [← hlater] at hready'
      have hwaits := waits_or_answered_run hready.boards (Or.inl hwait) hno
      rw [← hsplit] at hwaits
      have hended : (call.access, l) ∉ (((run (new name cacheBytes policy) before).run
          (together calls ++ later))).inFlight := by
        rw [hquiet]
        exact List.not_mem_nil
      exact exists_answer?_deliver (hready'.boards call.access) hended hwaits
  · intro others hperm
    obtain ⟨hafter', hlength'⟩ := after_run hg before others
      (fun c hc => hnew c (hperm.mem_iff.1 hc)) ((hperm.map Prod.fst).nodup_iff.2 hnodup)
    refine ⟨?_, ?_, ?_⟩
    · rw [hlength, hlength']
      exact (((hperm.map Prod.snd).filter _).dedup).length_eq
    · rw [hafter.hits, hafter'.hits, hperm.countP_eq]
    · rw [hafter.gets, hafter'.gets, hperm.countP_eq]

/-- A group that holds one key and loads another one on the routed way. -/
def warmed : List (Event Nat) :=
  [.lookup 0 .routed "a", .start .routed 0 none, .sourceReply .routed 0 (.ok [1]),
    .deliver .routed 0, .lookup 1 .routed "b"]

/-- A hit, a caller that joins, two calls that need a load, one of them made twice, and a
refusal. -/
def mixed : List (Nat × Call) :=
  [(2, ⟨.routed, "a"⟩), (3, ⟨.routed, "b"⟩), (4, ⟨.direct, "b"⟩), (5, ⟨.routed, "c"⟩),
    (6, ⟨.routed, "c"⟩), (7, ⟨.direct, ""⟩)]

/-- A burst on a group that has one key stored and a load of another in flight. -/
theorem run_together_mixed :
    (∀ c ∈ mixed, c.1 ∉ (run (new "g" 64 .skip) warmed).callers) ∧
    (mixed.map Prod.fst).Nodup ∧
    Burst (run (new "g" 64 .skip) warmed) mixed ∧
    (ledger opens (run (new "g" 64 .skip) warmed) (together mixed)).length = 2 := by
  have hnew : ∀ c ∈ mixed, c.1 ∉ (run (new "g" 64 .skip) warmed).callers := by decide +kernel
  have hnodup : (mixed.map Prod.fst).Nodup := by decide +kernel
  have hburst := run_together "g" 64 .skip warmed mixed hnew hnodup
  refine ⟨hnew, hnodup, hburst, hburst.loads.trans ?_⟩
  decide +kernel

end Group

end PeerCache
