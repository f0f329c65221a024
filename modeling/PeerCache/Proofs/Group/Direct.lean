import PeerCache.Node.Request
import PeerCache.Proofs.Group.Alone
import PeerCache.Proofs.Group.Burst
/-!
# PeerCache — direct lookups

A direct lookup is answered by the store, or by the end of the load that its key is attached to:

* **`directly_cases`** — which of the two, and with what. An end that is no value is a failure of
  the source (**`ending_cases`**).
* **`directly_completing`** — one answer of the source ends the load, whatever has happened before,
  so nothing else is needed for an answer.
* **`store_of_failed`**, **`markers_of_answered`**, **`remote_of_own`** — what a lookup leaves
  behind when nothing happens but what is about its load.
-/

namespace PeerCache

namespace Group

variable {ι : Type} [DecidableEq ι]

/-! ## How loads end -/

/-- Every load that has ended has a value or was failed by the source. -/
def EndsPlainly (g : Group ι) : Prop :=
  ∀ access leader how, (g.flight access).ending? leader = some how →
    (∃ value, how = .value value) ∨ ∃ text, how.outcome = .error (.source text)

/-- An event ends loads by values and failures of the source only. -/
theorem EndsPlainly.step {g : Group ι} (h : g.EndsPlainly) (e : Event ι) :
    (g.step e).EndsPlainly := by
  intro access leader how hend
  rcases g.flight_step_cases access e with ⟨-, hsame⟩ | ⟨b, hb, hstep⟩
  · rw [hsame] at hend
    exact h access leader how hend
  · rw [hstep] at hend
    rcases Flight.ending?_step hend with hold | rfl
    · exact h access leader how hold
    · rcases boardEvent?_cases hb with
        ⟨_, _, _, _, heq⟩ | ⟨_, _, _, _, _, heq⟩ | ⟨_, _, _, _, _, _, _, heq⟩ | ⟨s, _, _, heq⟩ |
        ⟨_, _, text, _, heq⟩ | ⟨_, _, text, _, heq⟩ | ⟨_, ⟨_, heq⟩ | ⟨_, heq⟩⟩
      · cases heq
      · cases heq
      · cases heq
      · cases heq
        exact Or.inl ⟨⟨s.bytes⟩, rfl⟩
      · cases heq
        exact Or.inr ⟨text, rfl⟩
      · cases heq
        exact Or.inr ⟨_, rfl⟩
      · cases heq
      · cases heq

theorem endsPlainly_run {g : Group ι} (h : g.EndsPlainly) (events : List (Event ι)) :
    (g.run events).EndsPlainly := by
  induction events generalizing g with
  | nil => exact h
  | cons e es ih => exact ih (h.step e)

/-- A load ends by a value or is a failure of the source. -/
theorem ending_cases {g : Group ι} (hg : g.Unused) {events : List (Event ι)} {access : Access}
    {leader : ι} {how : Ending ByteView}
    (hend : ((g.run events).flight access).ending? leader = some how) :
    (∃ value, how = .value value) ∨ ∃ text, how.outcome = .error (.source text) := by
  have hplain : g.EndsPlainly := by
    intro a l w hw
    rw [hg.boards a] at hw
    cases hw
  exact endsPlainly_run hplain events access leader how hend

/-! ## What a direct lookup is answered -/

section Lookup

variable {g : Group ι} (hg : g.Unused) {before : List (Event ι)} {caller : ι}
  (hnew : caller ∉ (g.run before).callers) {key : String}

include hg hnew

/-- A direct lookup is answered by the store, or by the end of the load that it waits for. -/
theorem directly_cases (hkey : key ≠ "") {later : List (Event ι)} {o : Outcome ByteView}
    (ho : (g.run before).directly caller key later = some o) :
    (∃ value, ((g.run before).store.get key).2 = some value ∧ o = .ok value) ∨
    (((g.run before).store.get key).2 = none ∧ ∃ how,
      ((((g.run before).lookup caller .direct key).run later).flight .direct).ending?
        ((g.run before).direct.attached caller key) = some how ∧ o = how.outcome) := by
  have hk := ready_run hg before
  have honce : (g.run before).atOnce? ⟨.direct, key⟩ = ((g.run before).store.get key).2.map .ok :=
    atOnce?_of_ne hkey
  cases hget : ((g.run before).store.get key).2 with
  | some value =>
    -- A hit: the value is the answer at once, and no later event takes it back.
    left
    rw [hget] at honce
    exact ⟨value, rfl, Option.some.inj (ho.symm.trans (answer?_of_atOnce? hk hnew honce later))⟩
  | none =>
    -- A miss: the caller waits for a load, and is answered by how it ends.
    right
    rw [hget] at honce
    have hwait := leaderOf?_of_lookup hk hnew honce
    have hrun : (g.run before).lookup caller .direct key =
        g.run (before ++ [.lookup caller .direct key]) := run_lookup g before [] caller .direct key
    have ho : (((g.run before).lookup caller .direct key).run later).answer? .direct caller =
      some o :=
      ho
    have hwait : (((g.run before).lookup caller .direct key).flight .direct).leaderOf? caller =
        some ((g.run before).direct.attached caller key) := hwait
    rw [hrun] at hwait
    rw [hrun, ← run_append] at ho ⊢
    exact ⟨rfl, ending_of_answer hg hwait ho⟩

/-- A direct lookup fails as the source fails. -/
theorem directly_error (hkey : key ≠ "") {later : List (Event ι)} {e : CacheError}
    (he : (g.run before).directly caller key later = some (.error e)) :
    ∃ text, e = .source text := by
  rcases directly_cases hg hnew hkey he with ⟨value, -, h⟩ | ⟨-, how, hend, h⟩
  · cases h
  · rw [run_lookup] at hend
    rcases ending_cases hg hend with ⟨value, rfl⟩ | ⟨text, htext⟩
    · cases h
    · rw [htext] at h
      cases h
      exact ⟨text, rfl⟩

end Lookup

/-! ## One answer of the source -/

/-- A load of the direct board to which the source answers has ended. -/
theorem work?_of_reply {g : Group ι} (hlocal : g.StaysLocal) (leader : ι) (picked : Option String)
    (reply : Except String (List UInt8)) :
    (((g.start .direct leader picked).sourceReply .direct leader reply).flight
      .direct).work? leader =
      none := by
  -- A direct load has no router, so once it is started it is at the source.
  have hphase : ∀ phase, ((g.start .direct leader picked).flight .direct).work? leader =
      some phase → phase = .loading := by
    intro phase hwork
    rcases g.start_cases .direct leader picked with ⟨hno, h⟩ | ⟨router, hqueued, h⟩
    · rw [h] at hwork
      rcases hlocal leader phase hwork with rfl | rfl
      · exact absurd hwork (hno false)
      · rfl
    · rw [h, flight_setFlight_self, Flight.work?_advance hqueued] at hwork
      rcases hlocal leader _ hqueued with hrouter | hrouter
      · cases hrouter
        cases hwork
        rfl
      · cases hrouter
  generalize g.start .direct leader picked = h at hphase
  rcases h.sourceReply_cases .direct leader reply with
    ⟨hno, heq⟩ | ⟨key, bytes, hreq, -, heq⟩ | ⟨key, text, hreq, -, heq⟩
  · rw [heq]
    cases hwork : (h.flight .direct).work? leader with
    | none => rfl
    | some phase =>
      cases hphase phase hwork
      obtain ⟨key, hkey⟩ := key?_of_work? hwork
      exact absurd (request?_eq_source.2 ⟨hwork, hkey⟩) (hno key)
  · rw [heq, flight_setFlight_self]
    exact Flight.work?_of_ending? (Flight.ending?_finish (request?_eq_source.1 hreq).1 _)
  · rw [heq, flight_setFlight_self]
    exact Flight.work?_of_ending? (Flight.ending?_finish (request?_eq_source.1 hreq).1 _)

/-- With one answer of the source, whoever has made a direct lookup and has not given up has an
answer. -/
theorem directly_completing {g : Group ι} (hg : g.Unused) {before : List (Event ι)} {caller : ι}
    (hnew : caller ∉ (g.run before).callers) (key : String) {later : List (Event ι)}
    (hno : .abandon .direct caller ∉ later) (reply : Except String (List UInt8)) :
    (g.run before).directly caller key
      (later ++ completing ((g.run before).direct.attached caller key) caller reply) ≠ none := by
  have hk := ready_run hg before
  let leader := (g.run before).direct.attached caller key
  let front := later ++ [.start .direct leader none, .sourceReply .direct leader reply]
  have hfront : later ++ completing leader caller reply = front ++ [.deliver .direct caller] := by
    simp only [front, completing, List.append_assoc, List.cons_append, List.nil_append]
  show ((_ : Group ι).run (later ++ completing leader caller reply)).answer? .direct caller ≠ none
  cases honce : (g.run before).atOnce? ⟨.direct, key⟩ with
  | some o =>
    rw [answer?_of_atOnce? hk hnew honce]
    exact Option.some_ne_none o
  | none =>
    rw [hfront, run_append]
    generalize hm : (((g.run before).lookup caller .direct key).run front) = m
    show (m.deliver .direct caller).answer? .direct caller ≠ none
    have hready : m.Ready := by
      rw [← hm, run_lookup]
      exact ready_run hg _
    have hwait := leaderOf?_of_lookup hk hnew honce
    have hboards : ∀ access, Flight.Sound
        (((g.run before).lookup caller .direct key).flight access) := by
      intro access
      exact sound_flight_run hk.boards [.lookup caller .direct key] access
    have hquit : .abandon .direct caller ∉ front := by
      intro hmem
      rcases List.mem_append.1 hmem with hmem | hmem
      · exact hno hmem
      · simp at hmem
    have hwaits := waits_or_answered_run hboards (Or.inl hwait) hquit
    -- Started and answered, the load is not in flight; and the caller, who has not given up, still
    -- waits for it.
    have hended : (.direct, leader) ∉ m.inFlight := by
      have hlocal : (((g.run before).lookup caller .direct key).run later).StaysLocal := by
        rw [run_lookup]
        exact (fed_run hg.fed _).staysLocal
      intro hmem
      obtain ⟨phase, hwork⟩ := (inFlight_iff_work? (hready.boards .direct) leader).1 hmem
      have hnone := work?_of_reply hlocal leader none reply
      rw [← hm, run_append] at hwork
      cases hnone.symm.trans hwork
    rw [hm] at hwaits
    obtain ⟨o, ho⟩ := exists_answer?_deliver (hready.boards .direct) hended hwaits
    rw [ho]
    exact Option.some_ne_none o

/-! ## What a lookup leaves behind -/

/-- A load of a direct board asks no peer. -/
theorem StaysLocal.isRemote {g : Group ι} (h : g.StaysLocal) {leader : ι} {request : Request}
    (hreq : g.request? .direct leader = some request) : request.isRemote = false := by
  cases request with
  | source key => rfl
  | peer address group key =>
    rcases h leader _ (request?_eq_peer.1 hreq).1 with hphase | hphase
    · cases hphase
    · cases hphase

/-- The markers after some own events were there before. -/
theorem Course.markers_subset {g : Group ι} {access : Access} {leader : ι}
    {events : List (Event ι)} (h : Course g access leader events) (a : Access) {key : String}
    {l : ι}
    (hmark : ((g.run events).flight a).markers.find? key = some l) :
    (g.flight a).markers.find? key = some l := by
  -- Whichever way it has ended, the load has taken one marker away and set none.
  have hended : ((g.flight access).work? leader).isSome = true →
      (∀ a k, (g.flight access).key? leader = some k → ((g.run events).flight a).markers =
        if a = access then (g.flight a).markers.erase k else (g.flight a).markers) →
      (g.flight a).markers.find? key = some l := by
    intro hwork hmarkers
    obtain ⟨phase, hphase⟩ := Option.isSome_iff_exists.1 hwork
    obtain ⟨k, hk⟩ := key?_of_work? hphase
    rw [hmarkers a k hk] at hmark
    split at hmark
    next =>
      rw [Table.find?_erase] at hmark
      split at hmark
      next => cases hmark
      next => exact hmark
    next => exact hmark
  cases h with
  | on fruitless closes rebuffs markers work =>
    rw [markers] at hmark
    exact hmark
  | failed how closing event mem fails fruitless closes markers work ending =>
    exact hended work markers
  | gained value markers work ending => exact hended work markers

/-- A load that has ended has lost its marker. -/
theorem Course.marker_of_ended {g : Group ι} {access : Access} {leader : ι}
    {events : List (Event ι)} (h : Course g access leader events) {key : String}
    (hkey : (g.flight access).key? leader = some key)
    (hwork : (g.flight access).work? leader ≠ none)
    {how : Ending ByteView} (hend : ((g.run events).flight access).ending? leader = some how) :
    ((g.run events).flight access).markers.find? key = none := by
  cases h with
  | on fruitless closes rebuffs markers work =>
    exact absurd (Flight.work?_eq_none_of_ending? work hend) hwork
  | failed how closing event mem fails fruitless closes markers work ending =>
    rw [markers access key hkey, if_pos rfl, Table.find?_erase_self]
  | gained value markers work ending =>
    rw [markers access key hkey, if_pos rfl, Table.find?_erase_self]

section Own

variable {g : Group ι} (hg : g.Unused) {before : List (Event ι)} {caller : ι}
  (hnew : caller ∉ (g.run before).callers) {key : String} (hkey : key ≠ "") {own : List (Event ι)}
  (hown : ∀ e ∈ own, e.IsOwn .direct ((g.run before).direct.attached caller key) caller)

include hg hnew hkey

/-! ## A call and its own events -/

/-- After a lookup that misses, the load that its key is attached to is in flight for the key. -/
theorem load_of_lookup (hget : ((g.run before).store.get key).2 = none) :
    (((g.run before).lookup caller .direct key).flight .direct).markers.find? key =
      some ((g.run before).direct.attached caller key) ∧
    (((g.run before).lookup caller .direct key).flight .direct).key?
      ((g.run before).direct.attached caller key) = some key ∧
    (((g.run before).lookup caller .direct key).flight .direct).work?
      ((g.run before).direct.attached caller key) ≠ none := by
  have hk := ready_run hg before
  let call : Call := ⟨.direct, key⟩
  have honce : (g.run before).atOnce? call = none := by
    rw [atOnce?_of_ne hkey, hget]
    rfl
  have hlookup : (((g.run before).lookup caller call.access call.key).flight
      call.access).markers.find? call.key = _ := find?_markers_lookup hk hnew call
  have hmark : (((g.run before).lookup caller .direct key).flight .direct).markers.find? key =
      some ((g.run before).direct.attached caller key) := hlookup.trans (if_pos ⟨rfl, honce⟩)
  have hboard : Flight.Sound (((g.run before).lookup caller .direct key).flight .direct) :=
    sound_flight_run hk.boards [.lookup caller .direct key] .direct
  obtain ⟨phase, hx⟩ := (hboard.marked _ _).1 hmark
  refine ⟨hmark, Option.map_eq_some_iff.2 ⟨_, hx, rfl⟩, ?_⟩
  rw [Flight.work?_eq_some.2 ⟨key, hx⟩]
  exact Option.some_ne_none phase

include hown

/-- A lookup that fails has put nothing into the cache. -/
theorem store_of_failed {e : CacheError}
    (he : (g.run before).directly caller key own = some (.error e)) :
    (((g.run before).lookup caller .direct key).run own).store = (g.run before).store ∧
      (((g.run before).lookup caller .direct key).run own).evicted = (g.run before).evicted := by
  rcases directly_cases hg hnew hkey he with ⟨value, -, h⟩ | ⟨hget, how, hend, h⟩
  · cases h
  · have hlookup : ((g.run before).lookup caller .direct key).store = (g.run before).store ∧
        ((g.run before).lookup caller .direct key).evicted = (g.run before).evicted := by
      rcases (g.run before).lookup_cases caller .direct key with
        ⟨hcalled, -⟩ | ⟨-, hempty, -⟩ | ⟨value, -, -, hhit, -⟩ | ⟨-, -, -, hmiss⟩
      · exact absurd hcalled hnew
      · exact absurd hempty hkey
      · cases hget.symm.trans hhit
      · rw [hmiss, store_setFlight, (ready_run hg before).store.get_of_miss hget]
        exact ⟨rfl, rfl⟩
    obtain ⟨-, -, hwork⟩ := load_of_lookup hg hnew hkey hget
    have hcourse : Course ((g.run before).lookup caller .direct key) .direct
        ((g.run before).direct.attached caller key) own := course_run hown
    -- The load has ended, and not by a value: so it has failed, which keeps nothing.
    cases hcourse with
    | on fruitless closes rebuffs markers work =>
      exact absurd (Flight.work?_eq_none_of_ending? work hend) hwork
    | gained value markers work ending =>
      cases ending.symm.trans hend
      cases h
    | failed how' closing event mem fails fruitless closes markers work ending =>
      exact ⟨fruitless.store.trans hlookup.1, fruitless.evicted.trans hlookup.2⟩

/-- A lookup that is answered has left no key in flight. -/
theorem markers_of_answered {o : Outcome ByteView}
    (ho : (g.run before).directly caller key own = some o) {k : String} {leader : ι}
    (hmark : ((((g.run before).lookup caller .direct key).run own).flight .direct).markers.find? k =
      some leader) : (g.run before).direct.markers.find? k = some leader := by
  have hk := ready_run hg before
  let call : Call := ⟨.direct, key⟩
  have hcourse : Course ((g.run before).lookup caller .direct key) .direct
      ((g.run before).direct.attached caller key) own := course_run hown
  have hafter := hcourse.markers_subset .direct hmark
  have hlookup :
      (((g.run before).lookup caller call.access call.key).flight .direct).markers.find? k =
      if (⟨.direct, k⟩ : Call) = call ∧ (g.run before).atOnce? call = none then
        some ((g.run before).direct.attached caller key)
      else (g.run before).direct.markers.find? k :=
    find?_markers_lookup hk hnew ⟨.direct, k⟩
  have hafter := hlookup.symm.trans hafter
  split at hafter
  next hlooked =>
    -- the key is the one that was looked up, and its load has ended
    obtain ⟨hsame, honce⟩ := hlooked
    obtain rfl : k = key := congrArg Call.key hsame
    rcases directly_cases hg hnew hkey ho with ⟨value, hget, -⟩ | ⟨hget, how, hend, -⟩
    · rw [atOnce?_of_ne hkey, hget] at honce
      cases honce
    · obtain ⟨-, hfor, hwork⟩ := load_of_lookup hg hnew hkey hget
      cases (hcourse.marker_of_ended hfor hwork hend).symm.trans hmark
  next => exact hafter

omit hnew hkey in
/-- A lookup of which nothing has happened but what is its own makes nobody wait for a peer. -/
theorem remote_of_own {access : Access} {leader : ι} {request : Request}
    (hreq : (((g.run before).lookup caller .direct key).run own).request? access leader =
      some request) (hremote : request.isRemote = true) :
    (g.run before).request? access leader = some request := by
  cases access with
  | direct =>
    have hlocal : (((g.run before).lookup caller .direct key).run own).StaysLocal := by
      rw [run_lookup]
      exact (fed_run hg.fed _).staysLocal
    rw [hlocal.isRemote hreq] at hremote
    cases hremote
  | routed =>
    have haside : Aside .direct (g.run before)
        (((g.run before).lookup caller .direct key).run own) :=
      (aside_lookup _ caller .direct key).trans (aside_run hown)
    have hother := haside.other .routed (by decide)
    unfold request? at hreq ⊢
    rw [hother, haside.name] at hreq
    exact hreq

end Own

end Group

end PeerCache
