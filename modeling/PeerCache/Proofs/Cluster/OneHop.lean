import Mathlib.Logic.Relation
import PeerCache.Cluster.Waiting
import PeerCache.Proofs.Cluster.RemoteValue
/-!
# PeerCache — one hop

A lookup goes to one other node at most, and nobody waits for itself, whatever the nodes take each
other to be:

* **`Local`** — questions are on direct boards only, and a direct board asks nobody.
* **`Hops`** — each question is one that a load of a routed board has asked, and no load has asked
  two.

The last section has the result for whole runs: a load that a question waits for asks nobody.
-/

namespace PeerCache

/-! ## One group -/

namespace Group

/-- What a question looks up here goes nowhere else. -/
structure Local (g : Group Caller) : Prop where
  sound : ∀ access, Flight.Sound (g.flight access)
  staysLocal : g.StaysLocal
  clients : ∀ q : Nat, .question q ∉ (g.flight .routed).callers

/-- In a new group no question has looked anything up. -/
theorem local_new (name : String) (cacheBytes : Nat) (policy : RemotePolicy) (hasRouter : Bool) :
    Local { (new name cacheBytes policy : Group Caller) with hasRouter := hasRouter } := by
  have hunused := unused_new (ι := Caller) name cacheBytes policy hasRouter
  refine ⟨fun access => ?_, hunused.fed.staysLocal, fun q hq => ?_⟩
  · rw [hunused.boards access]
    exact Flight.sound_empty
  · rw [hunused.boards .routed] at hq
    cases hq

/-- Questions that are looked up directly, and in no other way, go nowhere else in a whole run. -/
theorem Local.run {g : Group Caller} (h : g.Local) {events : List (Event Caller)}
    (hdirect : ∀ q access key, .lookup (.question q) access key ∈ events → access = .direct) :
    (g.run events).Local := by
  induction events generalizing g with
  | nil => exact h
  | cons e es ih =>
    refine ih ⟨fun access => ?_, staysLocal_step h.staysLocal e, fun q hq => ?_⟩
      fun q access key hmem => hdirect q access key (List.mem_cons_of_mem e hmem)
    · rw [flight_step]
      exact Flight.sound_run (h.sound access) _
    · rcases mem_callers_flight_step hq with hold | ⟨key, rfl, -⟩
      · exact h.clients q hold
      · cases hdirect q .routed key List.mem_cons_self

/-- Only a client's load of the routed board asks a peer. -/
theorem Local.asking {g : Group Caller} (h : g.Local) {access : Access} {leader : Caller}
    {baseUrl : String} (hwork : (g.flight access).work? leader = some (.asking baseUrl)) :
    access = .routed ∧ ∃ n, leader = .client n := by
  cases access with
  | direct =>
    rcases h.staysLocal leader _ hwork with hphase | hphase
    · cases hphase
    · cases hphase
  | routed =>
    refine ⟨rfl, ?_⟩
    obtain ⟨key, hx⟩ := Flight.work?_eq_some.1 hwork
    have hcalled := (h.sound .routed).called _ (Flight.mem_of_execution? hx)
    cases leader with
    | client n => exact ⟨n, rfl⟩
    | question q => exact absurd hcalled (h.clients q)

/-- A question waits on the direct board. -/
theorem Local.direct_of_waiting {g : Group Caller} (h : g.Local) {access : Access} {q : Nat}
    {leader : Caller} (hwait : (g.flight access).leaderOf? (.question q) = some leader) :
    access = .direct := by
  cases access with
  | direct => rfl
  | routed =>
    obtain ⟨key, hbound⟩ := (h.sound .routed).bound_of_waiting hwait
    exact absurd hbound.called (h.clients q)

end Group

namespace Cluster

variable {c : Cluster} {e : Event} {fs : List Effect} {questions : List Question}

/-! ## The questions of an event -/

/-- Only a direct lookup is made for a question. -/
theorem Move.direct_of_question (h : Move c e fs questions) {i : Nat} {name : String} {q : Nat}
    {access : Access} {key : String} (hf : ⟨i, name, .lookup (.question q) access key⟩ ∈ fs) :
    access = .direct := by
  rcases h.effect_cases hf with
    hquiet | ⟨j, n, a, client, k, -, heq, -⟩ |
      ⟨p, j, l, url, n, pool, name', k, -, -, -, -, -, heq, -⟩ |
      ⟨l, reply, -, heq, -⟩ | ⟨l, reply, -, heq⟩ | ⟨p, l, url, j, inquiry, g, o, -, -, -, -, heq, -⟩
  · exact hquiet.elim
  · cases heq
  · cases heq
    rfl
  · cases heq
  · cases heq
  · cases heq

theorem load_modify_stage (xs : List Question) (q : Nat) (s : Stage) :
    (xs.modify q fun x => { x with stage := s }).map Question.load = xs.map Question.load := by
  refine List.ext_getElem? fun i => ?_
  rw [List.getElem?_map, List.getElem?_map, List.getElem?_modify, Option.map_eq_map,
    Option.map_map]
  refine congrFun (congrArg Option.map (funext fun x => ?_)) _
  show (if q = i then { x with stage := s } else x : Question).load = x.load
  split
  · rfl
  · rfl

/-- An event leaves the loads of all questions as they are, or a load that was queued asks one
more. -/
theorem loads_step (c : Cluster) (e : Event) :
    (c.step e).questions.map Question.load = c.questions.map Question.load ∨
    ∃ l, (∃ key router, c.load? l = some (key, .queued router)) ∧
      (∃ key baseUrl, (c.step e).load? l = some (key, .asking baseUrl)) ∧
      (c.step e).questions.map Question.load = c.questions.map Question.load ++ [l] := by
  rcases c.move_step e with ⟨i, peers, rfl⟩ | ⟨fs, questions, hmove, hstep⟩
  · exact Or.inl rfl
  · have hquestions : (c.step e).questions = questions := by
      rw [hstep]
      exact (applied_frame { c with questions := questions } fs).1
    rw [hquestions]
    -- Only asking adds a question; the others change a stage at most.
    cases hmove with
    | ask l picked queued pool load request =>
      have hasking := (congrArg (fun d => load? d l) hstep).trans (load?_moved c _ _ l)
      exact Or.inr ⟨l, ⟨_, _, queued⟩, ⟨_, _, hasking.trans load⟩, List.map_append⟩
    | lose q => exact Or.inl (load_modify_stage _ q _)
    | refuse q => exact Or.inl (load_modify_stage _ q _)
    | serve q => exact Or.inl (load_modify_stage _ q _)
    | respond q => exact Or.inl (load_modify_stage _ q _)
    | idle => exact Or.inl rfl
    | lookup => exact Or.inl rfl
    | start => exact Or.inl rfl
    | unsent => exact Or.inl rfl
    | foreign => exact Or.inl rfl
    | source => exact Or.inl rfl
    | panic => exact Or.inl rfl
    | deliver => exact Or.inl rfl
    | abandon => exact Or.inl rfl

/-! ## The invariant -/

/-- The load has asked a peer, as a client's load of the routed board. -/
structure HasAsked (c : Cluster) (l : LoadId) : Prop where
  access : l.access = .routed
  client : ∃ n, l.leader = .client n
  asked : ∃ g baseUrl key, c.group? l.node l.group = some g ∧
    g.Asked l.access l.leader baseUrl key

/-- Every question is one that its load has asked, and no load has asked two. -/
structure Hops (c : Cluster) : Prop where
  groups : ∀ i name g, c.group? i name = some g → g.Local
  asked : ∀ l ∈ c.questions.map Question.load, c.HasAsked l
  once : (c.questions.map Question.load).Nodup

/-- Before anything is asked, no load has asked. -/
theorem Unasked.hops (h : c.Unasked) : c.Hops where
  groups := by
    intro i name g hgroup
    obtain ⟨n, hn, hfind⟩ := Option.bind_eq_some_iff.1 hgroup
    obtain ⟨cacheBytes, policy, hasRouter, rfl⟩ :=
      h.groups n (List.mem_of_getElem? hn) name g hfind
    exact Group.local_new name cacheBytes policy hasRouter
  asked := by
    rw [h.questions]
    exact fun l hl => absurd hl List.not_mem_nil
  once := by
    rw [h.questions]
    exact List.nodup_nil

/-- No event sends the lookup of a question on. -/
theorem local_step (h : ∀ i name g, c.group? i name = some g → g.Local) (e : Event) :
    ∀ i name g, (c.step e).group? i name = some g → g.Local := by
  intro i name g hgroup
  rcases c.move_step e with ⟨j, peers, rfl⟩ | ⟨fs, questions, hmove, hstep⟩
  · rw [show (c.step (.setPeers j peers)).group? i name = c.group? i name from
      c.group?_updateNode j i name fun n => rfl] at hgroup
    exact h i name g hgroup
  · rw [hstep] at hgroup
    obtain ⟨g₀, hg₀, rfl⟩ :=
      Option.map_eq_some_iff.1 ((group?_applied _ fs i name).symm.trans hgroup)
    exact (h i name g₀ hg₀).run fun q access key hmem =>
      hmove.direct_of_question (mem_eventsAt.1 hmem)

/-- What a load has asked it has asked for good. -/
theorem HasAsked.step {l : LoadId} (h : c.HasAsked l) (e : Event) : (c.step e).HasAsked l := by
  obtain ⟨g, baseUrl, key, hgroup, hasked⟩ := h.asked
  obtain ⟨g', hgroup', hasked'⟩ := asked_step e hgroup hasked
  exact ⟨h.access, h.client, g', baseUrl, key, hgroup', hasked'⟩

/-- A load that waits for a peer has asked it. -/
theorem hasAsked_of_load? (h : ∀ i name g, c.group? i name = some g → g.Local) {l : LoadId}
    {key baseUrl : String} (hload : c.load? l = some (key, .asking baseUrl)) : c.HasAsked l := by
  obtain ⟨g, hgroup, hreq, hasked⟩ := asked_of_load? hload
  obtain ⟨haccess, hclient⟩ := (h _ _ g hgroup).asking (Group.request?_eq_peer.1 hreq).1
  exact ⟨haccess, hclient, g, baseUrl, key, hgroup, hasked⟩

/-- A load that has asked is queued no more. -/
theorem HasAsked.not_queued {l : LoadId} (h : c.HasAsked l) {key : String} {router : Bool} :
    c.load? l ≠ some (key, .queued router) := by
  intro hload
  obtain ⟨g, baseUrl, k, hgroup, hasked⟩ := h.asked
  obtain ⟨g', hgroup', hrest⟩ := Option.bind_eq_some_iff.1 hload
  rw [hgroup] at hgroup'
  cases hgroup'
  obtain ⟨phase, hwork, hrest⟩ := Option.bind_eq_some_iff.1 hrest
  obtain ⟨k', -, heq⟩ := Option.bind_eq_some_iff.1 hrest
  cases heq
  rcases hasked.phase _ hwork with hphase | hphase
  · cases hphase
  · cases hphase

/-- An event keeps questions and loads one to one: only a load that goes on asks, and it has not
asked before. -/
theorem Hops.step (h : c.Hops) (e : Event) : (c.step e).Hops := by
  have hlocal := local_step h.groups e
  rcases c.loads_step e with hsame | ⟨l, ⟨key, router, hqueued⟩, ⟨k, baseUrl, hasking⟩, hmore⟩
  · refine ⟨hlocal, ?_, ?_⟩
    · rw [hsame]
      exact fun l hl => (h.asked l hl).step e
    · rw [hsame]
      exact h.once
  · refine ⟨hlocal, ?_, ?_⟩
    · rw [hmore]
      intro m hm
      rcases List.mem_append.1 hm with hm | hm
      · exact (h.asked m hm).step e
      · rw [List.mem_singleton.1 hm]
        exact hasAsked_of_load? hlocal hasking
    · rw [hmore]
      refine List.nodup_append.2 ⟨h.once, List.nodup_singleton l, ?_⟩
      rintro m hm _ hl rfl
      rw [List.mem_singleton.1 hl] at hm
      exact (h.asked l hm).not_queued hqueued

theorem Hops.run (h : c.Hops) (events : List Event) : (c.run events).Hops := by
  induction events generalizing c with
  | nil => exact h
  | cons e es ih => exact ih (h.step e)

/-! ## Who waits -/

/-- A question waits for a load of a direct board. -/
theorem Hops.direct_of_waits (h : c.Hops) {l : LoadId} {q : Nat}
    (hwaits : c.waits l (.question q) = true) : l.access = .direct := by
  obtain ⟨g, hgroup, hwait⟩ := Option.bind_eq_some_iff.1 (of_decide_eq_true hwaits)
  exact (h.groups _ _ g hgroup).direct_of_waiting hwait

/-- A load of a direct board has asked nobody. -/
theorem HasAsked.not_direct {l : LoadId} (h : c.HasAsked l) : l.access ≠ .direct := by
  rw [h.access]
  decide

/-- A load that another one waits for waits for none. -/
theorem Hops.last (h : c.Hops) {l m n : LoadId} (hlm : c.WaitsFor l m) : ¬ c.WaitsFor m n := by
  intro hmn
  obtain ⟨q, x, -, -, -, hwaits⟩ := hlm.question
  obtain ⟨key, baseUrl, hload⟩ := hmn.asks
  exact (hasAsked_of_load? h.groups hload).not_direct (h.direct_of_waits hwaits)

/-- A node that serves questions asks none on their account, over every run of a cluster whose
nodes may take anybody for a peer. Only a load that a client's routed lookup has started ever asks,
and it asks once; a load that a question waits for is direct, and neither waits for a peer nor has
asked one. Hence no load waits for a load that waits for another one, and none waits for itself. -/
theorem run_one_hop (hc : c.Unasked) (events : List Event) :
    (∀ x ∈ (c.run events).questions, x.load.access = .routed ∧ ∃ n, x.load.leader = .client n) ∧
    ((c.run events).questions.map Question.load).Nodup ∧
    (∀ l key baseUrl, (c.run events).load? l = some (key, .asking baseUrl) →
      l.access = .routed ∧ ∃ n, l.leader = .client n) ∧
    (∀ l q, (c.run events).waits l (.question q) = true → l.access = .direct ∧
      (∀ key baseUrl, (c.run events).load? l ≠ some (key, .asking baseUrl)) ∧
      ∀ x ∈ (c.run events).questions, x.load ≠ l) ∧
    (∀ l m n, (c.run events).WaitsFor l m → ¬ (c.run events).WaitsFor m n) ∧
    ∀ l, ¬ Relation.TransGen (c.run events).WaitsFor l l := by
  have h := hc.hops.run events
  refine ⟨fun x hx => ?_, h.once, fun l key baseUrl hload => ?_, fun l q hwaits => ⟨?_, ?_, ?_⟩,
    fun l m n => h.last, fun l hl => ?_⟩
  · have hasked := h.asked _ (List.mem_map_of_mem hx)
    exact ⟨hasked.access, hasked.client⟩
  · have hasked := hasAsked_of_load? h.groups hload
    exact ⟨hasked.access, hasked.client⟩
  · exact h.direct_of_waits hwaits
  · exact fun key baseUrl hload =>
      (hasAsked_of_load? h.groups hload).not_direct (h.direct_of_waits hwaits)
  · rintro x hx rfl
    exact (h.asked _ (List.mem_map_of_mem hx)).not_direct (h.direct_of_waits hwaits)
  · -- a cycle has a first edge and one that goes on from it
    obtain ⟨m, hlm, hml⟩ := Relation.TransGen.head'_iff.1 hl
    rcases Relation.ReflTransGen.cases_head hml with rfl | ⟨n, hmn, -⟩
    · exact h.last hlm hlm
    · exact h.last hlm hmn

/-! ### Two nodes that ask each other -/

/-- Two nodes of which each takes the other for the owner of everything. -/
def crossed : Cluster where
  nodes := [
    nodeAt "http://[::1]:8001" ["http://[::1]:8002"] true,
    nodeAt "http://[::1]:8002" ["http://[::1]:8001"] true]
  questions := []

/-- A client of either node asks for one key, and the question of each comes to the other. -/
def bothAsk : List Event := [
  .lookup 0 "g" .routed 0 "k",
  .lookup 1 "g" .routed 0 "k",
  .start ⟨0, "g", .routed, .client 0⟩ none,
  .start ⟨1, "g", .routed, .client 0⟩ none,
  .arrive 0 1,
  .arrive 1 0]

theorem unasked_crossed : crossed.Unasked where
  questions := rfl
  groups := by
    intro n hn
    rcases List.mem_cons.1 hn with rfl | hn
    · exact (fresh_nodeAt _ _ _).groups
    · rw [List.mem_singleton.1 hn]
      exact (fresh_nodeAt _ _ _).groups

/-- That a load waits for another one by some question can be computed. -/
theorem waitsFor_of_question {l m : LoadId} (q : Nat) (key baseUrl : String) (load : String × Phase)
    (h : c.load? l = some (key, .asking baseUrl) ∧
      (c.questions[q]?.any fun x => x.load = l ∧ x.stage ≠ .closed) = true ∧
      c.waits m (.question q) = true ∧ c.load? m = some load) : c.WaitsFor l m := by
  obtain ⟨hasks, hquestion, hwaits, hload⟩ := h
  obtain ⟨x, hx, hopen⟩ := (Option.any_eq_true _ _).1 hquestion
  obtain ⟨hl, hstage⟩ := of_decide_eq_true hopen
  exact ⟨⟨key, baseUrl, hasks⟩, ⟨q, x, hx, hl, hstage, hwaits⟩, load.1, load.2, hload⟩

/-- Each client's load waits for a load of the other node, and these two wait for no other. -/
theorem one_hop_crossed :
    (crossed.run bothAsk).WaitsFor ⟨0, "g", .routed, .client 0⟩ ⟨1, "g", .direct, .question 0⟩ ∧
    (crossed.run bothAsk).WaitsFor ⟨1, "g", .routed, .client 0⟩ ⟨0, "g", .direct, .question 1⟩ ∧
    (∀ l, ¬ (crossed.run bothAsk).WaitsFor ⟨1, "g", .direct, .question 0⟩ l) ∧
    (∀ l, ¬ (crossed.run bothAsk).WaitsFor ⟨0, "g", .direct, .question 1⟩ l) ∧
    ∀ l, ¬ Relation.TransGen (crossed.run bothAsk).WaitsFor l l := by
  have hfirst : (crossed.run bothAsk).WaitsFor ⟨0, "g", .routed, .client 0⟩
      ⟨1, "g", .direct, .question 0⟩ :=
    waitsFor_of_question 0 "k" "http://[::1]:8002/_distributed_cache/" ("k", .queued false)
      (by decide +kernel)
  have hsecond : (crossed.run bothAsk).WaitsFor ⟨1, "g", .routed, .client 0⟩
      ⟨0, "g", .direct, .question 1⟩ :=
    waitsFor_of_question 1 "k" "http://[::1]:8001/_distributed_cache/" ("k", .queued false)
      (by decide +kernel)
  obtain ⟨-, -, -, -, hlast, hcycle⟩ := run_one_hop unasked_crossed bothAsk
  exact ⟨hfirst, hsecond, fun l => hlast _ _ l hfirst, fun l => hlast _ _ l hsecond, hcycle⟩

end Cluster

end PeerCache
