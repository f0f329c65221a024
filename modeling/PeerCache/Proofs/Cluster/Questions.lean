import Mathlib.Data.List.Induction
import PeerCache.Proofs.Cluster.Moves
import PeerCache.Proofs.Group.Remote
/-!
# PeerCache — the questions of a cluster

A question is what one load asks for and what one node looks up, and both hold on to it:

* **`Sound`** — every question is the request of its load, for the peer and the key that the load
  has asked for, and a node that serves it looks it up directly.
* **`Account`** — a run of the cluster from the point of view of one group: the group's own events,
  of which every lookup for a question is for the key that the question's URL names, and all that
  they produce.
-/

namespace PeerCache

namespace Cluster

/-! ## Groups of a run -/

/-- A group takes the events that are its own. -/
theorem group?_step (c : Cluster) (e : Event) (i : Nat) (name : String) :
    ∃ es, (c.step e).group? i name = (c.group? i name).map fun g => g.run es := by
  rcases c.move_step e with ⟨j, peers, rfl⟩ | ⟨fs, questions, -, hstep⟩
  · refine ⟨[], ?_⟩
    have hsame : (c.step (.setPeers j peers)).group? i name = c.group? i name :=
      c.group?_updateNode j i name fun n => rfl
    rw [hsame]
    exact Option.map_id'.symm
  · refine ⟨eventsAt i name fs, ?_⟩
    rw [hstep]
    exact group?_applied _ fs i name

/-- A run of a cluster is, for each of its groups, a run of the group. -/
theorem group?_run (c : Cluster) (events : List Event) (i : Nat) (name : String) :
    ∃ es, (c.run events).group? i name = (c.group? i name).map fun g => g.run es := by
  induction events generalizing c with
  | nil => exact ⟨[], Option.map_id'.symm⟩
  | cons e es ih =>
    obtain ⟨first, hfirst⟩ := c.group?_step e i name
    obtain ⟨rest, hrest⟩ := ih (c.step e)
    refine ⟨first ++ rest, ?_⟩
    show ((c.step e).run es).group? i name = _
    rw [hrest, hfirst, Option.map_map]
    refine congrFun (congrArg Option.map (funext fun g => ?_)) _
    exact (g.run_append first rest).symm

theorem run_append (c : Cluster) (before after : List Event) :
    c.run (before ++ after) = (c.run before).run after :=
  List.foldl_append

theorem produced_append (c : Cluster) (before after : List Event) :
    c.produced (before ++ after) = c.produced before ++ (c.run before).produced after := by
  induction before generalizing c with
  | nil => rfl
  | cons e es ih =>
    show c.produces e ++ (c.step e).produced (es ++ after) = _
    rw [ih (c.step e), ← List.append_assoc]
    rfl

/-! ## The questions of a move -/

variable {c : Cluster} {e : Event} {fs : List Effect} {questions : List Question}

/-- A question whose stage was changed is the same question at another stage. -/
theorem getElem?_modify_stage {xs : List Question} {p q : Nat} {s : Stage} {x : Question}
    (h : (xs.modify p fun x => { x with stage := s })[q]? = some x) :
    ∃ y, xs[q]? = some y ∧ x.load = y.load ∧ x.url = y.url ∧ (x.stage = y.stage ∨ x.stage = s) := by
  rw [List.getElem?_modify] at h
  obtain ⟨y, hy, rfl⟩ := Option.map_eq_some_iff.1 h
  by_cases hp : p = q
  · rw [if_pos hp]
    exact ⟨y, hy, rfl, rfl, Or.inr rfl⟩
  · rw [if_neg hp]
    exact ⟨y, hy, rfl, rfl, Or.inl rfl⟩

/-- A question was there before the move, or its load asks it now. -/
theorem Move.question (h : Move c e fs questions) {q : Nat} {x : Question}
    (hx : questions[q]? = some x) :
    (∃ y, c.questions[q]? = some y ∧ x.load = y.load ∧ x.url = y.url ∧
      (x.stage = y.stage ∨ x.stage = .closed ∨
        ∃ i name, x.stage = .served i ⟨name, .direct, "GET"⟩)) ∨
    (x.stage = .sent ∧ ∃ key baseUrl,
      (c.applied fs).load? x.load = some (key, .asking baseUrl) ∧
        Peer.request baseUrl x.load.group key = .ok x.url) := by
  have hsame : c.questions[q]? = some x → ∃ y, c.questions[q]? = some y ∧ x.load = y.load ∧
      x.url = y.url ∧ (x.stage = y.stage ∨ x.stage = .closed ∨
        ∃ i name, x.stage = .served i ⟨name, .direct, "GET"⟩) :=
    fun hx => ⟨x, hx, rfl, rfl, Or.inl rfl⟩
  have hclosed : ∀ p, (c.questions.modify p fun x => { x with stage := .closed })[q]? = some x →
      ∃ y, c.questions[q]? = some y ∧ x.load = y.load ∧ x.url = y.url ∧
        (x.stage = y.stage ∨ x.stage = .closed ∨
          ∃ i name, x.stage = .served i ⟨name, .direct, "GET"⟩) := by
    intro p hx
    obtain ⟨y, hy, hload, hurl, hstage⟩ := getElem?_modify_stage hx
    exact ⟨y, hy, hload, hurl, hstage.imp id Or.inl⟩
  -- A question is new only when a load asks; four moves change the stage of one, and none more.
  cases h with
  | idle => exact Or.inl (hsame hx)
  | lookup => exact Or.inl (hsame hx)
  | start => exact Or.inl (hsame hx)
  | ask l picked queued pool load request =>
    -- In front of the new one stand those that were there.
    by_cases hq : q < c.questions.length
    · rw [List.getElem?_append_left hq] at hx
      exact Or.inl (hsame hx)
    · rw [List.getElem?_append_right (Nat.le_of_not_lt hq)] at hx
      cases List.mem_singleton.1 (List.mem_of_getElem? hx)
      exact Or.inr ⟨rfl, _, _, load, request⟩
  | unsent => exact Or.inl (hsame hx)
  | foreign => exact Or.inl (hsame hx)
  | source => exact Or.inl (hsame hx)
  | panic => exact Or.inl (hsame hx)
  | lose p => exact Or.inl (hclosed p hx)
  | refuse p => exact Or.inl (hclosed p hx)
  | serve p i question node pool asked =>
    left
    obtain ⟨y, hy, hload, hurl, hstage⟩ := getElem?_modify_stage hx
    exact ⟨y, hy, hload, hurl, hstage.imp id fun h => Or.inr ⟨i, _, h⟩⟩
  | respond p => exact Or.inl (hclosed p hx)
  | deliver => exact Or.inl (hsame hx)
  | abandon => exact Or.inl (hsame hx)

/-- A question stays what it is, whatever happens to it. -/
theorem Move.keeps (h : Move c e fs questions) {q : Nat} {x : Question}
    (hx : c.questions[q]? = some x) :
    ∃ y, questions[q]? = some y ∧ y.load = x.load ∧ y.url = x.url := by
  have hstage : ∀ p s, ∃ y, (c.questions.modify p fun x => { x with stage := s })[q]? = some y ∧
      y.load = x.load ∧ y.url = x.url := by
    intro p s
    rw [List.getElem?_modify, hx]
    refine ⟨if p = q then { x with stage := s } else x, rfl, ?_⟩
    split
    · exact ⟨rfl, rfl⟩
    · exact ⟨rfl, rfl⟩
  -- Questions are added at the end, and are never taken off.
  cases h with
  | idle => exact ⟨x, hx, rfl, rfl⟩
  | lookup => exact ⟨x, hx, rfl, rfl⟩
  | start => exact ⟨x, hx, rfl, rfl⟩
  | ask =>
    obtain ⟨hq, -⟩ := List.getElem?_eq_some_iff.1 hx
    exact ⟨x, (List.getElem?_append_left hq).trans hx, rfl, rfl⟩
  | unsent => exact ⟨x, hx, rfl, rfl⟩
  | foreign => exact ⟨x, hx, rfl, rfl⟩
  | source => exact ⟨x, hx, rfl, rfl⟩
  | panic => exact ⟨x, hx, rfl, rfl⟩
  | lose p => exact hstage p .closed
  | refuse p => exact hstage p .closed
  | serve p i => exact hstage p _
  | respond p => exact hstage p .closed
  | deliver => exact ⟨x, hx, rfl, rfl⟩
  | abandon => exact ⟨x, hx, rfl, rfl⟩

/-- Effects change neither pools nor questions. -/
theorem applied_frame (c : Cluster) (fs : List Effect) :
    (c.applied fs).questions = c.questions ∧
      ∀ (i : Nat) n, (c.applied fs).nodes[i]? = some n →
        ∃ m, c.nodes[i]? = some m ∧ n.pool = m.pool := by
  induction fs generalizing c with
  | nil => exact ⟨rfl, fun i n hn => ⟨n, hn, rfl⟩⟩
  | cons f fs ih =>
    obtain ⟨hquestions, hpools⟩ := ih (c.updateGroup f.node f.group fun g => g.step f.event)
    refine ⟨hquestions, fun i n hn => ?_⟩
    obtain ⟨m, hm, hpool⟩ := hpools i n hn
    have hm : (c.nodes.modify f.node _)[i]? = some m := hm
    rw [List.getElem?_modify] at hm
    obtain ⟨m', hm', rfl⟩ := Option.map_eq_some_iff.1 hm
    refine ⟨m', hm', hpool.trans ?_⟩
    split
    · rfl
    · rfl

/-! ## The invariant -/

/-- Nodes answer under the default base path, and questions are what their loads ask for. -/
structure Sound (c : Cluster) : Prop where
  basePath : ∀ (i : Nat) (n : Node) p, c.nodes[i]? = some n → n.pool = some p →
    p.basePath = Peer.defaultBasePath
  asked : ∀ (q : Nat) (x : Question), c.questions[q]? = some x → ∃ g baseUrl key,
    c.group? x.load.node x.load.group = some g ∧
      g.Asked x.load.access x.load.leader baseUrl key ∧
        Peer.request baseUrl x.load.group key = .ok x.url
  served : ∀ (q : Nat) (x : Question) i inquiry, c.questions[q]? = some x →
    x.stage = .served i inquiry → inquiry.access = .direct ∧ inquiry.method = "GET"

/-! ## What keeps it -/

/-- A fresh cluster is sound: there are no questions in it. -/
theorem Fresh.sound (h : c.Fresh) : c.Sound where
  basePath := fun _ n p hn hp => (h.nodes n (List.mem_of_getElem? hn)).basePath p hp
  asked := by
    intro q x hx
    rw [h.questions] at hx
    cases hx
  served := by
    intro q x i inquiry hx
    rw [h.questions] at hx
    cases hx

/-- What is known of a load is that it asks a peer for its key. -/
theorem asked_of_load? {l : LoadId} {key baseUrl : String}
    (h : c.load? l = some (key, .asking baseUrl)) :
    ∃ g, c.group? l.node l.group = some g ∧
      g.request? l.access l.leader = some (.peer baseUrl g.name key) ∧
        g.Asked l.access l.leader baseUrl key := by
  obtain ⟨g, hgroup, h⟩ := Option.bind_eq_some_iff.1 h
  obtain ⟨phase, hphase, h⟩ := Option.bind_eq_some_iff.1 h
  obtain ⟨k, hkey, h⟩ := Option.bind_eq_some_iff.1 h
  cases h
  refine ⟨g, hgroup, Group.request?_eq_peer.2 ⟨hphase, hkey, rfl⟩, hkey, fun p hp => ?_⟩
  rw [hphase] at hp
  cases hp
  exact Or.inl rfl

/-- A load that has asked stays one that has asked. -/
theorem asked_step {l : LoadId} {g : Group Caller} {baseUrl key : String} (e : Event)
    (hgroup : c.group? l.node l.group = some g) (hasked : g.Asked l.access l.leader baseUrl key) :
    ∃ g', (c.step e).group? l.node l.group = some g' ∧
      g'.Asked l.access l.leader baseUrl key := by
  obtain ⟨es, hes⟩ := c.group?_step e l.node l.group
  rw [hgroup] at hes
  exact ⟨_, hes, hasked.run es⟩

/-- Other peers leave a cluster sound: the base path of the pool stays. -/
theorem Sound.setPeers (h : c.Sound) (i : Nat) (peers : List String) :
    (c.step (.setPeers i peers)).Sound := by
  refine ⟨?_, ?_, h.served⟩
  · intro j n p hn hp
    have hn : (c.nodes.modify i fun n => n.setPeers peers)[j]? = some n := hn
    rw [List.getElem?_modify] at hn
    obtain ⟨m, hm, rfl⟩ := Option.map_eq_some_iff.1 hn
    by_cases hi : i = j
    · rw [if_pos hi] at hp
      obtain ⟨p', hp', rfl⟩ := Option.map_eq_some_iff.1 hp
      exact h.basePath j m p' hm hp'
    · rw [if_neg hi] at hp
      exact h.basePath j m p hm hp
  · intro q x hx
    obtain ⟨g, baseUrl, key, hgroup, hasked, hrequest⟩ := h.asked q x hx
    obtain ⟨g', hgroup', hasked'⟩ := asked_step (.setPeers i peers) hgroup hasked
    exact ⟨g', baseUrl, key, hgroup', hasked', hrequest⟩

/-- What an event does to groups and questions keeps a cluster sound. -/
theorem Move.sound (hmove : Move c e fs questions) (h : c.Sound)
    (hstep : c.step e = c.moved fs questions) : (c.step e).Sound := by
  obtain ⟨hquestions, hpools⟩ := applied_frame { c with questions := questions } fs
  have hquestions : (c.step e).questions = questions := by
    rw [hstep]
    exact hquestions
  refine ⟨?_, ?_, ?_⟩
  · intro i n p hn hp
    rw [hstep] at hn
    obtain ⟨m, hm, hpool⟩ := hpools i n hn
    exact h.basePath i m p hm (hpool.symm.trans hp)
  · intro q x hx
    rw [hquestions] at hx
    -- What a load has asked stays asked; a new question is what its load has just asked.
    rcases hmove.question hx with ⟨y, hy, hload, hurl, -⟩ | ⟨-, key, baseUrl, hload, hrequest⟩
    · obtain ⟨g, baseUrl, key, hgroup, hasked, hrequest⟩ := h.asked q y hy
      obtain ⟨g', hgroup', hasked'⟩ := asked_step e hgroup hasked
      rw [hload, hurl]
      exact ⟨g', baseUrl, key, hgroup', hasked', hrequest⟩
    · obtain ⟨g, hgroup, -, hasked⟩ := asked_of_load? hload
      refine ⟨g, baseUrl, key, ?_, hasked, hrequest⟩
      rw [hstep, ← hgroup]
      exact (group?_applied _ fs _ _).trans (group?_applied c fs _ _).symm
  · intro q x i inquiry hx hserved
    rw [hquestions] at hx
    rcases hmove.question hx with ⟨y, hy, -, -, hstage⟩ | ⟨hsent, -⟩
    · rcases hstage with hstage | hclosed | ⟨j, name, hnew⟩
      · rw [hstage] at hserved
        exact h.served q y i inquiry hy hserved
      -- Only serving makes a stage of this kind, and it looks up directly.
      · rw [hclosed] at hserved
        cases hserved
      · rw [hnew] at hserved
        cases hserved
        exact ⟨rfl, rfl⟩
    · rw [hsent] at hserved
      cases hserved

/-- Every event keeps a cluster sound. -/
theorem Sound.step (h : c.Sound) (e : Event) : (c.step e).Sound := by
  rcases c.move_step e with ⟨i, peers, rfl⟩ | ⟨fs, questions, hmove, hstep⟩
  · exact h.setPeers i peers
  · exact hmove.sound h hstep

theorem Sound.run (h : c.Sound) (events : List Event) : (c.run events).Sound := by
  induction events generalizing c with
  | nil => exact h
  | cons e es ih => exact ih (h.step e)

/-! ## The account of a group -/

/-- A lookup for a question is one for the key that the question's URL names. -/
theorem Move.lookup_question (h : Move c e fs questions) (hc : c.Sound) {i : Nat} {name : String}
    {q : Nat} {access : Access} {key : String}
    (hf : ⟨i, name, .lookup (.question q) access key⟩ ∈ fs) :
    ∃ x, c.questions[q]? = some x ∧
      asked? Peer.defaultBasePath x.url = some (name, key) := by
  rcases h.effect_cases hf with
    hquiet | ⟨j, n, a, client, k, -, heq, -⟩ |
      ⟨p, j, l, url, n, pool, name', k, -, hquestion, hnode, hpool, hasked, heq, -⟩ |
      ⟨l, reply, -, heq, -⟩ | ⟨l, reply, -, heq⟩ | ⟨p, l, url, j, inquiry, g, o, -, -, -, -, heq, -⟩
  · exact hquiet.elim
  · cases heq
  · cases heq
    rw [hc.basePath _ _ _ hnode hpool] at hasked
    exact ⟨_, hquestion, hasked⟩
  · cases heq
  · cases heq
  · cases heq

theorem eventsAt_self (i : Nat) (name : String) (e : Group.Event Caller) :
    eventsAt i name [⟨i, name, e⟩] = [e] := by
  unfold eventsAt
  rw [List.filter_cons, if_pos (decide_eq_true ⟨rfl, rfl⟩)]
  rfl

/-- What a single effect makes its group produce. -/
theorem mem_productsOf {i : Nat} {name : String} {g : Group Caller} {e : Group.Event Caller}
    {p : String × List UInt8} (hgroup : c.group? i name = some g)
    (hp : p ∈ g.produced (eventsAt i name [⟨i, name, e⟩])) :
    ⟨i, name, p.1, p.2⟩ ∈ c.productsOf i name e := by
  rw [eventsAt_self] at hp
  have hp : p ∈ g.produces e ++ [] := hp
  rw [List.append_nil] at hp
  unfold productsOf
  rw [hgroup]
  exact List.mem_map.2 ⟨p, hp, rfl⟩

/-- What the effects of a move make a group produce, the cluster's event makes it produce. -/
theorem Move.produces (h : Move c e fs questions) {i : Nat} {name : String} {g : Group Caller}
    {p : String × List UInt8} (hgroup : c.group? i name = some g)
    (hp : p ∈ g.produced (eventsAt i name fs)) : ⟨i, name, p.1, p.2⟩ ∈ c.produces e := by
  -- only a lookup and an answer of the source produce anything, and either comes alone
  rcases Group.exists_of_mem_produced hp with
    ⟨caller, access, key, hmem⟩ | ⟨access, leader, bytes, hmem⟩
  · rcases h.effect_cases (mem_eventsAt.1 hmem) with
      hquiet | ⟨j, n, a, client, k, rfl, heq, rfl⟩ |
        ⟨q, j, l, url, n, pool, name', k, rfl, hquestion, hnode, hpool, hasked, heq, rfl⟩ |
        ⟨l, reply, -, heq, -⟩ | ⟨l, reply, -, heq⟩ |
        ⟨q, l, url, j, inquiry, g', o, -, -, -, -, heq, -⟩
    · exact hquiet.elim
    · cases heq
      exact mem_productsOf hgroup hp
    · cases heq
      have hpools : (c.nodes[i]?.bind Node.pool) = some pool :=
        Option.bind_eq_some_iff.2 ⟨n, hnode, hpool⟩
      simp only [Cluster.produces, hquestion, hpools, hasked]
      exact mem_productsOf hgroup hp
    · cases heq
    · cases heq
    · cases heq
  · rcases h.effect_cases (mem_eventsAt.1 hmem) with
      hquiet | ⟨j, n, a, client, k, -, heq, -⟩ |
        ⟨q, j, l, url, n, pool, name', k, -, -, -, -, -, heq, -⟩ |
        ⟨l, reply, rfl, heq, rfl⟩ | ⟨l, reply, -, heq⟩ |
        ⟨q, l, url, j, inquiry, g', o, -, -, -, -, heq, -⟩
    · exact hquiet.elim
    · cases heq
    · cases heq
    · cases heq
      exact mem_productsOf hgroup hp
    · cases heq
    · cases heq

/-- The run `events` of a cluster, as `es` is it for the group `name` of node `i`. -/
structure Account (c : Cluster) (events : List Event) (i : Nat) (name : String)
    (es : List (Group.Event Caller)) : Prop where
  group : (c.run events).group? i name = (c.group? i name).map fun g => g.run es
  looked : ∀ (q : Nat) access key, .lookup (.question q) access key ∈ es →
    ∃ x, (c.run events).questions[q]? = some x ∧
      asked? Peer.defaultBasePath x.url = some (name, key)
  produced : ∀ g, c.group? i name = some g → ∀ p ∈ g.produced es,
    ⟨i, name, p.1, p.2⟩ ∈ c.produced events

theorem account_nil (c : Cluster) (i : Nat) (name : String) : Account c [] i name [] where
  group := Option.map_id'.symm
  looked := by
    intro q access key hmem
    cases hmem
  produced := by
    intro g _ p hp
    cases hp

/-- One more event of the cluster is, for a group, some events more. -/
theorem Account.snoc {events : List Event} {i : Nat} {name : String}
    {es : List (Group.Event Caller)} (h : Account c events i name es)
    (hc : (c.run events).Sound) (e : Event) :
    ∃ es', Account c (events ++ [e]) i name (es ++ es') := by
  have hrun : c.run (events ++ [e]) = (c.run events).step e := c.run_append events [e]
  have hproduced : c.produced (events ++ [e]) = c.produced events ++ (c.run events).produces e := by
    rw [produced_append]
    exact congrArg (c.produced events ++ ·) (List.append_nil _)
  -- Other peers are no event of a group; anything else is what its effects on the group are.
  rcases (c.run events).move_step e with ⟨j, peers, rfl⟩ | ⟨fs, questions, hmove, hstep⟩
  · refine ⟨[], ?_, ?_, ?_⟩
    · rw [hrun, List.append_nil, ← h.group]
      exact group?_updateNode _ j i name fun n => rfl
    · rw [hrun, List.append_nil]
      exact h.looked
    · intro g hgroup p hp
      rw [List.append_nil] at hp
      rw [hproduced]
      exact List.mem_append_left _ (h.produced g hgroup p hp)
  · have hquestions : ((c.run events).step e).questions = questions := by
      rw [hstep]
      exact (applied_frame { c.run events with questions := questions } fs).1
    refine ⟨eventsAt i name fs, ?_, ?_, ?_⟩
    · rw [hrun, hstep]
      refine (group?_applied _ fs i name).trans ?_
      rw [show ({ c.run events with questions := questions } : Cluster).group? i name
        = (c.run events).group? i name from rfl, h.group, Option.map_map]
      refine congrFun (congrArg Option.map (funext fun g => ?_)) _
      exact (g.run_append es _).symm
    -- A question is asked for what it was looked up for, whatever stage it has come to since.
    · intro q access key hmem
      rw [hrun, hquestions]
      obtain ⟨x, hx, hasked⟩ : ∃ x, (c.run events).questions[q]? = some x ∧
          asked? Peer.defaultBasePath x.url = some (name, key) := by
        rcases List.mem_append.1 hmem with hmem | hmem
        · exact h.looked q access key hmem
        · exact hmove.lookup_question hc (mem_eventsAt.1 hmem)
      obtain ⟨y, hy, -, hurl⟩ := hmove.keeps hx
      rw [← hurl] at hasked
      exact ⟨y, hy, hasked⟩
    · intro g hgroup p hp
      rw [hproduced]
      rw [Group.produced_append] at hp
      rcases List.mem_append.1 hp with hp | hp
      · exact List.mem_append_left _ (h.produced g hgroup p hp)
      · refine List.mem_append_right _ (hmove.produces ?_ hp)
        rw [h.group, hgroup]
        rfl

/-- Every group has an account of every run. -/
theorem exists_account (hc : c.Fresh) (events : List Event) (i : Nat) (name : String) :
    ∃ es, Account c events i name es := by
  induction events using List.reverseRecOn with
  | nil => exact ⟨[], account_nil c i name⟩
  | append_singleton events e ih =>
    obtain ⟨es, hes⟩ := ih
    obtain ⟨es', hes'⟩ := hes.snoc (hc.sound.run events) e
    exact ⟨es ++ es', hes'⟩

end Cluster

end PeerCache
