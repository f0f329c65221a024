import PeerCache.Cluster.Fallback
import PeerCache.Proofs.Group.Provenance
/-!
# PeerCache — the steps of a cluster

What each event of a cluster can do, said once. An event reaches its groups by `Effect`s, one event
of one group each, and does something to the questions:

* **`Move`** — the effects of an event and the questions that it leaves, case by case.
* **`move_step`** — every event but `setPeers` makes one of these moves.
* **`group?_applied`** — a group takes just those effects that are its own. So what holds of every
  run of a group holds in a cluster.
* **`effect_cases`** — where the lookups and the bytes come from that a move brings to a group.

An answer reaches two groups, the one that looked the key up and the one that asked; these may be
one and the same.
-/

namespace PeerCache

namespace Cluster

/-! ## Changing one group -/

theorem group?_updateGroup (c : Cluster) (j i : Nat) (n name : String)
    (f : Group Caller → Group Caller) :
    (c.updateGroup j n f).group? i name =
      if j = i ∧ n = name then (c.group? i name).map f else c.group? i name := by
  unfold group? updateGroup updateNode
  rw [List.getElem?_modify]
  cases hnode : c.nodes[i]? with
  | none => simp
  | some m =>
    by_cases hj : j = i
    · subst hj
      have hfind := Table.find?_modify m.groups n name f
      simp only [if_true, true_and, Option.map_eq_map, Option.map_some, Option.bind_some]
      show (m.groups.modify n f).find? name = _
      rw [hfind]
      by_cases hn : n = name
      · rw [if_pos hn, if_pos hn.symm]
      · rw [if_neg hn, if_neg (fun h => hn h.symm)]
    · simp [hj]

/-- A change of a node that spares its groups. -/
theorem group?_updateNode (c : Cluster) (j i : Nat) (name : String) {f : Node → Node}
    (hf : ∀ n, (f n).groups = n.groups) :
    (c.updateNode j f).group? i name = c.group? i name := by
  unfold group? updateNode
  rw [List.getElem?_modify]
  cases hnode : c.nodes[i]? with
  | none => rfl
  | some m =>
    by_cases hj : j = i
    · simp [hj, hf]
    · simp [hj]

/-- Setting a node to what a change makes of it. -/
theorem updateNode_of_getElem? {c : Cluster} {j : Nat} {n : Node} (hn : c.nodes[j]? = some n)
    (f : Node → Node) : (c.updateNode j fun _ => f n) = c.updateNode j f := by
  have hnodes : (c.nodes.modify j fun _ => f n) = c.nodes.modify j f := by
    refine List.ext_getElem? fun i => ?_
    rw [List.getElem?_modify, List.getElem?_modify]
    by_cases hj : j = i
    · subst hj
      rw [hn]
      simp
    · simp [hj]
  unfold updateNode
  rw [hnodes]

theorem updateNode_self {c : Cluster} {j : Nat} {n : Node} (hn : c.nodes[j]? = some n) :
    (c.updateNode j fun _ => n) = c := by
  have hsame : (c.nodes.modify j fun m => m) = c.nodes := List.modify_id j c.nodes
  rw [updateNode_of_getElem? hn fun m => m]
  unfold updateNode
  rw [hsame]

/-! ## The endpoint -/

/-- A node looks up what it is asked for if it has the group; everything else it refuses, with a
status that is no success. -/
theorem acceptPeer_cases (n : Node) (basePath : String) (caller : Caller) (u : Url) :
    (∃ group key, asked? basePath u = some (group, key) ∧ (n.groups.find? group).isSome ∧
      n.acceptPeer basePath caller (requestOf u) =
        (n.updateGroup group fun g => g.lookup caller .direct key, .inr ⟨group, .direct, "GET"⟩)) ∨
    (∀ group key, asked? basePath u = some (group, key) → n.groups.find? group = none) ∧
    ∃ r : Http.Response, 300 ≤ r.status ∧
      n.acceptPeer basePath caller (requestOf u) = (n, .inl r) := by
  unfold asked? Node.acceptPeer
  cases hroute : Peer.Route.ofRequest basePath (requestOf u) with
  | value group key =>
    cases hfind : n.groups.find? group with
    | some g =>
      refine Or.inl ⟨group, key, rfl, ?_, ?_⟩
      · rw [hfind]
        rfl
      · simp only [hfind]
        rfl
    | none =>
      refine Or.inr ⟨?_, .text 404 (CacheError.groupNotFound group).message, ?_, ?_⟩
      · rintro group' key' ⟨⟩
        exact hfind
      · show 300 ≤ 404
        decide
      · simp only [hfind]
        rfl
  -- All other routes answer without a look at the groups.
  | notFound => exact Or.inr ⟨by rintro g k ⟨⟩, .notFound, by decide, rfl⟩
  | badRequest => exact Or.inr ⟨by rintro g k ⟨⟩, .text 400 "bad request", by decide, rfl⟩
  | methodNotAllowed => exact Or.inr ⟨by rintro g k ⟨⟩, .methodNotAllowed, by decide, rfl⟩
  | undecodable part =>
    refine Or.inr ⟨by rintro g k ⟨⟩,
      .text 400 ("Invalid URL: Invalid UTF-8 in `" ++ part ++ "`"), ?_, rfl⟩
    show 300 ≤ 400
    decide

/-! ## Effects -/

/-- An event of one group. -/
structure Effect where
  node : Nat
  group : String
  event : Group.Event Caller

/-- An event of the group that a load belongs to. -/
def Effect.ofLoad (l : LoadId) (e : Group.Event Caller) : Effect := ⟨l.node, l.group, e⟩

/-- The groups take their effects, one after another. -/
def applied (c : Cluster) (fs : List Effect) : Cluster :=
  fs.foldl (fun c f => c.updateGroup f.node f.group fun g => g.step f.event) c

/-- The events that are for one group. -/
def eventsAt (i : Nat) (name : String) (fs : List Effect) : List (Group.Event Caller) :=
  (fs.filter fun f => f.node = i ∧ f.group = name).map Effect.event

theorem mem_eventsAt {i : Nat} {name : String} {fs : List Effect} {e : Group.Event Caller} :
    e ∈ eventsAt i name fs ↔ ⟨i, name, e⟩ ∈ fs := by
  unfold eventsAt
  constructor
  · intro h
    obtain ⟨f, hf, rfl⟩ := List.mem_map.1 h
    obtain ⟨hmem, hat⟩ := List.mem_filter.1 hf
    obtain ⟨rfl, rfl⟩ := of_decide_eq_true hat
    exact hmem
  · intro h
    exact List.mem_map.2 ⟨_, List.mem_filter.2 ⟨h, decide_eq_true ⟨rfl, rfl⟩⟩, rfl⟩

/-- The effects on a cluster are, for each of its groups, the run of those that are for it. -/
theorem group?_applied (c : Cluster) (fs : List Effect) (i : Nat) (name : String) :
    (c.applied fs).group? i name = (c.group? i name).map fun g => g.run (eventsAt i name fs) := by
  induction fs generalizing c with
  | nil => exact Option.map_id'.symm
  | cons f fs ih =>
    show ((c.updateGroup f.node f.group fun g => g.step f.event).applied fs).group? i name = _
    rw [ih, group?_updateGroup]
    unfold eventsAt
    by_cases h : f.node = i ∧ f.group = name
    · rw [if_pos h, Option.map_map, List.filter_cons, if_pos (decide_eq_true h)]
      rfl
    · rw [if_neg h, List.filter_cons, if_neg (fun heq => h (of_decide_eq_true heq))]

/-! ## Moves -/

/-- What an event does: its effects, and the questions that it leaves. -/
inductive Move (c : Cluster) : Event → List Effect → List Question → Prop where
  /-- The event does not apply. -/
  | idle (e : Event) : Move c e [] c.questions
  | lookup (i : Nat) (name : String) (access : Access) (client : Nat) (key : String) :
    Move c (.lookup i name access client key) [⟨i, name, .lookup (.client client) access key⟩]
      c.questions
  /-- The load starts and asks nobody in the cluster. -/
  | start (l : LoadId) (picked owner : Option String) {key : String} {router : Bool}
    (queued : c.load? l = some (key, .queued router))
    (pick : c.usesPool l = true → owner = c.peerFor l key) :
    Move c (.start l picked) [.ofLoad l (.start l.access l.leader owner)] c.questions
  /-- The load starts and its question is sent. -/
  | ask (l : LoadId) (picked : Option String) {key asked baseUrl : String} {router : Bool}
    {url : Url} (queued : c.load? l = some (key, .queued router)) (pool : c.usesPool l = true)
    (load : (c.applied [.ofLoad l (.start l.access l.leader (c.peerFor l key))]).load? l
      = some (asked, .asking baseUrl))
    (request : Peer.request baseUrl l.group asked = .ok url) :
    Move c (.start l picked) [.ofLoad l (.start l.access l.leader (c.peerFor l key))]
      (c.questions ++ [⟨l, url, .sent⟩])
  /-- The load starts and its question cannot be sent. -/
  | unsent (l : LoadId) (picked : Option String) {key asked baseUrl : String} {router : Bool}
    {e : CacheError} (queued : c.load? l = some (key, .queued router))
    (pool : c.usesPool l = true)
    (load : (c.applied [.ofLoad l (.start l.access l.leader (c.peerFor l key))]).load? l
      = some (asked, .asking baseUrl))
    (request : Peer.request baseUrl l.group asked = .error e) :
    Move c (.start l picked) [.ofLoad l (.start l.access l.leader (c.peerFor l key)),
      .ofLoad l (.peerReply l.access l.leader (.error e))] c.questions
  | foreign (l : LoadId) (reply : Except CacheError (List UInt8)) (pool : c.usesPool l = false) :
    Move c (.foreignReply l reply) [.ofLoad l (.peerReply l.access l.leader reply)] c.questions
  | source (l : LoadId) (reply : Except String (List UInt8)) :
    Move c (.sourceReply l reply) [.ofLoad l (.sourceReply l.access l.leader reply)] c.questions
  | panic (l : LoadId) (text : String) :
    Move c (.panic l text) [.ofLoad l (.panic l.access l.leader text)] c.questions
  | lose (q : Nat) {l : LoadId} {url : Url} {stage : Stage}
    (question : c.questions[q]? = some ⟨l, url, stage⟩) (stays : stage ≠ .closed) :
    Move c (.lose q) [.ofLoad l (.peerReply l.access l.leader (.error (Peer.unreachable url)))]
      (c.questions.modify q fun x => { x with stage := .closed })
  /-- The node that the question comes to refuses it. -/
  | refuse (q i : Nat) {l : LoadId} {url : Url} (e : CacheError)
    (question : c.questions[q]? = some ⟨l, url, .sent⟩) :
    Move c (.arrive q i) [.ofLoad l (.peerReply l.access l.leader (.error e))]
      (c.questions.modify q fun x => { x with stage := .closed })
  /-- A node looks up what the question asks it for. -/
  | serve (q i : Nat) {l : LoadId} {url : Url} {n : Node} {p : Peer.Pool} {name key : String}
    (question : c.questions[q]? = some ⟨l, url, .sent⟩) (node : c.nodes[i]? = some n)
    (pool : n.pool = some p) (asked : asked? p.basePath url = some (name, key)) :
    Move c (.arrive q i) [⟨i, name, .lookup (.question q) .direct key⟩]
      (c.questions.modify q fun x => { x with stage := .served i ⟨name, .direct, "GET"⟩ })
  /-- The node answers what it looked up. -/
  | respond (q : Nat) {l : LoadId} {url : Url} {i : Nat} {inquiry : Node.Inquiry}
    {g : Group Caller} {o : Outcome ByteView}
    (question : c.questions[q]? = some ⟨l, url, .served i inquiry⟩)
    (group : (c.applied [⟨i, inquiry.group, .deliver inquiry.access (.question q)⟩]).group? i
      inquiry.group = some g)
    (answer : g.answer? inquiry.access (.question q) = some o) :
    Move c (.respond q) [⟨i, inquiry.group, .deliver inquiry.access (.question q)⟩,
      .ofLoad l (.peerReply l.access l.leader
        (Peer.Reply.result ⟨((Http.Response.ofOutcome o).forMethod inquiry.method).status,
          ((Http.Response.ofOutcome o).forMethod inquiry.method).body, false⟩))]
      (c.questions.modify q fun x => { x with stage := .closed })
  | deliver (i : Nat) (name : String) (access : Access) (client : Nat) :
    Move c (.deliver i name access client) [⟨i, name, .deliver access (.client client)⟩]
      c.questions
  | abandon (i : Nat) (name : String) (access : Access) (client : Nat) :
    Move c (.abandon i name access client) [⟨i, name, .abandon access (.client client)⟩]
      c.questions

/-- The cluster after a move. -/
def moved (c : Cluster) (fs : List Effect) (questions : List Question) : Cluster :=
  ({ c with questions := questions } : Cluster).applied fs

/-- What is known of a load is known by its group, not by the questions. -/
theorem load?_moved (c : Cluster) (fs : List Effect) (questions : List Question) (l : LoadId) :
    (c.moved fs questions).load? l = (c.applied fs).load? l := by
  have hgroup : (c.moved fs questions).group? l.node l.group
      = (c.applied fs).group? l.node l.group :=
    (group?_applied _ fs _ _).trans (group?_applied c fs _ _).symm
  unfold load?
  rw [hgroup]

theorem move_start (c : Cluster) (l : LoadId) (picked : Option String) :
    ∃ fs questions, Move c (.start l picked) fs questions ∧
      c.start l picked = c.moved fs questions := by
  unfold start
  split
  next key router hload =>
    split
    next hpool =>
      show ∃ fs questions, _ ∧
        (c.applied [.ofLoad l (.start l.access l.leader (c.peerFor l key))]).ask l = _
      unfold ask
      split
      next asked baseUrl hasking =>
        split
        next e hrequest => exact ⟨_, _, .unsent l picked hload hpool hasking hrequest, rfl⟩
        next url hrequest => exact ⟨_, _, .ask l picked hload hpool hasking hrequest, rfl⟩
      next => exact ⟨_, _, .start l picked (c.peerFor l key) hload fun _ => rfl, rfl⟩
    next hpool =>
      exact ⟨_, _, .start l picked picked hload fun heq => absurd heq hpool, rfl⟩
  next => exact ⟨_, _, .idle _, rfl⟩

theorem move_lose (c : Cluster) (q : Nat) :
    ∃ fs questions, Move c (.lose q) fs questions ∧ c.lose q = c.moved fs questions := by
  unfold lose
  split
  next => exact ⟨_, _, .idle _, rfl⟩
  next l url stage hopen hquestion =>
    exact ⟨_, _, .lose q hquestion hopen, rfl⟩
  next => exact ⟨_, _, .idle _, rfl⟩

/-- A status that is no success is an error. -/
theorem result_of_le {r : Http.Response} (hstatus : 300 ≤ r.status) :
    ∃ e, Peer.Reply.result ⟨r.status, r.body, false⟩ = .error e := by
  unfold Peer.Reply.result
  rw [if_neg (by show ¬ (200 ≤ r.status ∧ r.status < 300); omega)]
  exact ⟨_, rfl⟩

/-- A question that arrives makes a move. -/
theorem move_arrive (c : Cluster) (q i : Nat) :
    ∃ fs questions, Move c (.arrive q i) fs questions ∧ c.arrive q i = c.moved fs questions := by
  unfold arrive
  split
  next l url n hquestion hnode =>
    split
    next => exact ⟨_, _, .idle _, rfl⟩
    next p hpool =>
      rcases acceptPeer_cases n p.basePath (.question q) url with
        ⟨group, key, hasked, -, haccept⟩ | ⟨-, r, hstatus, haccept⟩
      · refine ⟨_, _, .serve q i hquestion hnode hpool hasked, ?_⟩
        rw [haccept]
        show (c.updateNode i fun _ => n.updateGroup group _).setStage q _ = _
        rw [updateNode_of_getElem? hnode fun m => m.updateGroup group _]
        rfl
      · obtain ⟨e, hresult⟩ := result_of_le hstatus
        refine ⟨_, _, .refuse q i e hquestion, ?_⟩
        rw [haccept]
        show ((c.updateNode i fun _ => n).setStage q .closed).peerReply l _ = _
        rw [updateNode_self hnode, hresult]
        rfl
  next => exact ⟨_, _, .idle _, rfl⟩

/-- An answer makes a move: it is delivered where the question was served, and is a reply where it
was asked. -/
theorem move_respond (c : Cluster) (q : Nat) :
    ∃ fs questions, Move c (.respond q) fs questions ∧ c.respond q = c.moved fs questions := by
  unfold respond
  split
  next l url i inquiry hquestion =>
    dsimp only
    split
    next r hresponse =>
      obtain ⟨n, hnode, hanswer⟩ := Option.bind_eq_some_iff.1 hresponse
      obtain ⟨o, ho, rfl⟩ := Option.map_eq_some_iff.1 hanswer
      obtain ⟨g, hgroup, houtcome⟩ := Option.bind_eq_some_iff.1 ho
      refine ⟨_, _, .respond q hquestion (g := g) ?_ houtcome, rfl⟩
      exact Option.bind_eq_some_iff.2 ⟨n, hnode, hgroup⟩
    next => exact ⟨_, _, .idle _, rfl⟩
  next => exact ⟨_, _, .idle _, rfl⟩

/-- Every event but `setPeers` makes a move. -/
theorem move_step (c : Cluster) (e : Event) :
    (∃ i peers, e = .setPeers i peers) ∨
    ∃ fs questions, Move c e fs questions ∧ c.step e = c.moved fs questions := by
  cases e with
  | setPeers i peers => exact Or.inl ⟨i, peers, rfl⟩
  | lookup i name access client key => exact Or.inr ⟨_, _, .lookup i name access client key, rfl⟩
  | start l picked => exact Or.inr (c.move_start l picked)
  | foreignReply l reply =>
    right
    show ∃ fs questions, _ ∧ (if c.usesPool l then c else c.peerReply l reply) = _
    split
    next => exact ⟨_, _, .idle _, rfl⟩
    next hpool => exact ⟨_, _, .foreign l reply (Bool.eq_false_iff.2 hpool), rfl⟩
  | sourceReply l reply => exact Or.inr ⟨_, _, .source l reply, rfl⟩
  | panic l text => exact Or.inr ⟨_, _, .panic l text, rfl⟩
  | lose q => exact Or.inr (c.move_lose q)
  | arrive q i => exact Or.inr (c.move_arrive q i)
  | respond q => exact Or.inr (c.move_respond q)
  | deliver i name access client => exact Or.inr ⟨_, _, .deliver i name access client, rfl⟩
  | abandon i name access client => exact Or.inr ⟨_, _, .abandon i name access client, rfl⟩

/-! ## What a move brings to a group -/

/-- The event brings its group neither a lookup nor bytes. -/
def IsQuiet : Group.Event Caller → Prop
  | .lookup _ _ _ => False
  | .peerReply _ _ (.ok _) => False
  | .sourceReply _ _ (.ok _) => False
  | _ => True

/-- A lookup comes from a client or from a question that arrives; bytes come from a group's own
source, from a router that is no pool, or from the node that serves a question. -/
theorem Move.effect_cases {c : Cluster} {e : Event} {fs : List Effect} {questions : List Question}
    (h : Move c e fs questions) {f : Effect} (hf : f ∈ fs) :
    IsQuiet f.event ∨
    (∃ i name access client key, e = .lookup i name access client key ∧
      f = ⟨i, name, .lookup (.client client) access key⟩ ∧ fs = [f]) ∨
    (∃ q i l url n p name key, e = .arrive q i ∧ c.questions[q]? = some ⟨l, url, .sent⟩ ∧
      c.nodes[i]? = some n ∧ n.pool = some p ∧ asked? p.basePath url = some (name, key) ∧
      f = ⟨i, name, .lookup (.question q) .direct key⟩ ∧ fs = [f]) ∨
    (∃ l reply, e = .sourceReply l reply ∧
      f = .ofLoad l (.sourceReply l.access l.leader reply) ∧ fs = [f]) ∨
    (∃ l reply, c.usesPool l = false ∧ f = .ofLoad l (.peerReply l.access l.leader reply)) ∨
    (∃ q l url i inquiry g o, e = .respond q ∧
      c.questions[q]? = some ⟨l, url, .served i inquiry⟩ ∧
      (c.applied [⟨i, inquiry.group, .deliver inquiry.access (.question q)⟩]).group? i
        inquiry.group = some g ∧
      g.answer? inquiry.access (.question q) = some o ∧
      f = .ofLoad l (.peerReply l.access l.leader
        (Peer.Reply.result ⟨((Http.Response.ofOutcome o).forMethod inquiry.method).status,
          ((Http.Response.ofOutcome o).forMethod inquiry.method).body, false⟩)) ∧
      fs = [⟨i, inquiry.group, .deliver inquiry.access (.question q)⟩, f]) := by
  -- One case for each kind of move; most have one effect, which is quiet.
  cases h with
  | idle => cases hf
  | lookup =>
    cases List.mem_singleton.1 hf
    exact Or.inr (Or.inl ⟨_, _, _, _, _, rfl, rfl, rfl⟩)
  | start =>
    cases List.mem_singleton.1 hf
    exact Or.inl trivial
  | ask =>
    cases List.mem_singleton.1 hf
    exact Or.inl trivial
  | unsent =>
    -- The start and the failure that follows it are both of a load that asks nobody.
    left
    rcases List.mem_cons.1 hf with rfl | hf
    · trivial
    · cases List.mem_singleton.1 hf
      trivial
  | foreign l reply pool =>
    cases List.mem_singleton.1 hf
    exact Or.inr (Or.inr (Or.inr (Or.inr (Or.inl ⟨l, reply, pool, rfl⟩))))
  | source l reply =>
    cases List.mem_singleton.1 hf
    exact Or.inr (Or.inr (Or.inr (Or.inl ⟨l, reply, rfl, rfl, rfl⟩)))
  | panic =>
    cases List.mem_singleton.1 hf
    exact Or.inl trivial
  | lose =>
    cases List.mem_singleton.1 hf
    exact Or.inl trivial
  | refuse =>
    cases List.mem_singleton.1 hf
    exact Or.inl trivial
  | serve q i question node pool asked =>
    cases List.mem_singleton.1 hf
    exact Or.inr (Or.inr (Or.inl
      ⟨q, i, _, _, _, _, _, _, rfl, question, node, pool, asked, rfl, rfl⟩))
  | respond q question group answer =>
    -- The delivery is quiet, the reply is not.
    rcases List.mem_cons.1 hf with rfl | hf
    · exact Or.inl trivial
    · cases List.mem_singleton.1 hf
      exact Or.inr (Or.inr (Or.inr (Or.inr (Or.inr
        ⟨q, _, _, _, _, _, _, rfl, question, group, answer, rfl, rfl⟩))))
  | deliver =>
    cases List.mem_singleton.1 hf
    exact Or.inl trivial
  | abandon =>
    cases List.mem_singleton.1 hf
    exact Or.inl trivial

end Cluster

end PeerCache
