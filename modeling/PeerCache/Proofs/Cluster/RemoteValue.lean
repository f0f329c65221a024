import PeerCache.Proofs.Cluster.Questions
import PeerCache.Proofs.Peer.Address
/-!
# PeerCache — what the value of a peer is

A load of one node that asks a peer and ends with bytes has them from the node that its question
came to, which produced them for the group and the key that the question's URL names. These are
the group and the key that were asked for exactly if both are `Peer.Plain`: a tabulator, a line
feed or a carriage return does not survive the trip.

* **`reply_of_end`** — of all events only an answer to the load's own question ends it with bytes.
* **`product_of_answer`** — a node answers a question with bytes that it produced.
* **`store_answer`**, **`answer_of_waits`** — what the answer leaves in the store, and what the
  callers that wait for the load get.

The last section puts these together and shows both outcomes on two nodes.
-/

namespace PeerCache

namespace Cluster

variable {c : Cluster} {e : Event} {fs : List Effect} {questions : List Question}

/-- The groups of a fresh cluster have not been used. -/
theorem Fresh.unused (h : c.Fresh) {i : Nat} {name : String} {g : Group Caller}
    (hgroup : c.group? i name = some g) : g.Unused := by
  obtain ⟨n, hn, hfind⟩ := Option.bind_eq_some_iff.1 hgroup
  obtain ⟨cacheBytes, policy, hasRouter, rfl⟩ :=
    (h.nodes n (List.mem_of_getElem? hn)).groups name g hfind
  exact Group.unused_new name cacheBytes policy hasRouter

/-- The effect of an answer tells whose load it is for. -/
theorem ofLoad_peerReply_inj {l m : LoadId} {r s : Except CacheError (List UInt8)}
    (h : Effect.mk l.node l.group (.peerReply l.access l.leader r)
      = .ofLoad m (.peerReply m.access m.leader s)) : m = l ∧ s = r := by
  cases l
  cases m
  cases h
  exact ⟨rfl, rfl⟩

/-- A lookup's outcome read as an answer is a success with the outcome's bytes. -/
theorem eq_ok_of_result {o : Outcome ByteView} {bytes : List UInt8}
    (h : Peer.Reply.result ⟨((Http.Response.ofOutcome o).forMethod "GET").status,
      ((Http.Response.ofOutcome o).forMethod "GET").body, false⟩ = .ok bytes) :
    o = .ok ⟨bytes⟩ := by
  cases o with
  | ok v =>
    cases h
    rfl
  | error err =>
    have hstatus : 300 ≤ ((Http.Response.ofOutcome (.error err)).forMethod "GET").status := by
      show 300 ≤ Http.Response.failureStatus err
      unfold Http.Response.failureStatus
      split
      · decide
      · decide
    obtain ⟨err', herr⟩ := result_of_le hstatus
    rw [herr] at h
    cases h

/-! ## The end of a load that asks -/

/-- Bytes come to a load from a router that is no pool, or from the node that serves the load's
question. -/
theorem Move.peerReply_ok (h : Move c e fs questions) (hc : c.Sound) {l : LoadId}
    {bytes : List UInt8} (hf : .ofLoad l (.peerReply l.access l.leader (.ok bytes)) ∈ fs) :
    c.usesPool l = false ∨
    ∃ q url i name g, e = .respond q ∧
      c.questions[q]? = some ⟨l, url, .served i ⟨name, .direct, "GET"⟩⟩ ∧
      (c.applied [⟨i, name, .deliver .direct (.question q)⟩]).group? i name = some g ∧
      g.answer? .direct (.question q) = some (.ok ⟨bytes⟩) ∧
      fs = [⟨i, name, .deliver .direct (.question q)⟩,
        .ofLoad l (.peerReply l.access l.leader (.ok bytes))] := by
  rcases h.effect_cases hf with
    hquiet | ⟨j, n, a, client, k, -, heq, -⟩ |
      ⟨q, j, m, url, n, p, name, k, -, -, -, -, -, heq, -⟩ |
      ⟨m, reply, -, heq, -⟩ | ⟨m, reply, hforeign, heq⟩ |
      ⟨q, m, url, i, ⟨name, access, method⟩, g, o, rfl, hquestion, hgroup, hanswer, heq, hfs⟩
  -- Of the effects only two are replies of a peer.
  · exact hquiet.elim
  · cases congrArg Effect.event heq
  · cases congrArg Effect.event heq
  · cases congrArg Effect.event heq
  · obtain ⟨rfl, -⟩ := ofLoad_peerReply_inj heq
    exact Or.inl hforeign
  -- What a question was served as is known, and a good result is the value of the answer.
  · obtain ⟨haccess, hmethod⟩ := hc.served _ _ _ _ hquestion rfl
    cases haccess
    cases hmethod
    obtain ⟨rfl, hresult⟩ := ofLoad_peerReply_inj heq
    rw [eq_ok_of_result hresult] at hanswer
    exact Or.inr ⟨q, url, i, name, g, rfl, hquestion, hgroup, hanswer, hfs⟩

/-- An answer of the source comes alone, from the event that is this answer. -/
theorem Move.sourceReply_ok (h : Move c e fs questions) {l : LoadId} {bytes : List UInt8}
    (hf : .ofLoad l (.sourceReply l.access l.leader (.ok bytes)) ∈ fs) :
    e = .sourceReply l (.ok bytes) ∧
      fs = [.ofLoad l (.sourceReply l.access l.leader (.ok bytes))] := by
  rcases h.effect_cases hf with
    hquiet | ⟨j, n, a, client, k, -, heq, -⟩ |
      ⟨q, j, m, url, n, p, name, k, -, -, -, -, -, heq, -⟩ |
      ⟨m, reply, rfl, heq, hfs⟩ | ⟨m, reply, -, heq⟩ |
      ⟨q, m, url, i, inquiry, g, o, -, -, -, -, heq, -⟩
  · exact hquiet.elim
  · cases congrArg Effect.event heq
  · cases congrArg Effect.event heq
  · obtain ⟨node, group, access, leader⟩ := l
    obtain ⟨node', group', access', leader'⟩ := m
    cases heq
    exact ⟨rfl, hfs⟩
  · cases congrArg Effect.event heq
  · cases congrArg Effect.event heq

/-- A load that waits outside has not ended. -/
theorem ending?_of_request? {g : Group Caller} {access : Access} {leader : Caller}
    {request : Group.Request} (h : g.request? access leader = some request) :
    (g.flight access).ending? leader = none := by
  obtain ⟨phase, hwork⟩ : ∃ phase, (g.flight access).work? leader = some phase := by
    cases request with
    | peer address name key => exact ⟨_, (Group.request?_eq_peer.1 h).1⟩
    | source key => exact ⟨_, (Group.request?_eq_source.1 h).1⟩
  obtain ⟨key, hx⟩ := Flight.work?_eq_some.1 hwork
  exact Flight.ending?_underway hx

/-- A load that asks a peer of its node's pool is brought bytes by the answer to its own question
only. -/
theorem Move.reply_of_end (h : Move c e fs questions) (hc : c.Sound) {l : LoadId}
    {key baseUrl : String} {bytes : List UInt8} (hpool : c.usesPool l = true)
    (hask : c.load? l = some (key, .asking baseUrl))
    (hend : (c.moved fs questions).ended? l = some (.value ⟨bytes⟩)) :
    ∃ q url i name g, e = .respond q ∧
      c.questions[q]? = some ⟨l, url, .served i ⟨name, .direct, "GET"⟩⟩ ∧
      (c.applied [⟨i, name, .deliver .direct (.question q)⟩]).group? i name = some g ∧
      g.answer? .direct (.question q) = some (.ok ⟨bytes⟩) ∧
      fs = [⟨i, name, .deliver .direct (.question q)⟩,
        .ofLoad l (.peerReply l.access l.leader (.ok bytes))] := by
  obtain ⟨g, hgroup, hreq, -⟩ := asked_of_load? hask
  obtain ⟨g', hgroup', hend⟩ := Option.bind_eq_some_iff.1 hend
  have hmoved : (c.moved fs questions).group? l.node l.group
      = (c.group? l.node l.group).map fun g => g.run (eventsAt l.node l.group fs) :=
    group?_applied { c with questions := questions } fs l.node l.group
  rw [hmoved, hgroup] at hgroup'
  cases hgroup'
  -- The load asks a peer, so it has not ended yet: the end came with one of the effects.
  have hnew : (g.flight l.access).ending? l.leader ≠ some (.value ⟨bytes⟩) := by
    rw [ending?_of_request? hreq]
    exact fun h => by cases h
  obtain ⟨event, hmem, hbrings⟩ := Group.reply_of_ending hnew hend
  have hf := mem_eventsAt.1 hmem
  rcases hbrings with rfl | rfl
  · rcases h.peerReply_ok hc hf with hforeign | hrespond
    · rw [hpool] at hforeign
      cases hforeign
    · exact hrespond
  · -- the load does not wait for the source, so an answer of the source changes nothing
    obtain ⟨-, hfs⟩ := h.sourceReply_ok hf
    have hend : ((g.run (eventsAt l.node l.group fs)).flight l.access).ending? l.leader
        = some (.value ⟨bytes⟩) := hend
    rw [hfs] at hend
    rcases g.sourceReply_cases l.access l.leader (.ok bytes) with
      ⟨-, hsame⟩ | ⟨k, b, hsource, -, -⟩ | ⟨k, text, -, heq, -⟩
    · rw [Effect.ofLoad, eventsAt_self] at hend
      have hend : ((g.sourceReply l.access l.leader (.ok bytes)).flight l.access).ending? l.leader
          = some (.value ⟨bytes⟩) := hend
      rw [hsame] at hend
      exact absurd hend hnew
    · rw [hreq] at hsource
      cases hsource
    · cases heq

/-! ## What a node answers -/

/-- A node that answers a question with bytes has produced them for what the question's URL asks
for. -/
theorem product_of_answer (hc : c.Fresh) {events : List Event} {q i : Nat} {name : String}
    {g : Group Caller} {bytes : List UInt8} {x : Question}
    (hx : (c.run events).questions[q]? = some x)
    (hgroup : ((c.run events).applied [⟨i, name, .deliver .direct (.question q)⟩]).group? i name
      = some g)
    (hanswer : g.answer? .direct (.question q) = some (.ok ⟨bytes⟩)) :
    ∃ key, asked? Peer.defaultBasePath x.url = some (name, key) ∧
      ⟨i, name, key, bytes⟩ ∈ c.produced events := by
  -- The run of the cluster is a run of the group that has answered; there the value was produced.
  obtain ⟨es, hes⟩ := exists_account hc events i name
  rw [group?_applied, eventsAt_self, hes.group, Option.map_map] at hgroup
  obtain ⟨g₀, hg₀, rfl⟩ := Option.map_eq_some_iff.1 hgroup
  have hanswer : (g₀.run (es ++ [.deliver .direct (.question q)])).answer? .direct (.question q)
      = some (.ok ⟨bytes⟩) := by
    rw [Group.run_append]
    exact hanswer
  obtain ⟨access, key, hlookup, hproduced⟩ := Group.produced_of_answer (hc.unused hg₀) hanswer
  -- Picking the outcome up is no lookup, and produces nothing.
  have hlookup : .lookup (.question q) access key ∈ es := by
    rcases List.mem_append.1 hlookup with h | h
    · exact h
    · cases List.mem_singleton.1 h
  have hproduced : (key, bytes) ∈ g₀.produced es := by
    rw [Group.produced_append] at hproduced
    rcases List.mem_append.1 hproduced with h | h
    · exact h
    · cases h
  obtain ⟨y, hy, hasked⟩ := hes.looked q access key hlookup
  rw [hx] at hy
  cases hy
  exact ⟨key, hasked, hes.produced g₀ hg₀ _ hproduced⟩

/-! ## What the answer leaves behind -/

/-- The group of the load takes the answer, after it has answered the question itself if it is the
group that the question came to. -/
theorem run_answer (g : Group Caller) (l : LoadId) (i : Nat) (name : String) (q : Nat)
    (reply : Except CacheError (List UInt8)) :
    ∃ g', (g' = g ∨ g' = g.deliver .direct (.question q)) ∧
      g.run (eventsAt l.node l.group [⟨i, name, .deliver .direct (.question q)⟩,
        .ofLoad l (.peerReply l.access l.leader reply)]) =
          g'.peerReply l.access l.leader reply := by
  have hlast : eventsAt l.node l.group [.ofLoad l (.peerReply l.access l.leader reply)]
      = [.peerReply l.access l.leader reply] := eventsAt_self _ _ _
  unfold eventsAt at hlast ⊢
  rw [List.filter_cons]
  split
  · refine ⟨_, Or.inr rfl, ?_⟩
    rw [List.map_cons, hlast]
    rfl
  · refine ⟨_, Or.inl rfl, ?_⟩
    rw [hlast]
    rfl

/-- The answer of a peer is stored by the policy of the group that has asked. -/
theorem store_answer {g : Group Caller} {l : LoadId} {address group key : String}
    (hreq : g.request? l.access l.leader = some (.peer address group key)) (i : Nat)
    (name : String) (q : Nat) (bytes : List UInt8) :
    (g.run (eventsAt l.node l.group [⟨i, name, .deliver .direct (.question q)⟩,
      .ofLoad l (.peerReply l.access l.leader (.ok bytes))])).store =
        if g.policy = .populate then (g.store.insert key ⟨bytes⟩).1 else g.store := by
  obtain ⟨g', rfl | rfl, hrun⟩ := run_answer g l i name q (.ok bytes)
  · rw [hrun]
    exact Group.store_peerReply hreq bytes
  · have hreq' := (g.request?_deliver .direct (.question q) l.access l.leader).trans hreq
    have hpolicy : (g.deliver .direct (.question q)).policy = g.policy :=
      Group.policy_setFlight g .direct _
    have hstore : (g.deliver .direct (.question q)).store = g.store :=
      Group.store_setFlight g .direct _
    rw [hrun, Group.store_peerReply hreq' bytes, hpolicy, hstore]

/-- A caller that waits for a load that ends with a value is answered that value, if it is. -/
theorem answer_of_waits (hc : c.Fresh) {events later : List Event} {e : Event} {l : LoadId}
    {caller : Caller} {value : ByteView} {o : Outcome ByteView}
    (hwaits : (c.run events).waits l caller = true)
    (hend : ((c.run events).step e).ended? l = some (.value value))
    (ho : (c.run (events ++ e :: later)).answer? l.node l.group l.access caller = some o) :
    o = .ok value := by
  obtain ⟨g, hgroup, hwait⟩ := Option.bind_eq_some_iff.1 (of_decide_eq_true hwaits)
  obtain ⟨es, hes⟩ := c.group?_run events l.node l.group
  rw [hes] at hgroup
  obtain ⟨g₀, hg₀, rfl⟩ := Option.map_eq_some_iff.1 hgroup
  obtain ⟨last, hlast⟩ := (c.run events).group?_step e l.node l.group
  obtain ⟨rest, hrest⟩ := ((c.run events).step e).group?_run later l.node l.group
  rw [hes, hg₀] at hlast
  obtain ⟨g₁, hg₁, hend⟩ := Option.bind_eq_some_iff.1 hend
  cases hlast.symm.trans hg₁
  -- To the group the run is one in three parts: up to `e`, `e` itself, and what follows.
  have hfinal : (c.run (events ++ e :: later)).group? l.node l.group
      = some (g₀.run (es ++ (last ++ rest))) := by
    rw [run_append]
    show (((c.run events).step e).run later).group? l.node l.group = _
    rw [hrest, hlast, Group.run_append, Group.run_append]
    rfl
  unfold Cluster.answer? at ho
  rw [hfinal] at ho
  have hend' : ((g₀.run (es ++ (last ++ rest))).flight l.access).ending? l.leader
      = some (.value value) := by
    rw [Group.run_append, Group.run_append, Group.flight_run]
    exact (Flight.later_run _ _).ending? hend
  exact Group.answer_of_waiting (hc.unused hg₀) hwait hend' ho

/-! ## The value of a peer -/

/-- Node `i` produced `bytes` for the group and the key that the URL of question `q` names, and
that question is the one that load `l` asked at `baseUrl` for `key`. -/
structure ServedBy (c : Cluster) (events : List Event) (l : LoadId) (baseUrl key : String)
    (bytes : List UInt8) (q i : Nat) (url : Url) (group' key' : String) : Prop where
  request : Peer.request baseUrl l.group key = .ok url
  question : (c.run events).questions[q]?
    = some ⟨l, url, .served i ⟨group', .direct, "GET"⟩⟩
  asked : asked? Peer.defaultBasePath url = some (group', key')
  product : ⟨i, group', key', bytes⟩ ∈ c.produced events
  /-- Below the default base path the node was asked for what the load is for exactly if the
  group's name and the key survive the trip. -/
  same : Peer.AtRoot baseUrl →
    ((group' = l.group ∧ key' = key) ↔ (Peer.Plain l.group ∧ Peer.Plain key))

/-- A load that asks a peer of its node's pool and is ended with bytes by an event is ended by the
answer of a node that produced these bytes, for the group and the key of the load exactly if both
are plain. Under `populate` the bytes are kept under the load's key, and a caller that waited for
the load gets them or nothing. -/
theorem remote_value (hc : c.Fresh) (events : List Event) (e : Event) (l : LoadId)
    (key baseUrl : String) (bytes : List UInt8)
    (hpool : (c.run events).usesPool l = true)
    (hask : (c.run events).load? l = some (key, .asking baseUrl))
    (hend : ((c.run events).step e).ended? l = some (.value ⟨bytes⟩)) :
    (∃ q i url group' key', e = .respond q ∧
      ServedBy c events l baseUrl key bytes q i url group' key') ∧
    (∀ g g', (c.run events).group? l.node l.group = some g →
      ((c.run events).step e).group? l.node l.group = some g' →
      g'.store = if g.policy = .populate then (g.store.insert key ⟨bytes⟩).1 else g.store) ∧
    (∀ later caller o, (c.run events).waits l caller = true →
      (c.run (events ++ e :: later)).answer? l.node l.group l.access caller = some o →
      o = .ok ⟨bytes⟩) := by
  have hsound := hc.sound.run events
  obtain ⟨g, hgroup, hreq, hasked⟩ := asked_of_load? hask
  rcases (c.run events).move_step e with ⟨j, peers, rfl⟩ | ⟨fs, questions, hmove, hstep⟩
  · -- new peers end no load
    have hkeep : ((c.run events).step (.setPeers j peers)).group? l.node l.group
        = (c.run events).group? l.node l.group :=
      group?_updateNode _ j l.node l.group fun n => rfl
    have hsame := hkeep.trans hgroup
    obtain ⟨g', hg', hend⟩ := Option.bind_eq_some_iff.1 hend
    cases hsame.symm.trans hg'
    rw [ending?_of_request? hreq] at hend
    cases hend
  · have hend' := hend
    rw [hstep] at hend'
    obtain ⟨q, url, i, name, g', rfl, hquestion, hgroup', hanswer, hfs⟩ :=
      hmove.reply_of_end hsound hpool hask hend'
    refine ⟨?_, ?_, fun later caller o hwaits ho => answer_of_waits hc hwaits hend ho⟩
    · obtain ⟨key', hkey', hproduct⟩ := product_of_answer hc hquestion hgroup' hanswer
      obtain ⟨g'', base, k, hg'', hload, hrequest⟩ := hsound.asked q _ hquestion
      rw [hgroup] at hg''
      cases hg''
      -- the question is the one that the load asked: there is one key and one peer for a load
      have hk : k = key := Option.some.inj (hload.key.symm.trans hasked.key)
      have hbase : base = baseUrl := by
        rcases hload.phase _ (Group.request?_eq_peer.1 hreq).1 with hphase | hphase
        · cases hphase
          rfl
        · cases hphase
      subst hk hbase
      exact ⟨q, i, url, name, key', rfl, hrequest, hquestion, hkey', hproduct,
        fun hroot => Peer.asked_eq_iff hroot hrequest hkey'⟩
    · intro g₁ g₂ hg₁ hg₂
      have hmoved : ((c.run events).step (.respond q)).group? l.node l.group
          = ((c.run events).group? l.node l.group).map fun g =>
            g.run (eventsAt l.node l.group fs) := by
        rw [hstep]
        exact group?_applied { c.run events with questions := questions } fs _ _
      rw [hgroup] at hg₁ hmoved
      cases hg₁
      cases hmoved.symm.trans hg₂
      rw [hfs]
      exact store_answer hreq i name q bytes

/-! ### Two nodes -/

/-- A node at an address with a group `g`. -/
def nodeAt (addr : String) (peers : List String) (hasRouter : Bool) : Node where
  pool := some (Peer.Pool.setPeers ⟨addr, Peer.defaultBasePath, 1, .new 1 HashFn.crc32, .empty⟩
    peers)
  groups := Table.empty.insert "g" { Group.new "g" 0 .populate with hasRouter := hasRouter }
  routers := if hasRouter then Table.empty.insert "g" .pool else .empty

/-- Two nodes, of which the first asks the second. -/
def pair : Cluster where
  nodes := [
    nodeAt "http://[::1]:8001" ["http://[::1]:8001", "http://[::1]:8002"] true,
    nodeAt "http://[::1]:8002" [] false]
  questions := []

/-- The load of the first node. -/
def pairLoad : LoadId := ⟨0, "g", .routed, .client 0⟩

/-- A client of the first node asks for a key; the second node looks it up and its source has one
byte for it. -/
def untilAnswer (key : String) : List Event := [
  .lookup 0 "g" .routed 0 key,
  .start pairLoad none,
  .arrive 0 1,
  .start ⟨1, "g", .direct, .question 0⟩ none,
  .sourceReply ⟨1, "g", .direct, .question 0⟩ (.ok [1])]

theorem fresh_nodeAt (addr : String) (peers : List String) (hasRouter : Bool) :
    (nodeAt addr peers hasRouter).Fresh where
  basePath := by
    rintro p ⟨⟩
    rfl
  groups := by
    intro name g hg
    have hfind := Table.find?_insert Table.empty "g" name
      { (Group.new "g" 0 .populate : Group Caller) with hasRouter := hasRouter }
    rw [show (nodeAt addr peers hasRouter).groups.find? name = _ from hfind] at hg
    split at hg
    next hname =>
      cases hg
      exact ⟨0, .populate, hasRouter, hname ▸ rfl⟩
    next => cases hg

theorem fresh_pair : pair.Fresh where
  questions := rfl
  nodes := by
    intro n hn
    rcases List.mem_cons.1 hn with rfl | hn
    · exact fresh_nodeAt _ _ _
    · rw [List.mem_singleton.1 hn]
      exact fresh_nodeAt _ _ _

/-- A plain key comes to the second node as it is. -/
theorem remote_value_pair :
    (pair.run (untilAnswer "k")).usesPool pairLoad = true ∧
    (pair.run (untilAnswer "k")).load? pairLoad
      = some ("k", .asking "http://[::1]:8002/_distributed_cache/") ∧
    ((pair.run (untilAnswer "k")).step (.respond 0)).ended? pairLoad = some (.value ⟨[1]⟩) ∧
    ∃ i, ⟨i, "g", "k", [1]⟩ ∈ pair.produced (untilAnswer "k") := by
  have hpool : (pair.run (untilAnswer "k")).usesPool pairLoad = true := by decide +kernel
  have hask : (pair.run (untilAnswer "k")).load? pairLoad
      = some ("k", .asking "http://[::1]:8002/_distributed_cache/") := by decide +kernel
  have hend : ((pair.run (untilAnswer "k")).step (.respond 0)).ended? pairLoad
      = some (.value ⟨[1]⟩) := by decide +kernel
  have haddress : Peer.IsAddress "http://[::1]:8002" :=
    ⟨"http", by decide, "[::1]:8002", by decide, by decide,
      List.all_eq_true.1 (by decide : "[::1]:8002".toList.all Peer.inAuthority = true)⟩
  obtain ⟨⟨q, i, url, group', key', -, hserved⟩, -, -⟩ :=
    remote_value fresh_pair (untilAnswer "k") (.respond 0) pairLoad "k" _ [1] hpool hask hend
  refine ⟨hpool, hask, hend, i, ?_⟩
  obtain ⟨rfl, rfl⟩ := (hserved.same (Peer.atRoot_of_isAddress haddress)).2
    ⟨by decide, by decide⟩
  exact hserved.product

/-- A tabulator is lost on the way: the client that asked the first node for one key is answered,
and the node keeps under that key, what the second node produced for another. -/
theorem remote_value_of_other_key :
    let events := untilAnswer "a\tb" ++ [.respond 0, .deliver 0 "g" .routed 0]
    pair.produced events = [⟨1, "g", "ab", [1]⟩] ∧
    ((pair.run events).answer? 0 "g" .routed (.client 0)).bind Except.toOption = some ⟨[1]⟩ ∧
    ((pair.run events).group? 0 "g").map (fun g => g.store.entries)
      = some [("a\tb", ⟨[1]⟩)] := by
  decide +kernel

end Cluster

end PeerCache
