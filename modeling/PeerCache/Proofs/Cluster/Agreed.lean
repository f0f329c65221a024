import PeerCache.Cluster.Waiting
import PeerCache.Proofs.Cluster.Questions
import PeerCache.Proofs.Peer.Reach
import PeerCache.Proofs.Ring.Membership
/-!
# PeerCache — clusters whose nodes agree

The pools of a cluster have been told the same addresses, and each address leads to the node that
has it as its own. So a key has one owner.

* **`Node.Member`**, **`Agreed`** — what the nodes have in common. `Member` is kept by a run
  (**`members_step`**).
* **`Admits`** — what may happen: questions come to the node that they are for, and otherwise
  nothing is looked up directly.
* **`peerFor_of_members`** — a pool picks the owner of a key, and nobody on the owner itself.
-/

namespace PeerCache

/-! ## Nodes that agree -/

/-- The node is one of those at `addrs`: its pool has been told these addresses, one of which is its
own, and has the default base path; and the pool is the router of all its groups. -/
structure Node.Member (addrs : List String) (replicas : Nat) (n : Node) : Prop where
  pool : ∃ p, n.pool = some p ∧ p.basePath = Peer.defaultBasePath ∧ p.replicas = replicas ∧
    p.selfAddr ∈ addrs ∧ p.Knows addrs
  groups : ∀ name g, n.groups.find? name = some g →
    g.hasRouter = true ∧ n.routers.find? name = some .pool

namespace Cluster

variable {addrs : List String} {replicas : Nat} {c : Cluster} {e : Event} {events : List Event}

/-- Nothing has been asked yet, the nodes agree on the addresses, and different addresses lead to
different places. -/
structure Agreed (addrs : List String) (replicas : Nat) (c : Cluster) : Prop where
  unasked : c.Unasked
  members : ∀ n ∈ c.nodes, n.Member addrs replicas
  addresses : ∀ a ∈ addrs, Peer.IsAddress a
  apart : ∀ a ∈ addrs, ∀ b ∈ addrs, ∀ origin,
    Peer.originOf? a = some origin → Peer.originOf? b = some origin → a = b

/-- The node is the owner of the key, if the key has one. -/
def Owns (addrs : List String) (replicas : Nat) (c : Cluster) (i : Nat) (key : String) : Prop :=
  ∀ o, ownerOf addrs replicas key = some o → c.selfAddr? i = some o

/-- What may happen in a cluster. Clients look keys up that have no tab and no line end, a question
comes to the node that it is for, and a pool is told nothing new. A direct lookup is made only at
the owner of its key, as for a question that comes after its load has given it up. -/
def Admits (addrs : List String) (replicas : Nat) (c : Cluster) : Event → Prop
  | .setPeers _ peers => peers.map Text.trimSlashes = addrs
  | .lookup i _ access _ key => Peer.Plain key ∧ (access = .direct → c.Owns addrs replicas i key)
  | .arrive q i => c.LeadsTo q i
  | _ => True

/-- Nothing else happens in a run. -/
def Admitted (addrs : List String) (replicas : Nat) (c : Cluster) : List Event → Prop
  | [] => True
  | e :: es => c.Admits addrs replicas e ∧ (c.step e).Admitted addrs replicas es

/-- A run is admitted exactly if all but its last event is, and the last one where this leads to. -/
theorem admitted_concat : c.Admitted addrs replicas (events ++ [e]) ↔
    c.Admitted addrs replicas events ∧ (c.run events).Admits addrs replicas e := by
  induction events generalizing c with
  | nil => simp [Admitted, run]
  | cons first rest ih =>
    show c.Admits addrs replicas first ∧ (c.step first).Admitted addrs replicas (rest ++ [e]) ↔ _
    rw [ih, ← and_assoc]
    rfl

/-! ## What stays of a node -/

/-- A change to a node that leaves its pool's own address leaves the addresses of all nodes. -/
theorem selfAddr?_updateNode (c : Cluster) (j i : Nat) {f : Node → Node}
    (hf : ∀ n, (f n).pool.map Peer.Pool.selfAddr = n.pool.map Peer.Pool.selfAddr) :
    (c.updateNode j f).selfAddr? i = c.selfAddr? i := by
  unfold selfAddr? updateNode
  rw [List.getElem?_modify]
  cases c.nodes[i]? with
  | none => rfl
  | some n =>
    by_cases hj : j = i
    · simpa [hj] using hf n
    · simp [hj]

/-- A change that keeps a member one keeps all of them. -/
theorem members_updateNode {f : Node → Node} (j : Nat)
    (h : ∀ n ∈ c.nodes, n.Member addrs replicas)
    (hf : ∀ n : Node, n.Member addrs replicas → (f n).Member addrs replicas) :
    ∀ n ∈ (c.updateNode j f).nodes, n.Member addrs replicas := by
  intro n hn
  obtain ⟨i, hi⟩ := List.mem_iff_getElem?.1 hn
  have hi : (c.nodes.modify j f)[i]? = some n := hi
  rw [List.getElem?_modify] at hi
  obtain ⟨m, hm, rfl⟩ := Option.map_eq_some_iff.1 hi
  have hmember := h m (List.mem_of_getElem? hm)
  split
  · exact hf m hmember
  · exact hmember

end Cluster

namespace Node.Member

variable {addrs : List String} {replicas : Nat} {n : Node}

/-- A member stays one when something happens in a group. -/
theorem updateGroup (h : n.Member addrs replicas) (name : String) (e : Group.Event Caller) :
    (n.updateGroup name fun g => g.step e).Member addrs replicas where
  pool := h.pool
  groups := by
    intro other g hg
    have hg : (n.groups.modify name fun g => g.step e).find? other = some g := hg
    rw [Table.find?_modify] at hg
    split at hg
    next hname =>
      obtain ⟨g₀, hg₀, rfl⟩ := Option.map_eq_some_iff.1 hg
      subst hname
      exact ⟨Group.hasRouter_step (h.groups _ g₀ hg₀).1 e, (h.groups _ g₀ hg₀).2⟩
    next => exact h.groups other g hg

/-- A member stays one when its pool is told the addresses again. -/
theorem setPeers (h : n.Member addrs replicas) {peers : List String}
    (hpeers : peers.map Text.trimSlashes = addrs) : (n.setPeers peers).Member addrs replicas where
  pool := by
    obtain ⟨p, hp, hbase, hreplicas, hself, -⟩ := h.pool
    refine ⟨p.setPeers peers, ?_, hbase, hreplicas, hself, p.knows_setPeers hpeers⟩
    show n.pool.map _ = _
    rw [hp]
    rfl
  groups := h.groups

end Node.Member

namespace Cluster

variable {addrs : List String} {replicas : Nat} {c : Cluster} {e : Event} {events : List Event}

theorem selfAddr?_applied (c : Cluster) (fs : List Effect) (i : Nat) :
    (c.applied fs).selfAddr? i = c.selfAddr? i := by
  induction fs generalizing c with
  | nil => rfl
  | cons f fs ih => exact (ih _).trans (c.selfAddr?_updateNode f.node i fun _ => rfl)

theorem members_applied (h : ∀ n ∈ c.nodes, n.Member addrs replicas) (fs : List Effect) :
    ∀ n ∈ (c.applied fs).nodes, n.Member addrs replicas := by
  induction fs generalizing c with
  | nil => exact h
  | cons f fs ih =>
    exact ih (members_updateNode f.node h fun n hn => hn.updateGroup f.group f.event)

/-- Nothing that happens changes the own address of a node. -/
theorem selfAddr?_step (c : Cluster) (e : Event) (i : Nat) :
    (c.step e).selfAddr? i = c.selfAddr? i := by
  rcases c.move_step e with ⟨j, peers, rfl⟩ | ⟨fs, questions, -, hstep⟩
  · refine c.selfAddr?_updateNode j i fun n => ?_
    show (n.pool.map fun p => p.setPeers peers).map Peer.Pool.selfAddr = _
    rw [Option.map_map]
    rfl
  · rw [hstep]
    exact selfAddr?_applied _ fs i

theorem selfAddr?_run (c : Cluster) (events : List Event) (i : Nat) :
    (c.run events).selfAddr? i = c.selfAddr? i := by
  induction events generalizing c with
  | nil => rfl
  | cons e es ih => exact (ih (c.step e)).trans (c.selfAddr?_step e i)

/-- What may happen keeps the members. -/
theorem members_step (h : ∀ n ∈ c.nodes, n.Member addrs replicas)
    (hadmits : c.Admits addrs replicas e) :
    ∀ n ∈ (c.step e).nodes, n.Member addrs replicas := by
  rcases c.move_step e with ⟨j, peers, rfl⟩ | ⟨fs, questions, -, hstep⟩
  · exact members_updateNode j h fun n hn => hn.setPeers hadmits
  · rw [hstep]
    exact members_applied (c := { c with questions := questions }) h fs

/-! ## What a pool picks -/

theorem node_of_group? {i : Nat} {name : String} {g : Group Caller}
    (h : c.group? i name = some g) :
    ∃ n, c.nodes[i]? = some n ∧ n.groups.find? name = some g :=
  Option.bind_eq_some_iff.1 h

/-- Every group asks the pool of its node. -/
theorem usesPool_of_members (h : ∀ n ∈ c.nodes, n.Member addrs replicas) {l : LoadId}
    {g : Group Caller} (hg : c.group? l.node l.group = some g) :
    g.hasRouter = true ∧ c.usesPool l = true := by
  obtain ⟨n, hn, hfind⟩ := node_of_group? hg
  obtain ⟨hrouter, hpool⟩ := (h n (List.mem_of_getElem? hn)).groups _ g hfind
  refine ⟨hrouter, ?_⟩
  unfold usesPool
  rw [hn]
  exact decide_eq_true hpool

/-- A pool picks the owner of the key, and nobody on the owner itself. -/
theorem peerFor_of_members (h : ∀ n ∈ c.nodes, n.Member addrs replicas) {l : LoadId}
    {g : Group Caller} (hg : c.group? l.node l.group = some g) (key : String) :
    (c.peerFor l key = none ∧ c.Owns addrs replicas l.node key) ∨
    ∃ o, ownerOf addrs replicas key = some o ∧
      c.peerFor l key = some (o ++ Peer.defaultBasePath) := by
  obtain ⟨n, hn, -⟩ := node_of_group? hg
  obtain ⟨p, hp, hbase, rfl, -, hknows⟩ := (h n (List.mem_of_getElem? hn)).pool
  have hpick : c.peerFor l key = p.pickPeer key := by
    unfold peerFor
    rw [hn, Option.bind_some, hp, Option.bind_some]
  have hself : c.selfAddr? l.node = some p.selfAddr := by
    unfold selfAddr?
    rw [hn, Option.bind_some, hp]
    rfl
  have hring : p.ring.get key = ownerOf addrs p.replicas key := by
    rw [hknows.ring]
    rfl
  -- What the pool picks is now read off the ring, which is the one that all nodes have.
  rw [hpick]
  cases howner : ownerOf addrs p.replicas key with
  | none =>
    left
    rw [howner] at hring
    refine ⟨?_, fun o ho => ?_⟩
    · unfold Peer.Pool.pickPeer
      rw [hring]
    · rw [howner] at ho
      cases ho
  | some o =>
    have hpicks := hknows.owner (Ring.mem_of_get howner) (hring.trans howner)
    -- An owner is a node of the ring, so the pool has an endpoint for it, unless it is its own.
    by_cases heq : p.selfAddr = o
    · refine Or.inl ⟨hpicks.here.2 heq, fun o' ho' => ?_⟩
      rw [howner] at ho'
      cases ho'
      rw [hself, heq]
    · exact Or.inr ⟨o, rfl, by rw [hpicks.there heq, hbase]⟩

end Cluster

end PeerCache
