import Mathlib.Data.Set.Insert
import PeerCache.Proofs.Config.Ownership
import PeerCache.Proofs.Ring.Placement
/-!
# PeerCache — nodes that come and go

The replicas of fewer nodes are among those of all of them, in the same order (`placed_filter`). So
the position that serves a key, and the node that was the last there, stay as they are when other
nodes go (`get_without`), and a pool that is told fewer nodes still asks the same peer
(`pickPeer_without`).
-/

namespace PeerCache.Ring

/-! ## What stays on the ring -/

/-- The replicas of the nodes that stay are the replicas that stay. -/
theorem placed_filter (replicas : Nat) (nodes : List String) (stays : String → Bool) :
    placed replicas (nodes.filter stays) =
      (placed replicas nodes).filter fun v => stays v.node := by
  induction nodes with
  | nil => rfl
  | cons node rest ih =>
    show _ = ((List.range replicas).map (fun i => (⟨i, node⟩ : Replica)) ++
      placed replicas rest).filter _
    rw [List.filter_append, ← ih, List.filter_map]
    by_cases hstays : stays node
    · rw [List.filter_cons_of_pos hstays]
      simp [placed, Function.comp_def, hstays]
    · rw [List.filter_cons_of_neg hstays]
      simp [Function.comp_def, hstays]

/-- The last one at a position is the last one there too when others leave. -/
theorem LastAt.filter {hash : HashFn} {vs : List Replica} {p : UInt32} {node : String}
    (h : LastAt hash vs p node) {stays : String → Bool} (hstays : stays node) :
    LastAt hash (vs.filter fun v => stays v.node) p node := by
  obtain ⟨before, v, after, rfl, rfl, hp, hafter⟩ := h
  refine ⟨before.filter fun v => stays v.node, v, after.filter fun v => stays v.node, ?_, rfl, hp,
    fun w hw => hafter w (List.mem_filter.1 hw).1⟩
  rw [List.filter_append, List.filter_cons, if_pos hstays]

theorem LastAt.mem {hash : HashFn} {vs : List Replica} {p : UInt32} {node : String}
    (h : LastAt hash vs p node) : p ∈ vs.map (Replica.position hash) := by
  obtain ⟨before, v, after, rfl, -, rfl, -⟩ := h
  simp

/-! ## The owner of a key -/

/-- A key stays with its owner as long as that stays. -/
theorem get_without {hash : HashFn} {replicas : Nat} {nodes : List String} {key node : String}
    (h : ((new replicas hash).add nodes).get key = some node) {stays : String → Bool}
    (hstays : stays node) : ((new replicas hash).add (nodes.filter stays)).get key = some node := by
  obtain ⟨p, hserves, hlast⟩ := get_eq_some_iff.1 h
  apply get_eq_some_iff.2
  rw [placed_filter]
  have hlast' := hlast.filter hstays
  refine ⟨p, hserves.of_subset ?_ hlast'.mem, hlast'⟩
  exact List.map_subset _ (List.filter_subset_self _)

/-- A ring that loses nodes keeps all other owners. -/
theorem get_without_cases (hash : HashFn) (replicas : Nat) (nodes : List String)
    (stays : String → Bool) (key : String) :
    ((new replicas hash).add (nodes.filter stays)).get key =
        ((new replicas hash).add nodes).get key ∨
      ∃ node, stays node = false ∧ ((new replicas hash).add nodes).get key = some node := by
  cases hget : ((new replicas hash).add nodes).get key with
  | none =>
    left
    apply get_eq_none_iff.2
    rw [placed_filter, get_eq_none_iff.1 hget, List.filter_nil]
  | some node =>
    cases hstays : stays node with
    | true => exact Or.inl (get_without hget hstays)
    | false => exact Or.inr ⟨node, hstays, rfl⟩

/-- A key belongs to one of the nodes. -/
theorem mem_of_get {hash : HashFn} {replicas : Nat} {nodes : List String} {key node : String}
    (h : ((new replicas hash).add nodes).get key = some node) : node ∈ nodes := by
  obtain ⟨p, -, before, v, after, hplaced, rfl, -⟩ := get_eq_some_iff.1 h
  have hv : v ∈ placed replicas nodes := by simp [hplaced]
  obtain ⟨node, hnode, hv⟩ := List.mem_flatMap.1 hv
  obtain ⟨i, -, rfl⟩ := List.mem_map.1 hv
  exact hnode

end PeerCache.Ring

namespace PeerCache.Peer.Pool

/-- What a pool picks is told by the owner that its ring names. -/
theorem pickPeer_setPeers (p : Pool) (peers : List String) (key : String) :
    (p.setPeers peers).pickPeer key = ((p.setPeers peers).ring.get key).bind fun owner =>
      if owner = p.selfAddr then none else some (owner ++ p.basePath) := by
  have hknows : (p.setPeers peers).Knows (peers.map Text.trimSlashes) := knows_setPeers p rfl
  unfold pickPeer
  cases hget : (p.setPeers peers).ring.get key with
  | none => rfl
  | some owner =>
    have hmem : owner ∈ peers.map Text.trimSlashes := by
      rw [hknows.ring] at hget
      exact Ring.mem_of_get hget
    simp only [hknows.endpoints owner hmem, Option.bind_some]
    rfl

/-- A pool that is told fewer nodes asks the same peers for the keys of those that are left. -/
theorem pickPeer_without (p : Pool) (peers : List String) (stays : String → Bool) (key : String) :
    (p.setPeers (peers.filter fun a => stays (Text.trimSlashes a))).pickPeer key =
        (p.setPeers peers).pickPeer key ∨
      ∃ node, stays node = false ∧ (p.setPeers peers).ring.get key = some node := by
  have hfewer : (peers.filter fun a => stays (Text.trimSlashes a)).map Text.trimSlashes =
      (peers.map Text.trimSlashes).filter stays := by
    rw [List.filter_map]
    rfl
  rcases Ring.get_without_cases HashFn.crc32 p.replicas (peers.map Text.trimSlashes) stays key with
    hsame | hlost
  · left
    rw [← hfewer] at hsame
    have hrings : (p.setPeers (peers.filter fun a => stays (Text.trimSlashes a))).ring.get key =
        (p.setPeers peers).ring.get key := hsame
    rw [pickPeer_setPeers, pickPeer_setPeers, hrings]
  · exact Or.inr hlost

end PeerCache.Peer.Pool

namespace PeerCache.Ring

/-! ## Fewer nodes -/

variable (hash : HashFn) (replicas : Nat) (nodes : List String) (D : Set String)
  [DecidablePred (· ∈ D)]

/-- **Nodes that come and go.** Compare the ring of some nodes with the one from which all nodes of
`D` are left out. A key whose owner is not in `D` has the same owner on both, so a key that changes
hands belongs to a node of `D` on the larger ring: new nodes, wherever they stand in the list, only
take keys for themselves, and nodes that go only give up their own. The same holds of the peers that
a pool picks when it is told fewer nodes. -/
theorem owner_without_nodes :
    (∀ key node, ((new replicas hash).add nodes).get key = some node → node ∉ D →
      ((new replicas hash).add (nodes.filter (· ∉ D))).get key = some node) ∧
    (∀ key, ((new replicas hash).add nodes).get key ≠
        ((new replicas hash).add (nodes.filter (· ∉ D))).get key →
      ∃ node ∈ D, ((new replicas hash).add nodes).get key = some node) ∧
    ∀ (p : Peer.Pool) (peers : List String) (key : String),
      (p.setPeers peers).pickPeer key ≠
        (p.setPeers (peers.filter fun a => Text.trimSlashes a ∉ D)).pickPeer key →
      ∃ node ∈ D, (p.setPeers peers).ring.get key = some node := by
  refine ⟨?_, ?_, ?_⟩
  · intro key node hget hnode
    exact get_without hget (by simpa using hnode)
  · intro key hne
    rcases get_without_cases hash replicas nodes (· ∉ D) key with hsame | ⟨node, hgone, hget⟩
    · exact absurd hsame.symm hne
    · exact ⟨node, by simpa using hgone, hget⟩
  · intro p peers key hne
    rcases p.pickPeer_without peers (· ∉ D) key with hsame | ⟨node, hgone, hget⟩
    · exact absurd hsame.symm hne
    · exact ⟨node, by simpa using hgone, hget⟩

/-- A pool that knows nobody. -/
def lonePool : Peer.Pool where
  selfAddr := "http://n1"
  basePath := "/c/"
  replicas := 1
  ring := .new 1 HashFn.crc32
  endpoints := .empty

/-- A node goes: one key keeps its owner, another one was its own. And a pool that is told one peer
fewer loses it. -/
theorem owner_without_bb :
    (((new 1 HashFn.length).add ["a", "bb", "a"]).get "x" = some "a" ∧
      ((new 1 HashFn.length).add (["a", "bb", "a"].filter (· ∉ ({"bb"} : Set String)))).get "x" =
        some "a") ∧
    (((new 1 HashFn.length).add ["a", "bb", "a"]).get "xxx" ≠
        ((new 1 HashFn.length).add (["a", "bb", "a"].filter (· ∉ ({"bb"} : Set String)))).get
          "xxx" ∧
      ∃ node ∈ ({"bb"} : Set String),
        ((new 1 HashFn.length).add ["a", "bb", "a"]).get "xxx" = some node) ∧
    (lonePool.setPeers ["http://n1", "http://n2/"]).pickPeer "y" = some "http://n2/c/" ∧
    ∃ node ∈ ({"http://n2"} : Set String),
      (lonePool.setPeers ["http://n1", "http://n2/"]).ring.get "y" = some node := by
  have hkept : ((new 1 HashFn.length).add ["a", "bb", "a"]).get "x" = some "a" := by decide
  have hmoved : ((new 1 HashFn.length).add ["a", "bb", "a"]).get "xxx" ≠
      ((new 1 HashFn.length).add (["a", "bb", "a"].filter (· ∉ ({"bb"} : Set String)))).get
        "xxx" := by decide
  have hpick : (lonePool.setPeers ["http://n1", "http://n2/"]).pickPeer "y" =
      some "http://n2/c/" := by decide +kernel
  have hlost : (lonePool.setPeers ["http://n1", "http://n2/"]).pickPeer "y" ≠
      (lonePool.setPeers (["http://n1", "http://n2/"].filter fun a =>
        Text.trimSlashes a ∉ ({"http://n2"} : Set String))).pickPeer "y" := by decide +kernel
  obtain ⟨hsame, hchange, -⟩ :=
    owner_without_nodes HashFn.length 1 ["a", "bb", "a"] ({"bb"} : Set String)
  obtain ⟨-, -, hpool⟩ := owner_without_nodes HashFn.crc32 1 [] ({"http://n2"} : Set String)
  exact ⟨⟨hkept, hsame "x" "a" hkept (by decide)⟩, ⟨hmoved, hchange "xxx" hmoved⟩, hpick,
    hpool _ _ "y" hlost⟩

end PeerCache.Ring
