import Mathlib.Data.List.Perm.Basic
import PeerCache.Proofs.Ring.Membership
/-!
# PeerCache — the order of the nodes

The same nodes in another order bring the same replicas (`placed_perm`), so the same position serves
each key. Who owns the key can change only if replicas of two nodes stand there, since the last one
counts (**`get_perm`**). And it does change: a node at the end of the list takes every position at
which it has a replica (**`get_concat`**). So the order is without effect exactly for nodes that are
`Apart`.
-/

namespace PeerCache.Ring

variable {hash : HashFn} {replicas : Nat} {nodes nodes' : List String} {key : String}

/-! ## The replicas in another order -/

theorem placed_perm (h : nodes'.Perm nodes) :
    (placed replicas nodes').Perm (placed replicas nodes) :=
  h.flatMap_right _

/-- What is placed are the replicas of each node, with the numbers from zero on. -/
theorem mem_placed {v : Replica} :
    v ∈ placed replicas nodes ↔ v.index < replicas ∧ v.node ∈ nodes := by
  unfold placed
  rw [List.mem_flatMap]
  constructor
  · rintro ⟨node, hnode, hv⟩
    obtain ⟨i, hi, rfl⟩ := List.mem_map.1 hv
    exact ⟨List.mem_range.1 hi, hnode⟩
  · rintro ⟨hi, hnode⟩
    exact ⟨v.node, hnode, List.mem_map.2 ⟨v.index, List.mem_range.2 hi, rfl⟩⟩

/-- Who is last at a position has a replica there. -/
theorem LastAt.exists_replica {vs : List Replica} {p : UInt32} {node : String}
    (h : LastAt hash vs p node) : ∃ v ∈ vs, v.node = node ∧ v.position hash = p := by
  obtain ⟨before, v, after, rfl, hnode, hp, -⟩ := h
  exact ⟨v, by simp, hnode, hp⟩

/-- Another order leaves a key with its owner, unless two nodes meet at the position that serves
the key. -/
theorem get_perm (h : nodes'.Perm nodes) (key : String) :
    ((new replicas hash).add nodes').get key = ((new replicas hash).add nodes).get key ∨
      ∃ v ∈ placed replicas nodes, ∃ w ∈ placed replicas nodes, v.node ≠ w.node ∧
        v.position hash = w.position hash ∧
        Serves ((placed replicas nodes).map (Replica.position hash)) (hash (Text.utf8 key))
          (v.position hash) ∧
        ((new replicas hash).add nodes).get key = some v.node ∧
        ((new replicas hash).add nodes').get key = some w.node := by
  have hplaced : (placed replicas nodes').Perm (placed replicas nodes) := placed_perm h
  -- An empty ring stays empty in every order.
  cases hget : ((new replicas hash).add nodes).get key with
  | none =>
    left
    rw [get_eq_none_iff] at hget ⊢
    exact (hget ▸ hplaced).eq_nil
  | some a =>
    cases hget' : ((new replicas hash).add nodes').get key with
    | none =>
      rw [get_eq_none_iff] at hget'
      rw [get_eq_none_iff.2 (hget' ▸ hplaced).symm.eq_nil] at hget
      cases hget
    | some b =>
      obtain ⟨p, hserves, hlast⟩ := get_eq_some_iff.1 hget
      obtain ⟨p', hserves', hlast'⟩ := get_eq_some_iff.1 hget'
      -- The positions are the same set, so both rings are served from one position.
      rw [serves_congr fun q => (hplaced.map (Replica.position hash)).mem_iff] at hserves'
      obtain rfl : p = p' := hserves.unique hserves'
      obtain ⟨v, hv, rfl, hvp⟩ := hlast.exists_replica
      obtain ⟨w, hw, rfl, hwp⟩ := hlast'.exists_replica
      -- There the last one placed answers: the same node, or two that meet on it.
      by_cases hne : v.node = w.node
      · exact Or.inl (congrArg some hne.symm)
      · exact Or.inr ⟨v, hv, w, hplaced.mem_iff.1 hw, hne, hvp.trans hwp.symm, hvp ▸ hserves,
          rfl, rfl⟩

/-! ## The node at the end -/

/-- A node at the end of the list is the last one at the position of each of its replicas. -/
theorem lastAt_concat (nodes : List String) {v : Replica} (hv : v.index < replicas) :
    LastAt hash (placed replicas (nodes ++ [v.node])) (v.position hash) v.node := by
  have hsplit : placed replicas (nodes ++ [v.node]) =
      placed replicas nodes ++ placed replicas [v.node] := by simp [placed]
  have hmem : v ∈ placed replicas [v.node] := mem_placed.2 ⟨hv, List.mem_singleton.2 rfl⟩
  -- the replicas that are looked at first are all of this node
  cases hfind : (placed replicas [v.node]).reverse.find?
      fun w => w.position hash = v.position hash with
  | none =>
    have hfree := List.find?_eq_none.1 hfind v (List.mem_reverse.2 hmem)
    exact absurd (decide_eq_true rfl) hfree
  | some w =>
    have hw : w ∈ placed replicas [v.node] :=
      List.mem_reverse.1 (List.mem_of_find?_eq_some hfind)
    rw [lastAt_iff, hsplit, List.reverse_append, List.find?_append, hfind]
    exact congrArg some (List.mem_singleton.1 (mem_placed.1 hw).2)

/-- A node at the end of the list owns every key that stands where it has a replica. -/
theorem get_concat (nodes : List String) {v : Replica} (hv : v.index < replicas)
    (hkey : hash (Text.utf8 key) = v.position hash) :
    ((new replicas hash).add (nodes ++ [v.node])).get key = some v.node := by
  apply get_eq_some_iff.2
  refine ⟨v.position hash, ⟨?_, Or.inl ⟨hkey ▸ UInt32.le_refl _, ?_⟩⟩, lastAt_concat nodes hv⟩
  · exact List.mem_map_of_mem (mem_placed.2 ⟨hv, by simp⟩)
  · intro q _ hle
    exact hkey ▸ hle

/-- Any node of the list can be moved to its end. -/
theorem erase_concat_perm {node : String} (h : node ∈ nodes) :
    (nodes.erase node ++ [node]).Perm nodes :=
  List.perm_append_singleton node _ |>.trans (List.perm_cons_erase h).symm

/-! ## Every order -/

/-- The order of the nodes does not matter exactly if no two of them share a position. -/
theorem get_perm_iff_apart :
    (∀ nodes', nodes'.Perm nodes → ∀ key,
      ((new replicas hash).add nodes').get key = ((new replicas hash).add nodes).get key) ↔
    Apart hash replicas nodes := by
  constructor
  · intro hsame v hv w hw hmeet
    -- the label of the one is a key at the position of both
    have hkey : hash (Text.utf8 (label v.index v.node)) = v.position hash := rfl
    have hget := get_concat (nodes.erase v.node) (mem_placed.1 hv).1 hkey
    have hget' := get_concat (nodes.erase w.node) (mem_placed.1 hw).1 (hkey.trans hmeet)
    rw [hsame _ (erase_concat_perm (mem_placed.1 hv).2)] at hget
    rw [hsame _ (erase_concat_perm (mem_placed.1 hw).2), hget] at hget'
    exact Option.some.inj hget'
  · intro hapart nodes' hperm key
    rcases get_perm hperm key with hsame | ⟨v, hv, w, hw, hne, hmeet, -⟩
    · exact hsame
    · exact absurd (hapart v hv w hw hmeet) hne

/-- **The order of the nodes.** Compare the rings of the same nodes in two orders. A key changes
hands only if replicas of both owners stand at the position that serves it. No order changes the
owner of any key exactly when no two different nodes have replicas at one position. Then pools that
are told the same nodes in different orders agree on the node that each key belongs to. -/
theorem order_of_nodes (hash : HashFn) (replicas : Nat) (nodes : List String) :
    (∀ nodes', nodes'.Perm nodes → ∀ key,
      ((new replicas hash).add nodes').get key = ((new replicas hash).add nodes).get key ∨
      ∃ v ∈ placed replicas nodes, ∃ w ∈ placed replicas nodes, v.node ≠ w.node ∧
        v.position hash = w.position hash ∧
        Serves ((placed replicas nodes).map (Replica.position hash)) (hash (Text.utf8 key))
          (v.position hash) ∧
        ((new replicas hash).add nodes).get key = some v.node ∧
        ((new replicas hash).add nodes').get key = some w.node) ∧
    ((∀ nodes', nodes'.Perm nodes → ∀ key,
        ((new replicas hash).add nodes').get key = ((new replicas hash).add nodes).get key) ↔
      Apart hash replicas nodes) ∧
    ∀ (p q : Peer.Pool) (peers peers' : List String), peers'.Perm peers → q.replicas = p.replicas →
      Apart HashFn.crc32 p.replicas (peers.map Text.trimSlashes) → ∀ key,
        (q.setPeers peers').ring.get key = (p.setPeers peers).ring.get key ∧
        ∀ o, (p.setPeers peers).ring.get key = some o →
          (p.setPeers peers).Owner key o ∧ (q.setPeers peers').Owner key o := by
  refine ⟨fun nodes' hperm key => get_perm hperm key, get_perm_iff_apart, ?_⟩
  intro p q peers peers' hperm hreplicas hapart key
  have hknows : (p.setPeers peers).Knows (peers.map Text.trimSlashes) := p.knows_setPeers rfl
  have hknows' : (q.setPeers peers').Knows (peers'.map Text.trimSlashes) := q.knows_setPeers rfl
  have hsame : (q.setPeers peers').ring.get key = (p.setPeers peers).ring.get key := by
    rw [hknows.ring, hknows'.ring, show (q.setPeers peers').replicas = p.replicas from hreplicas]
    exact get_perm_iff_apart.2 hapart _ (hperm.map Text.trimSlashes) key
  refine ⟨hsame, fun o ho => ⟨hknows.owner ?_ ho, hknows'.owner ?_ (hsame ▸ ho)⟩⟩
  · exact mem_of_get (hknows.ring ▸ ho)
  · exact mem_of_get (hknows'.ring ▸ hsame ▸ ho)

/-- Two nodes apart from one another, told in either order and with a slash at the end of one. -/
theorem order_of_two_nodes :
    ["http://n2/", "http://n1"].Perm ["http://n1", "http://n2/"] ∧
    Apart HashFn.crc32 1 (["http://n1", "http://n2/"].map Text.trimSlashes) ∧
    (lonePool.setPeers ["http://n2/", "http://n1"]).ring.get "y" =
      (lonePool.setPeers ["http://n1", "http://n2/"]).ring.get "y" := by
  have hperm : ["http://n2/", "http://n1"].Perm ["http://n1", "http://n2/"] :=
    List.Perm.swap _ _ []
  have hapart : Apart HashFn.crc32 1 (["http://n1", "http://n2/"].map Text.trimSlashes) := by
    decide +kernel
  obtain ⟨-, -, hpools⟩ := order_of_nodes HashFn.crc32 1 []
  exact ⟨hperm, hapart, (hpools lonePool lonePool _ _ hperm rfl hapart "y").1⟩

/-- Two addresses of one length with one checksum stand at the same positions, so the one that is
listed last owns every key. -/
theorem order_of_meeting_nodes :
    ["http://10.138.190.104:8564", "http://10.252.174.232:8281"].Nodup ∧
    ["http://10.252.174.232:8281", "http://10.138.190.104:8564"].Perm
      ["http://10.138.190.104:8564", "http://10.252.174.232:8281"] ∧
    ((new 50 HashFn.crc32).add
      ["http://10.138.190.104:8564", "http://10.252.174.232:8281"]).get
        "0http://10.138.190.104:8564" = some "http://10.252.174.232:8281" ∧
    ((new 50 HashFn.crc32).add
      ["http://10.252.174.232:8281", "http://10.138.190.104:8564"]).get
        "0http://10.138.190.104:8564" = some "http://10.138.190.104:8564" := by
  refine ⟨by decide, List.Perm.swap _ _ _, ?_, ?_⟩
  · exact get_concat ["http://10.138.190.104:8564"] (v := ⟨0, "http://10.252.174.232:8281"⟩)
      (by decide) (by decide +kernel)
  · exact get_concat ["http://10.252.174.232:8281"] (v := ⟨0, "http://10.138.190.104:8564"⟩)
      (by decide) (by decide +kernel)

end PeerCache.Ring
