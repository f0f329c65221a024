import PeerCache.Config.Pool
import PeerCache.Proofs.Config.Valid
import PeerCache.Proofs.Ring.Points
/-!
# PeerCache — nodes that agree on the owner of a key

The nodes of a cluster are configured one by one, and each makes a ring of its own. What they have
to agree on for one owner of each key are the tidy addresses and the number of points:

* **`Pool.Knows`** — a pool that has been told addresses has just these on its ring, with an
  endpoint for each. So a key belongs to the node that the ring names (**`Knows.owner`**), and to no
  other (**`Owner.unique`**).
* **`pool_of_valid`** — settings that are accepted make such a pool, whatever it was told earlier.

The last section has the result for all nodes of a cluster.
-/

namespace PeerCache

/-- A table filled with `f` of each key has `f` of these keys and what it had before. -/
theorem Table.find?_foldl_insert {κ ν : Type} [DecidableEq κ] (f : κ → ν) (t : Table κ ν)
    (keys : List κ) (k : κ) :
    ((keys.map fun a => (a, f a)).foldl (fun t e => t.insert e.1 e.2) t).find? k =
      if k ∈ keys then some (f k) else t.find? k := by
  induction keys generalizing t with
  | nil => rfl
  | cons a keys ih =>
    show ((keys.map fun a => (a, f a)).foldl _ (t.insert a (f a))).find? k = _
    rw [ih, Table.find?_insert]
    by_cases hmem : k ∈ keys
    · rw [if_pos hmem, if_pos (List.mem_cons_of_mem a hmem)]
    · by_cases hk : k = a
      · subst hk
        rw [if_neg hmem, if_pos rfl, if_pos List.mem_cons_self]
      · rw [if_neg hmem, if_neg hk, if_neg fun h => (List.mem_cons.1 h).elim hk hmem]

/-! ## A pool and the nodes it was told -/

namespace Peer.Pool

variable {p : Pool} {addrs : List String}

/-- The pool has these addresses on its ring, and an endpoint for each. -/
structure Knows (p : Pool) (addrs : List String) : Prop where
  ring : p.ring = (Ring.new p.replicas HashFn.crc32).add addrs
  endpoints : ∀ a ∈ addrs, p.endpoints.find? a = some (a ++ p.basePath)

/-- A pool that is told some peers knows them, without the slashes at their ends. -/
theorem knows_setPeers (p : Pool) {peers : List String}
    (haddrs : peers.map Text.trimSlashes = addrs) : (p.setPeers peers).Knows addrs := by
  subst haddrs
  refine ⟨rfl, fun a ha => ?_⟩
  exact (Table.find?_foldl_insert (fun a => a ++ p.basePath) .empty _ a).trans (if_pos ha)

/-- Only the last list counts. -/
theorem setPeers_foldl (p : Pool) (earlier : List (List String)) (peers : List String) :
    (earlier.foldl setPeers p).setPeers peers = p.setPeers peers := by
  induction earlier generalizing p with
  | nil => rfl
  | cons first rest ih => exact ih (p.setPeers first)

/-- To the pool, the key belongs to the node at `o`: it is resolved here if that is this node, and
otherwise asked for there. -/
structure Owner (p : Pool) (key o : String) : Prop where
  here : p.pickPeer key = none ↔ p.selfAddr = o
  there : p.selfAddr ≠ o → p.pickPeer key = some (o ++ p.basePath)

/-- A key belongs to the node that the ring names. -/
theorem Knows.owner (h : p.Knows addrs) {key o : String} (ho : o ∈ addrs)
    (hget : p.ring.get key = some o) : p.Owner key o := by
  have hpick : p.pickPeer key = if o = p.selfAddr then none else some (o ++ p.basePath) := by
    unfold pickPeer
    rw [hget]
    show (if o = p.selfAddr then none else p.endpoints.find? o) = _
    rw [h.endpoints o ho]
  constructor
  · rw [hpick]
    by_cases hself : o = p.selfAddr
    · rw [if_pos hself]
      exact ⟨fun _ => hself.symm, fun _ => rfl⟩
    · rw [if_neg hself]
      exact ⟨fun hnone => (by cases hnone), fun heq => absurd heq.symm hself⟩
  · intro hself
    rw [hpick, if_neg fun heq => hself heq.symm]

/-- A key has one owner in a pool. -/
theorem Owner.unique {key o o' : String} (h : p.Owner key o) (h' : p.Owner key o') : o' = o := by
  by_cases hself : p.selfAddr = o
  · exact (h'.here.1 (h.here.2 hself)).symm.trans hself
  · have hself' : p.selfAddr ≠ o' := fun heq => hself (h.here.1 (h'.here.2 heq))
    have hsame := (h'.there hself').symm.trans (h.there hself)
    exact (String.append_left_inj _).1 (Option.some.inj hsame)

end Peer.Pool

namespace Settings

/-- Valid settings make a pool that knows their peers, whatever it had been told earlier. -/
theorem pool_of_valid {s : Settings} (h : s.Valid) (earlier : List (List String)) :
    ∃ p, s.pool earlier = .ok p ∧ p.selfAddr = s.selfAddr ∧ p.basePath = s.basePath ∧
      p.replicas = s.replicas ∧ p.Knows s.peerAddrs := by
  have hmade : Peer.Pool.withOptions s.selfAddr s.poolOptions = .ok {
      selfAddr := Text.trimSlashes s.selfAddr
      basePath := s.basePath
      replicas := s.replicas
      ring := .new s.replicas HashFn.crc32
      endpoints := .empty } := if_pos h.basePath
  unfold pool
  rw [hmade]
  refine ⟨_, rfl, ?_⟩
  rw [Peer.Pool.setPeers_foldl]
  exact ⟨trimSlashes_selfAddr s, rfl, rfl, Peer.Pool.knows_setPeers _ (trimSlashes_peerAddrs s)⟩

/-! ## The nodes of a cluster -/

/-- Nodes whose settings are accepted and name the same addresses and the same number of points
agree on the owner of every key, however the addresses are written and whatever their pools were
told earlier. For each key there is exactly one address among theirs that is the owner to all of
them: nodes with this address resolve the key themselves, and all others ask at this address, below
their own base path. A node's own address stands on its ring, and it never takes a key of another
node for its own. -/
theorem one_owner {κ : Type} [Nonempty κ] (s : κ → Settings) (earlier : κ → List (List String))
    (hvalid : ∀ i, (s i).validate = .ok ()) (haddrs : ∀ i j, (s i).peerAddrs = (s j).peerAddrs)
    (hreplicas : ∀ i j, (s i).replicas = (s j).replicas) :
    ∃ p : κ → Peer.Pool, (∀ i, (s i).pool (earlier i) = .ok (p i)) ∧
      (∀ i, (p i).selfAddr = (s i).selfAddr ∧ (p i).basePath = (s i).basePath) ∧
      (∀ key, ∃! o, (∀ i, o ∈ (s i).peerAddrs) ∧ ∀ i, (p i).Owner key o) ∧
      (∀ i, (p i).selfAddr ∈ (p i).ring.points.map Prod.snd ∧
        ∀ r < (s i).replicas, (HashFn.crc32 (Text.utf8 (Ring.label r (p i).selfAddr)),
          (p i).selfAddr) ∈ (p i).ring.points) ∧
      ∀ i key, ∃ owner, (p i).ring.get key = some owner ∧
        (owner ≠ (p i).selfAddr → (p i).pickPeer key = some (owner ++ (p i).basePath)) := by
  have hv : ∀ i, (s i).Valid := fun i => validate_eq_ok_iff.1 (hvalid i)
  choose p hpool hself hbase hreps hknows using fun i => pool_of_valid (hv i) (earlier i)
  obtain ⟨i₀⟩ := ‹Nonempty κ›
  have howner : ∀ key, ∃ o, (∀ i, o ∈ (s i).peerAddrs) ∧ ∀ i, (p i).ring.get key = some o := by
    intro key
    obtain ⟨o, ho, hget⟩ :=
      Ring.get_new_add HashFn.crc32 (hv i₀).replicas (hv i₀).peers key
    refine ⟨o, fun i => haddrs i i₀ ▸ ho, fun i => ?_⟩
    -- all rings are the one of `i₀`
    rw [(hknows i).ring, hreps i, hreplicas i i₀, haddrs i i₀]
    exact hget
  have hpoint : ∀ i, ∀ r < (s i).replicas, (HashFn.crc32 (Text.utf8 (Ring.label r (p i).selfAddr)),
      (p i).selfAddr) ∈ (p i).ring.points := by
    intro i r hr
    rw [(hknows i).ring, hreps i]
    refine Ring.mem_points_new_add.2 ⟨?_, r, hr, rfl⟩
    rw [hself i]
    exact (hv i).member
  refine ⟨p, hpool, fun i => ⟨hself i, hbase i⟩, fun key => ?_, fun i => ⟨?_, hpoint i⟩,
    fun i key => ?_⟩
  · obtain ⟨o, hmem, hget⟩ := howner key
    have hall : ∀ i, (p i).Owner key o := fun i => (hknows i).owner (hmem i) (hget i)
    refine ⟨o, ⟨hmem, hall⟩, ?_⟩
    rintro o' ⟨-, hall'⟩
    exact (hall i₀).unique (hall' i₀)
  · exact List.mem_map_of_mem (hpoint i 0 (Nat.pos_of_ne_zero (hv i).replicas))
  · obtain ⟨o, hmem, hget⟩ := howner key
    exact ⟨o, hget i, fun hne => ((hknows i).owner (hmem i) (hget i)).there hne.symm⟩

/-! ### Two nodes -/

/-- Two nodes that are told of each other in different ways. -/
def twoNodes (second : Bool) : Settings :=
  if second then
    { default with
      addr := "http://[::1]:8002/"
      peers := ["http://[::1]:8001//", "http://[::1]:8002"]
      basePath := "/cache/" }
  else
    { default with
      addr := " http://[::1]:8001"
      peers := [" http://[::1]:8001", "", "http://[::1]:8002/ "] }

/-- Two nodes that are told of each other in different spellings, and were told another list
before. -/
theorem one_owner_twoNodes :
    (∀ i, (twoNodes i).validate = .ok ()) ∧
    (∀ i j, (twoNodes i).peerAddrs = (twoNodes j).peerAddrs) ∧
    (∀ i j, (twoNodes i).replicas = (twoNodes j).replicas) ∧
    ∃ p : Bool → Peer.Pool, (∀ i, (twoNodes i).pool [["http://[::1]:9000"]] = .ok (p i)) ∧
      ∀ key, ∃! o, (∀ i, o ∈ (twoNodes i).peerAddrs) ∧ ∀ i, (p i).Owner key o := by
  have hvalid : ∀ i, (twoNodes i).validate = .ok () := by decide +kernel
  have haddrs : ∀ i j, (twoNodes i).peerAddrs = (twoNodes j).peerAddrs := by decide +kernel
  have hreplicas : ∀ i j, (twoNodes i).replicas = (twoNodes j).replicas := by decide
  obtain ⟨p, hpool, -, howner, -, -⟩ :=
    one_owner twoNodes (fun _ => [["http://[::1]:9000"]]) hvalid haddrs hreplicas
  exact ⟨hvalid, haddrs, hreplicas, p, hpool, howner⟩

end Settings

end PeerCache
