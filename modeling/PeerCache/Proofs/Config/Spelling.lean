import PeerCache.Config.Spelling
import PeerCache.Proofs.Config.Ownership
import PeerCache.Proofs.Peer.Address
import PeerCache.Proofs.Ring.Order
/-!
# PeerCache — whether a pool picks others only

A pool knows itself by the text of its address. So it asks its own node for a key if the key belongs
to another text for the same place:

* **`exists_key_iff`** — a node of the ring owns a key exactly if one of its replicas is the last
  one at its position; the label of that replica is such a key.
* **`picksOthers_iff`** — so the pool picks others only exactly if no other text for its own place
  has such a replica.
* **`eq_of_isCanonical`** — of addresses in canonical spelling, different ones lead to different
  places.
-/

namespace PeerCache

/-! ## Keys of a node -/

namespace Ring

/-- The node owns a key exactly if it has a replica that is the last one at its position. -/
theorem exists_key_iff {hash : HashFn} {replicas : Nat} {nodes : List String} {node : String} :
    (∃ key, ((new replicas hash).add nodes).get key = some node) ↔
      ∃ i < replicas,
        LastAt hash (placed replicas nodes) (Replica.position hash ⟨i, node⟩) node := by
  constructor
  · rintro ⟨key, hget⟩
    obtain ⟨p, -, hlast⟩ := get_eq_some_iff.1 hget
    obtain ⟨before, v, after, hsplit, rfl, rfl, hafter⟩ := hlast
    have hv : v ∈ placed replicas nodes := by
      rw [hsplit]
      exact List.mem_append_right _ List.mem_cons_self
    exact ⟨v.index, (mem_placed.1 hv).1, before, v, after, hsplit, rfl, rfl, hafter⟩
  · rintro ⟨i, hi, hlast⟩
    -- the label of the replica is a key at its position
    refine ⟨label i node, get_eq_some_iff.2 ⟨Replica.position hash ⟨i, node⟩, ⟨?_, ?_⟩, hlast⟩⟩
    · obtain ⟨before, v, after, hsplit, -, hp, -⟩ := hlast
      rw [hsplit, ← hp]
      exact List.mem_map_of_mem (List.mem_append_right _ List.mem_cons_self)
    · exact Or.inl ⟨UInt32.le_refl _, fun q _ hle => hle⟩

end Ring

/-! ## Canonical addresses -/

namespace Peer

/-- A place has one canonical address. -/
theorem eq_of_isCanonical {a b : String} (ha : IsCanonical a) (hb : IsCanonical b)
    (h : originOf? a = originOf? b) : a = b := by
  unfold IsCanonical at ha hb
  rw [h, hb] at ha
  exact (Option.some.inj ha).symm

/-! ## The peers that a pool picks -/

namespace Pool

variable {p : Pool} {addrs : List String}

/-- A peer that is picked owns the key and has another text than the node's own address. -/
theorem Knows.pickPeer_eq_some_iff (h : p.Knows addrs) {key baseUrl : String} :
    p.pickPeer key = some baseUrl ↔
      ∃ o ∈ addrs, o ≠ p.selfAddr ∧ p.ring.get key = some o ∧ baseUrl = o ++ p.basePath := by
  constructor
  · intro hpick
    cases hget : p.ring.get key with
    | none =>
      unfold pickPeer at hpick
      rw [hget] at hpick
      cases hpick
    | some o =>
      have hmem : o ∈ addrs := by
        rw [h.ring] at hget
        exact Ring.mem_of_get hget
      have howner := h.owner hmem hget
      have hne : o ≠ p.selfAddr := by
        intro hself
        rw [howner.here.2 hself.symm] at hpick
        cases hpick
      rw [howner.there hne.symm] at hpick
      exact ⟨o, hmem, hne, rfl, (Option.some.inj hpick).symm⟩
  · rintro ⟨o, hmem, hne, hget, rfl⟩
    exact (h.owner hmem hget).there hne.symm

/-- A pool picks others only exactly if no other text for its own place has a replica that is the
last one at its position. -/
theorem picksOthers_iff (h : p.Knows addrs) : p.PicksOthers ↔
    ∀ o ∈ addrs, o ≠ p.selfAddr → SamePlace (o ++ p.basePath) p.selfAddr →
      ∀ i < p.replicas, ¬ Ring.LastAt HashFn.crc32 (Ring.placed p.replicas addrs)
        (Ring.Replica.position HashFn.crc32 ⟨i, o⟩) o := by
  constructor
  · intro hothers o hmem hne hsame i hi hlast
    obtain ⟨key, hget⟩ := Ring.exists_key_iff.2 ⟨i, hi, hlast⟩
    rw [← h.ring] at hget
    exact hothers key (o ++ p.basePath) (h.pickPeer_eq_some_iff.2 ⟨o, hmem, hne, hget, rfl⟩) hsame
  · intro hnone key baseUrl hpick hsame
    obtain ⟨o, hmem, hne, hget, rfl⟩ := h.pickPeer_eq_some_iff.1 hpick
    rw [h.ring] at hget
    obtain ⟨i, hi, hlast⟩ := Ring.exists_key_iff.1 ⟨key, hget⟩
    exact hnone o hmem hne hsame i hi hlast

end Pool

/-- A valid base path starts with a slash. -/
theorem head_of_isValidBasePath {path : String} (h : isValidBasePath path = true) :
    path.toList.head? = some '/' := by
  unfold isValidBasePath at h
  simp only [Bool.and_eq_true, decide_eq_true_eq] at h
  exact h.1.2

end Peer

namespace Settings

open Peer

/-- **Picking others only.** Settings that are accepted make a pool that picks a peer for a key
exactly if the key belongs to a listed address with another text than the node's own; the questions
to the peer go where its base URL leads. The pool picks others only exactly if no such address whose
base URL leads to the node itself has a replica that is the last one at its position. A plain
address leads to the same place with the base path behind it. So if all listed addresses are plain
and canonical, the pool picks others only. -/
theorem picks_others (s : Settings) (hvalid : s.validate = .ok ()) (earlier : List (List String)) :
    ∃ p, s.pool earlier = .ok p ∧ p.selfAddr = s.selfAddr ∧
      (∀ key baseUrl, p.pickPeer key = some baseUrl ↔
        ∃ o ∈ s.peerAddrs, o ≠ s.selfAddr ∧ p.ring.get key = some o ∧ baseUrl = o ++ s.basePath) ∧
      (∀ baseUrl group key url, request baseUrl group key = .ok url →
        originOf? baseUrl = some url.origin) ∧
      (p.PicksOthers ↔
        ∀ o ∈ s.peerAddrs, o ≠ s.selfAddr → SamePlace (o ++ s.basePath) s.selfAddr →
          ∀ i < s.replicas, ¬ Ring.LastAt HashFn.crc32 (Ring.placed s.replicas s.peerAddrs)
            (Ring.Replica.position HashFn.crc32 ⟨i, o⟩) o) ∧
      (∀ o, IsAddress o → originOf? (o ++ s.basePath) = originOf? o) ∧
      ((∀ o ∈ s.peerAddrs, IsAddress o ∧ IsCanonical o) → p.PicksOthers) := by
  have hv : s.Valid := validate_eq_ok_iff.1 hvalid
  obtain ⟨p, hpool, hself, hbase, hreplicas, hknows⟩ := pool_of_valid hv earlier
  have hplain : ∀ o, IsAddress o → originOf? (o ++ s.basePath) = originOf? o := fun o haddr =>
    originOf?_append haddr (Or.inr (head_of_isValidBasePath hv.basePath))
  have hiff := Pool.picksOthers_iff hknows
  refine ⟨p, hpool, hself, fun key baseUrl => ?_, fun baseUrl group key url => originOf?_of_request,
    ?_, hplain, fun hall => ?_⟩
  · rw [← hself, ← hbase]
    exact hknows.pickPeer_eq_some_iff
  · rw [hself, hbase, hreplicas] at hiff
    exact hiff
  -- Another address that leads to the node itself would be the node's own, spelled in one way only.
  · refine hiff.2 fun o hmem hne hsame => ?_
    obtain ⟨haddr, hcanonical⟩ := hall o hmem
    rw [hself] at hne
    rw [hbase, hself] at hsame
    obtain ⟨origin, hpeer, hown⟩ := hsame
    rw [hplain o haddr] at hpeer
    exact absurd (eq_of_isCanonical hcanonical (hall _ hv.member).2 (hpeer.trans hown.symm)) hne

/-- Two nodes in canonical spelling, the first of which was told another spelling of its own address
before. -/
theorem picks_others_twoNodes :
    (twoNodes false).validate = .ok () ∧
    (∀ o ∈ (twoNodes false).peerAddrs, IsAddress o ∧ IsCanonical o) ∧
    ∃ p, (twoNodes false).pool [["http://[0::1]:8001"]] = .ok p ∧ p.PicksOthers := by
  have hvalid : (twoNodes false).validate = .ok () := by decide +kernel
  have hspelled : (twoNodes false).peerAddrs = ["http://[::1]:8001", "http://[::1]:8002"] := by
    decide +kernel
  have hplain : ∀ o ∈ (twoNodes false).peerAddrs, IsAddress o ∧ IsCanonical o := by
    rw [hspelled, List.forall_mem_cons, List.forall_mem_singleton]
    exact ⟨⟨isAddress_http "[::1]:8001" (by decide) (by decide), by decide +kernel⟩,
      isAddress_http "[::1]:8002" (by decide) (by decide), by decide +kernel⟩
  obtain ⟨p, hpool, -, -, -, -, -, hothers⟩ :=
    picks_others (twoNodes false) hvalid [["http://[0::1]:8001"]]
  exact ⟨hvalid, hplain, p, hpool, hothers hplain⟩

/-- A node whose address is listed twice, the second time with a zero written out. -/
def spelledTwice : Settings :=
  { default with
    addr := "http://[::1]:8001"
    peers := ["http://[::1]:8001", "http://[0::1]:8001"] }

/-- The node picks its other spelling, and asks itself. -/
theorem picks_itself :
    spelledTwice.validate = .ok () ∧
    ∃ p baseUrl url, spelledTwice.pool [] = .ok p ∧
      p.pickPeer "0http://[0::1]:8001" = some baseUrl ∧
      request baseUrl "g" "0http://[0::1]:8001" = .ok url ∧
      originOf? spelledTwice.selfAddr = some url.origin := by
  have hvalid : spelledTwice.validate = .ok () := by decide +kernel
  have haddrs : spelledTwice.peerAddrs = ["http://[::1]:8001"] ++ ["http://[0::1]:8001"] := by
    decide +kernel
  obtain ⟨p, hpool, hself, hbase, hreplicas, hknows⟩ :=
    pool_of_valid (validate_eq_ok_iff.1 hvalid) []
  -- The label of a replica is a key for it, and the node that is listed last takes its position.
  have hget : p.ring.get "0http://[0::1]:8001" = some "http://[0::1]:8001" := by
    rw [hknows.ring, hreplicas, haddrs]
    exact Ring.get_concat ["http://[::1]:8001"] (v := ⟨0, "http://[0::1]:8001"⟩) (by decide)
      (by decide +kernel)
  have hpick : p.pickPeer "0http://[0::1]:8001" =
      some ("http://[0::1]:8001" ++ defaultBasePath) := by
    refine hknows.pickPeer_eq_some_iff.2 ⟨"http://[0::1]:8001", ?_, ?_, hget, by rw [hbase]; rfl⟩
    · rw [haddrs]
      decide
    · rw [hself]
      decide +kernel
  have hsame : originOf? spelledTwice.selfAddr =
      originOf? ("http://[0::1]:8001" ++ defaultBasePath) := by decide +kernel
  have hsent : (request ("http://[0::1]:8001" ++ defaultBasePath) "g"
      "0http://[0::1]:8001").isOk = true := by decide +kernel
  cases hurl : request ("http://[0::1]:8001" ++ defaultBasePath) "g" "0http://[0::1]:8001" with
  | error e =>
    rw [hurl] at hsent
    cases hsent
  | ok url =>
    exact ⟨hvalid, p, _, url, hpool, hpick, hurl, hsame.trans (originOf?_of_request hurl)⟩

end Settings

end PeerCache
