import PeerCache.Proofs.Config.Ownership
import PeerCache.Proofs.Peer.Reach
/-!
# PeerCache — whether the nodes of a configuration can ask each other

Settings are accepted with any base path between two slashes and with any text after the authority
of an address. Whether a peer is reached with them is told by `Peer.readsAsWritten`.
-/

namespace PeerCache.Settings

open Peer

/-- The URL of a node is one of `http` or `https`. -/
theorem scheme_of_parseHttpUrl {addr : String} {u : Url} (h : parseHttpUrl addr = .ok u) :
    Url.parse addr = .ok u ∧ (u.scheme = "http" ∨ u.scheme = "https") := by
  unfold parseHttpUrl at h
  split at h
  next => cases h
  next a ha =>
    split at h
    next hscheme =>
      cases h
      exact ⟨ha, hscheme⟩
    next => cases h

/-- An accepted address reads as a web address. -/
theorem kind_of_parseHttpUrl {addr : String} {u a : Url} (h : parseHttpUrl addr = .ok u)
    (ha : Url.parse addr = .ok a) : a.kind = .web := by
  obtain ⟨hparse, hscheme⟩ := scheme_of_parseHttpUrl h
  cases ha.symm.trans hparse
  unfold Url.kind
  rcases hscheme with hscheme | hscheme
  · rw [hscheme]
    decide
  · rw [hscheme]
    decide

/-- An accepted address can be read. -/
theorem parse_of_parseHttpUrl {addr : String} {u : Url} (h : parseHttpUrl addr = .ok u) :
    ∃ a, Url.parse addr = .ok a := ⟨u, (scheme_of_parseHttpUrl h).1⟩

/-- **Asking a peer.** Settings that are accepted, with a base path that has no parameters and is
not of slashes only, make a pool that asks each peer below its address and the base path. Take a
group and a key that a peer can be asked for under the default base path, which are all but those
with a tab or a line end, a dot or two, and an empty key. Under the base path of the settings the
question leads to the peer, and is taken for this group and key, exactly if the base URL of the peer
reads as written, which does not depend on the group and the key. It does for a peer whose address
is a scheme and an authority, when the base path is plain. -/
theorem question_reaches_peer (s : Settings) (hvalid : s.validate = .ok ())
    (hcolon : ':' ∉ s.basePath.toList) (hbase : Text.trimSlashes s.basePath ≠ "") (p : String)
    (hp : p ∈ s.peerAddrs) :
    (∀ earlier, ∃ pool, s.pool earlier = .ok pool ∧ pool.basePath = s.basePath ∧
      pool.endpoints.find? p = some (p ++ s.basePath)) ∧
    (∀ group key, Transmitted group key ↔ IsSegment group ∧ IsSegment key ∧ key ≠ "") ∧
    (∀ group key, Transmitted group key →
      (Reaches p s.basePath group key ↔ readsAsWritten p s.basePath = true)) ∧
    (IsAddress p → IsLiteral s.basePath → readsAsWritten p s.basePath = true) := by
  have hv : s.Valid := validate_eq_ok_iff.1 hvalid
  obtain ⟨u, hu⟩ := hv.urls p hp
  refine ⟨fun earlier => ?_, fun group key => transmitted_iff, fun group key h => ?_,
    fun haddr hliteral => ?_⟩
  · obtain ⟨pool, hpool, -, hpath, -, hknows⟩ := pool_of_valid hv earlier
    refine ⟨pool, hpool, hpath, ?_⟩
    rw [hknows.endpoints p hp, hpath]
  · obtain ⟨hgroup, hkey, hne⟩ := h.isSegment
    exact reaches_iff hcolon hbase hgroup hkey hne fun a ha => kind_of_parseHttpUrl hu ha
  · exact readsAsWritten_of_isLiteral haddr (parse_of_parseHttpUrl hu) hv.basePath hliteral

/-- A question for a key with a slash in it, to the other of two nodes. -/
theorem question_reaches_peer_twoNodes :
    (twoNodes true).validate = .ok () ∧ ':' ∉ (twoNodes true).basePath.toList ∧
    Text.trimSlashes (twoNodes true).basePath ≠ "" ∧
    "http://[::1]:8001" ∈ (twoNodes true).peerAddrs ∧
    Reaches "http://[::1]:8001" (twoNodes true).basePath "scores" "tom/1" := by
  have hvalid : (twoNodes true).validate = .ok () := by decide +kernel
  have hcolon : ':' ∉ (twoNodes true).basePath.toList := by decide
  have hbase : Text.trimSlashes (twoNodes true).basePath ≠ "" := by decide
  have hp : "http://[::1]:8001" ∈ (twoNodes true).peerAddrs := by decide +kernel
  have haddr : IsAddress "http://[::1]:8001" :=
    isAddress_http "[::1]:8001" (by decide) (by decide)
  obtain ⟨-, htransmitted, hreaches, hliteral⟩ :=
    question_reaches_peer (twoNodes true) hvalid hcolon hbase "http://[::1]:8001" hp
  have hsent : Transmitted "scores" "tom/1" := (htransmitted _ _).2 (by decide)
  have hplain : IsLiteral (twoNodes true).basePath :=
    ⟨List.all_iff_forall_prop.1 (by decide), by decide, by decide⟩
  exact ⟨hvalid, hcolon, hbase, hp, (hreaches _ _ hsent).2 (hliteral haddr hplain)⟩

/-- Two nodes with a blank in their base path. -/
def spacedNodes : Settings := { twoNodes false with basePath := "/my cache/" }

/-- The blank is encoded in the URL, and nothing is served there. -/
theorem question_reaches_nobody :
    spacedNodes.validate = .ok () ∧ "http://[::1]:8002" ∈ spacedNodes.peerAddrs ∧
    Transmitted "g" "k" ∧
    ∃ u, urlFor ("http://[::1]:8002" ++ spacedNodes.basePath) "g" "k" = .ok u ∧
      String.ofList u.path = "/my%20cache/g/k" ∧
      Route.ofRequest spacedNodes.basePath (Cluster.requestOf u) = .notFound := by
  refine ⟨by decide +kernel, by decide +kernel, transmitted_iff.2 (by decide), ?_⟩
  have hroute : (urlFor ("http://[::1]:8002" ++ spacedNodes.basePath) "g" "k").toOption.map
      (fun u => (String.ofList u.path, Route.ofRequest spacedNodes.basePath (Cluster.requestOf u)))
        = some ("/my%20cache/g/k", .notFound) := by decide +kernel
  cases hurl : urlFor ("http://[::1]:8002" ++ spacedNodes.basePath) "g" "k" with
  | error err =>
    rw [hurl] at hroute
    cases hroute
  | ok u =>
    rw [hurl] at hroute
    obtain ⟨hpath, hnone⟩ := Prod.mk.inj (Option.some.inj hroute)
    exact ⟨u, rfl, hpath, hnone⟩

end PeerCache.Settings
