import PeerCache.Proofs.Peer.Reach
/-!
# PeerCache — the round trip of a group and a key

A group and a key go out as two segments of a path and come in as what the peer endpoint reads off
that path. Under the default base path the endpoint reads off just these two exactly if both are
segments that a URL takes without loss (**`round_trip`**), so two such pairs never share a URL. The
scheme of the peer's address may be written in letters of either case.
-/

namespace PeerCache.Peer

/-- A scheme of the web, in letters of either case, with an authority behind it. -/
structure IsWebAddress (addr : String) : Prop where
  split : ∃ scheme authority : String, addr = scheme ++ "://" ++ authority ∧
    String.ofList (scheme.toList.map Char.toLower) ∈ ["http", "https"] ∧ authority ≠ "" ∧
    ∀ c ∈ authority.toList, inAuthority c = true

/-- Whatever stands behind it, an address reads as the one with its scheme in lower case. -/
theorem IsWebAddress.exists_isAddress {addr : String} (h : IsWebAddress addr) :
    ∃ addr', IsAddress addr' ∧ ∀ rest, Url.parse (addr ++ rest) = Url.parse (addr' ++ rest) := by
  obtain ⟨scheme, authority, rfl, hscheme, hne, hall⟩ := h.split
  have hletters : ∀ c ∈ scheme.toList, Url.isSchemeChar c = true := by
    have hknown : ∀ s ∈ ["http", "https"], s.toList.all Char.isAlpha = true := by decide
    have hlower := hknown _ hscheme
    rw [String.toList_ofList, List.all_map, List.all_eq_true] at hlower
    intro c hc
    apply Url.isSchemeChar_of_isAlpha
    rw [← Url.isAlpha_toLower]
    exact hlower c hc
  refine ⟨_, ⟨_, hscheme, authority, rfl, hne, hall⟩, fun rest => ?_⟩
  have htext : ∀ cs : List Char, String.ofList cs ++ "://" ++ authority ++ rest =
      String.ofList (cs ++ ':' :: ("//".toList ++ authority.toList ++ rest.toList)) := by
    intro cs
    apply String.toList_inj.1
    simp only [String.toList_append, String.toList_ofList, List.append_assoc]
    rfl
  have hsame := Url.parse_lower hletters ("//".toList ++ authority.toList ++ rest.toList)
  rw [← htext, ← htext, String.ofList_toList] at hsame
  exact hsame

/-- The URL for a group and a key depends on the base URL only as far as it is read. -/
theorem urlFor_congr {base base' : String} (h : Url.parse base = Url.parse base')
    {group key : String} {u : Url} :
    urlFor base group key = .ok u ↔ urlFor base' group key = .ok u := by
  rw [urlFor_eq_ok_iff, urlFor_eq_ok_iff, h]

/-- A peer whose address can be read is asked for any group and key. -/
theorem exists_urlFor {addr : String} (haddr : IsAddress addr)
    (hread : ∃ a, Url.parse addr = .ok a) (group key : String) :
    ∃ u, urlFor (addr ++ defaultBasePath) group key = .ok u := by
  obtain ⟨a, ha⟩ := hread
  have hbase := parse_append haddr isPath_defaultBasePath
  rw [ha] at hbase
  refine ⟨_, urlFor_eq_ok_iff.2 ⟨_, hbase, ?_, rfl⟩⟩
  obtain ⟨⟨authority, hauthority⟩, -⟩ := Url.parse_web ha (kind_of_isAddress haddr ha)
  unfold Url.isOpaque
  rw [hauthority]
  rfl

/-- Two URLs with the same base are the same if they are written the same. -/
theorem eq_of_render {base group key group' key' : String} {u u' : Url}
    (h : urlFor base group key = .ok u) (h' : urlFor base group' key' = .ok u')
    (hsame : u.render = u'.render) : u = u' := by
  obtain ⟨v, hv, -, rfl⟩ := urlFor_eq_ok_iff.1 h
  obtain ⟨v', hv', -, rfl⟩ := urlFor_eq_ok_iff.1 h'
  rw [hv] at hv'
  cases hv'
  have hpath : ((v.popIfEmpty.push group).push key).path =
      ((v.popIfEmpty.push group').push key').path := by
    have htext := congrArg String.toList hsame
    unfold Url.render at htext
    simp only [String.toList_append, String.toList_ofList] at htext
    exact List.append_cancel_left (List.append_cancel_right (List.append_cancel_right htext))
  show ({ v with path := ((v.popIfEmpty.push group).push key).path } : Url) =
    { v with path := ((v.popIfEmpty.push group').push key').path }
  rw [hpath]

/-- **The round trip.** Take the address of a peer that can be read, the default base path behind
it, and a group and a key that are not empty. There is a URL for them, and the endpoint takes a
request for that URL as one for exactly this group and this key if and only if neither has a tab, a
line feed or a carriage return and neither is a dot or two. Of such groups and keys, different ones
have URLs that are written differently. -/
theorem round_trip (addr : String) (haddr : IsWebAddress addr)
    (hread : ∃ a, Url.parse addr = .ok a) :
    (∀ group key, group ≠ "" → key ≠ "" → ∃ u,
      urlFor (addr ++ defaultBasePath) group key = .ok u ∧
      (Route.ofRequest defaultBasePath (Cluster.requestOf u) = .value group key ↔
        IsSegment group ∧ IsSegment key)) ∧
    ∀ group key group' key' u u', group ≠ "" → key ≠ "" → group' ≠ "" → key' ≠ "" →
      IsSegment group → IsSegment key → IsSegment group' → IsSegment key' →
      urlFor (addr ++ defaultBasePath) group key = .ok u →
      urlFor (addr ++ defaultBasePath) group' key' = .ok u' →
      u.render = u'.render → group = group' ∧ key = key' := by
  -- Every web address reads as one whose scheme is in lower case.
  obtain ⟨addr', haddr', hsame⟩ := haddr.exists_isAddress
  have hread' : ∃ a, Url.parse addr' = .ok a := by
    have hbare := hsame ""
    rw [String.append_empty, String.append_empty] at hbare
    rw [← hbare]
    exact hread
  have hroute : ∀ {group key u}, key ≠ "" → urlFor (addr ++ defaultBasePath) group key = .ok u →
      (Route.ofRequest defaultBasePath (Cluster.requestOf u) = .value group key ↔
        IsSegment group ∧ IsSegment key) := by
    intro group key u hne hurl
    rw [urlFor_congr (hsame defaultBasePath)] at hurl
    constructor
    · intro hvalue
      obtain ⟨hgroup, hkey, -⟩ := Transmitted.isSegment ⟨addr', u, haddr', hurl, hvalue⟩
      exact ⟨hgroup, hkey⟩
    · rintro ⟨hgroup, hkey⟩
      exact route_of_isSegment haddr' hgroup hkey hne hurl
  constructor
  · intro group key _ hkey
    obtain ⟨u, hu⟩ := exists_urlFor haddr' hread' group key
    rw [← urlFor_congr (hsame defaultBasePath)] at hu
    exact ⟨u, hu, hroute hkey hu⟩
  · intro group key group' key' u u' _ hkey _ hkey' hg hk hg' hk' hu hu' hrender
    have hvalue := (hroute hkey hu).2 ⟨hg, hk⟩
    -- Equal texts are equal requests, and a request is routed to one pair only.
    rw [eq_of_render hu hu' hrender, (hroute hkey' hu').2 ⟨hg', hk'⟩] at hvalue
    cases hvalue
    exact ⟨rfl, rfl⟩

/-- A slash in a key stays in the key, and one between the two separates them. -/
theorem round_trip_slash :
    IsWebAddress "HTTP://[::1]:8001" ∧ (∃ a, Url.parse "HTTP://[::1]:8001" = .ok a) ∧
    ∃ u, urlFor ("HTTP://[::1]:8001" ++ defaultBasePath) "scores" "tom/%2F" = .ok u ∧
      Route.ofRequest defaultBasePath (Cluster.requestOf u) = .value "scores" "tom/%2F" := by
  have haddr : IsWebAddress "HTTP://[::1]:8001" :=
    ⟨"HTTP", "[::1]:8001", rfl, by decide, by decide, List.all_eq_true.1 (by decide)⟩
  have hread : ∃ a, Url.parse "HTTP://[::1]:8001" = .ok a := by
    have hok : (Url.parse "HTTP://[::1]:8001").toOption.isSome = true := by decide +kernel
    cases hparse : Url.parse "HTTP://[::1]:8001" with
    | error err =>
      rw [hparse] at hok
      cases hok
    | ok a => exact ⟨a, rfl⟩
  obtain ⟨u, hu, hroute⟩ :=
    (round_trip "HTTP://[::1]:8001" haddr hread).1 "scores" "tom/%2F" (by decide) (by decide)
  exact ⟨haddr, hread, u, hu, hroute.2 ⟨by decide, by decide⟩⟩

end PeerCache.Peer
