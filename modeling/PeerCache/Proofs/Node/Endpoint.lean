import PeerCache.Proofs.Group.Direct
import PeerCache.Proofs.Node.Play
import PeerCache.Proofs.Peer.Reach
/-!
# PeerCache — what the peer endpoint responds

A `GET` request below the base path goes one of three ways:

* it names no group and key, and is refused at once (**`acceptPeer_malformed`**);
* it names a group that there is none of (**`acceptPeer_missing`**);
* it makes a direct lookup, and the outcome of that is the response (**`serve_found`**).

Neither of the first two touches the node, and a direct lookup touches one group only
(**`serves`**).
-/

namespace PeerCache

open Text

/-- Decoding leaves something of what is not empty. -/
theorem Text.Percent.decode_ne_nil {bytes : List UInt8} (h : bytes ≠ []) :
    Text.Percent.decode bytes ≠ [] := by
  fun_cases Text.Percent.decode bytes with
  | case1 => exact absurd rfl h
  | _ => simp

namespace Peer

/-! ## Where a path leads -/

/-- A `GET` asks for a group and a key exactly if the rest of its path names them. -/
theorem names_iff {rest : List UInt8} {group key : String} :
    Route.below "GET" [] rest = .value group key ↔ Names rest group key := by
  rw [below_eq_value_iff]
  exact and_iff_right rfl

/-- The key that a path names is not empty. -/
theorem Names.key_ne {rest : List UInt8} {group key : String} (h : Names rest group key) :
    key ≠ "" := by
  obtain ⟨g, k, -, -, hk, -, hkey⟩ := h
  rintro rfl
  exact Percent.decode_ne_nil hk (utf8?_eq_some.1 hkey)

/-- A path asks for a value or for nothing that there could be. -/
theorem below_cases (rest : List UInt8) :
    (∃ group key, Route.below "GET" [] rest = .value group key) ∨
      Route.below "GET" [] rest = .badRequest ∨
      ∃ part, Route.below "GET" [] rest = .undecodable part := by
  unfold Route.below
  cases Route.split? rest with
  | none => exact Or.inr (Or.inl rfl)
  | some parts =>
    obtain ⟨g, k⟩ := parts
    show (∃ group key, Route.ofParts [("group", g), ("key", k)] = .value group key) ∨
      Route.ofParts [("group", g), ("key", k)] = .badRequest ∨
      ∃ part, Route.ofParts [("group", g), ("key", k)] = .undecodable part
    unfold Route.ofParts
    cases hg : utf8? (Percent.decode g) with
    | none =>
      simp only [Route.decodeAll, hg]
      exact Or.inr (Or.inr ⟨_, rfl⟩)
    | some group =>
      cases hk : utf8? (Percent.decode k) with
      | none =>
        simp only [Route.decodeAll, hg, hk]
        exact Or.inr (Or.inr ⟨_, rfl⟩)
      | some key =>
        simp only [Route.decodeAll, hg, hk]
        exact Or.inl ⟨group, key, rfl⟩

/-- Where a request leads whose path is below the default base path. -/
theorem ofRequest_below {r : Http.Request} {rest : List UInt8} (hrest : rest ≠ [])
    (hpath : (Http.Target.parse r.target).path = utf8 defaultBasePath ++ rest) :
    Route.ofRequest defaultBasePath r = Route.below r.method [] rest := by
  have hbase : utf8 defaultBasePath = utf8 "/_distributed_cache" ++ [0x2F] := by decide +kernel
  have hafter : after? (utf8 "/_distributed_cache") (Http.Target.parse r.target).path =
      some (0x2F :: rest) := by
    rw [after?_eq_some, hpath, hbase, List.append_assoc]
    rfl
  unfold Route.ofRequest
  rw [pieces_defaultBasePath, capture?_text, hafter]
  exact if_neg fun h => h.elim (fun hc => hc rfl) hrest

end Peer

namespace Node

/-! ## The three ways of a request -/

section Request

variable {n : Node} {caller : Caller} {r : Http.Request} {rest : List UInt8} {group key : String}

/-- A path that names no group and key is refused with 400, and the node stays as it is. -/
theorem acceptPeer_malformed (hget : r.method = "GET")
    (hroute : Peer.Route.ofRequest Peer.defaultBasePath r = Peer.Route.below r.method [] rest)
    (hno : ∀ group key, ¬ Peer.Names rest group key) (n : Node) (caller : Caller) :
    ∃ text, n.acceptPeer Peer.defaultBasePath caller r = (n, .inl (.text 400 text)) := by
  rw [hget] at hroute
  unfold acceptPeer
  rw [hroute]
  rcases Peer.below_cases rest with ⟨group, key, h⟩ | h | ⟨part, h⟩
  · exact absurd (Peer.names_iff.1 h) (hno group key)
  · rw [h]
    exact ⟨_, rfl⟩
  · rw [h, hget]
    exact ⟨_, rfl⟩

/-- A group that the node does not have is refused with 404, and the node stays as it is. -/
theorem acceptPeer_missing (hget : r.method = "GET")
    (hroute : Peer.Route.ofRequest Peer.defaultBasePath r = Peer.Route.below r.method [] rest)
    (hnames : Peer.Names rest group key) (hnone : n.groups.find? group = none) :
    n.acceptPeer Peer.defaultBasePath caller r =
      (n, .inl (.text 404 (CacheError.groupNotFound group).message)) := by
  rw [hget, Peer.names_iff.2 hnames] at hroute
  unfold acceptPeer
  simp only [hroute, hnone, hget]
  rfl

/-- A group that the node has looks the key up, without its peers. -/
theorem acceptPeer_found (hget : r.method = "GET")
    (hroute : Peer.Route.ofRequest Peer.defaultBasePath r = Peer.Route.below r.method [] rest)
    (hnames : Peer.Names rest group key) {g : Group Caller}
    (hfind : n.groups.find? group = some g) :
    n.acceptPeer Peer.defaultBasePath caller r =
      (n.updateGroup group fun g => g.lookup caller .direct key, .inr ⟨group, .direct, "GET"⟩) := by
  rw [hget, Peer.names_iff.2 hnames] at hroute
  unfold acceptPeer
  simp only [hroute, hfind, hget]

/-- After its lookup a group goes on by its own events only. -/
theorem find?_looked_up {g : Group Caller} (hfind : n.groups.find? group = some g)
    (later : List GroupEvent) :
    ((n.updateGroup group fun g => g.lookup caller .direct key).play later).groups.find? group =
      some ((g.lookup caller .direct key).run (eventsIn group later)) := by
  rw [find?_play, find?_updateGroup, if_pos rfl, hfind]
  rfl

/-- The outcome of the lookup is the response. -/
theorem serve_found (hget : r.method = "GET")
    (hroute : Peer.Route.ofRequest Peer.defaultBasePath r = Peer.Route.below r.method [] rest)
    (hnames : Peer.Names rest group key) {g : Group Caller} (hfind : n.groups.find? group = some g)
    (later : List GroupEvent) :
    n.serve caller r later =
      ((n.updateGroup group fun g => g.lookup caller .direct key).play later,
        (g.directly caller key (eventsIn group later)).map Http.Response.ofOutcome) := by
  unfold serve
  rw [acceptPeer_found hget hroute hnames hfind]
  refine Prod.ext rfl ?_
  show response? _ caller ⟨group, .direct, "GET"⟩ = _
  unfold response?
  rw [find?_looked_up hfind]
  rfl

end Request

/-! ## A request for a key of a group -/

section Found

variable {n : Node} (hn : n.Reached) {caller : Caller} {r : Http.Request} {rest : List UInt8}
  {group key : String} {g : Group Caller} (hfind : n.groups.find? group = some g)
  (hnew : caller ∉ g.callers)

include hn hfind hnew

/-- The response to a lookup is the value, or the text of the failure. -/
theorem serve_cases (hget : r.method = "GET")
    (hroute : Peer.Route.ofRequest Peer.defaultBasePath r = Peer.Route.below r.method [] rest)
    (hnames : Peer.Names rest group key) (later : List GroupEvent) :
    (g.directly caller key (eventsIn group later) = none ∧ (n.serve caller r later).2 = none) ∨
    (∃ value, g.directly caller key (eventsIn group later) = some (.ok value) ∧
      (n.serve caller r later).2 =
        some ⟨200, some "application/octet-stream", none, value.bytes⟩) ∨
    ∃ e, g.directly caller key (eventsIn group later) = some (.error e) ∧
      (n.serve caller r later).2 = some (.text 500 e.message) := by
  rw [serve_found hget hroute hnames hfind]
  cases ho : g.directly caller key (eventsIn group later) with
  | none => exact Or.inl ⟨rfl, rfl⟩
  | some o =>
    right
    cases o with
    | ok value => exact Or.inl ⟨value, rfl, rfl⟩
    | error e =>
      obtain ⟨cacheBytes, policy, before, rfl⟩ := hn group g hfind
      -- the source has failed, and this is not the fault of the request
      obtain ⟨text, rfl⟩ := Group.directly_error
        (Group.unused_new group cacheBytes policy false) hnew hnames.key_ne ho
      exact Or.inr ⟨_, rfl, rfl⟩

omit hn hnew in
/-- What a lookup of which nothing happens but what is its own has changed. -/
theorem confined_of_own {cacheBytes : Nat} {policy : RemotePolicy}
    {before : List (Group.Event Caller)}
    (hg : g = (Group.new group cacheBytes policy : Group Caller).run before)
    (hnew : caller ∉ g.callers) (hkey : key ≠ "") {own : List (Group.Event Caller)}
    (hown : ∀ e ∈ own, e.IsOwn .direct (g.direct.attached caller key) caller)
    {status : Option Nat} (hstatus : status ≠ none → g.directly caller key own ≠ none)
    (hfailed : status = some 500 → ∃ e, g.directly caller key own = some (.error e)) :
    Confined n ((n.updateGroup group fun g => g.lookup caller .direct key).play (inGroup group own))
      group g ((g.lookup caller .direct key).run own) status := by
  have hunused : (Group.new group cacheBytes policy : Group Caller).Unused :=
    Group.unused_new group cacheBytes policy false
  -- Two frames: events inside one group leave the node alone, and own events leave all other loads
  -- of the group alone.
  have hframe := play_frame (n.updateGroup group fun g => g.lookup caller .direct key)
    (inGroup group own)
  subst hg
  constructor
  case pool => exact hframe.1
  case routers => exact hframe.2
  case others =>
    intro name hne
    rw [find?_play, eventsIn_inGroup_of_ne hne, find?_updateGroup, if_neg hne]
    exact Option.map_id_fun ▸ rfl
  case group => rw [find?_looked_up hfind, eventsIn_inGroup]
  case aside => exact (Group.aside_lookup _ caller .direct key).trans (Group.aside_run hown)
  case markers =>
    intro hsome k leader hmark
    obtain ⟨o, ho⟩ := Option.ne_none_iff_exists'.1 (hstatus hsome)
    exact Group.markers_of_answered hunused hnew hkey hown ho hmark
  case failed =>
    intro h500
    obtain ⟨e, he⟩ := hfailed h500
    exact Group.store_of_failed hunused hnew hkey hown he
  case peers =>
    intro access leader request hreq hremote
    exact Group.remote_of_own hunused hown hreq hremote

/-- A request for a key of a group that there is. -/
theorem serves (hget : r.method = "GET")
    (hroute : Peer.Route.ofRequest Peer.defaultBasePath r = Peer.Route.below r.method [] rest)
    (hnames : Peer.Names rest group key) : n.Serves caller r group key g := by
  -- Whatever comes later, the response is one of three: still waiting, the value, the error's text.
  have hcases := serve_cases hn hfind hnew hget hroute hnames
  constructor
  case waits =>
    intro later
    rcases hcases later with ⟨ho, hr⟩ | ⟨value, ho, hr⟩ | ⟨e, ho, hr⟩ <;> simp [ho, hr]
  case success =>
    intro later
    unfold status?
    rcases hcases later with ⟨ho, hr⟩ | ⟨value, ho, hr⟩ | ⟨e, ho, hr⟩ <;>
      simp [ho, hr, Http.Response.text]
  case failure =>
    intro later
    unfold status?
    rcases hcases later with ⟨ho, hr⟩ | ⟨value, ho, hr⟩ | ⟨e, ho, hr⟩ <;>
      simp [ho, hr, Http.Response.text]
  case value =>
    intro later value hvalue
    rcases hcases later with ⟨ho, hr⟩ | ⟨value', ho, hr⟩ | ⟨e, ho, hr⟩
    · cases hvalue.symm.trans ho
    · cases hvalue.symm.trans ho
      exact hr
    · cases hvalue.symm.trans ho
  case text =>
    intro later e he
    rcases hcases later with ⟨ho, hr⟩ | ⟨value, ho, hr⟩ | ⟨e', ho, hr⟩
    · cases he.symm.trans ho
    · cases he.symm.trans ho
    · cases he.symm.trans ho
      exact hr
  -- The events are named on the node; the load lives in the group, which has never been used by
  -- this caller.
  case answered =>
    intro later reply hno hnone
    obtain ⟨cacheBytes, policy, before, rfl⟩ := hn group g hfind
    rw [serve_found hget hroute hnames hfind, eventsIn_append, eventsIn_inGroup] at hnone
    refine Group.directly_completing (Group.unused_new group cacheBytes policy false) hnew key ?_
      reply (Option.map_eq_none_iff.1 hnone)
    exact fun hmem => hno (mem_eventsIn.1 hmem)
  case confined =>
    intro own hown
    obtain ⟨cacheBytes, policy, before, hg⟩ := hn group g hfind
    refine ⟨(g.lookup caller .direct key).run own, ?_⟩
    have hanswer := hcases (inGroup group own)
    rw [eventsIn_inGroup] at hanswer
    have hnode : (n.serve caller r (inGroup group own)).1 =
        (n.updateGroup group fun g => g.lookup caller .direct key).play (inGroup group own) := by
      rw [serve_found hget hroute hnames hfind]
    rw [hnode]
    refine confined_of_own hfind hg hnew hnames.key_ne hown (fun hsome hnone => ?_)
      fun hfailed => ?_
    · rcases hanswer with ⟨-, hr⟩ | ⟨value, ho, -⟩ | ⟨e, ho, -⟩
      · apply hsome
        unfold status?
        rw [hr]
        rfl
      · cases hnone.symm.trans ho
      · cases hnone.symm.trans ho
    · unfold status? at hfailed
      rcases hanswer with ⟨-, hr⟩ | ⟨value, -, hr⟩ | ⟨e, ho, -⟩
      · rw [hr] at hfailed
        cases hfailed
      · rw [hr] at hfailed
        cases hfailed
      · exact ⟨e, ho⟩

/-- The status of a request for a key of a group. -/
theorem status?_of_found (hget : r.method = "GET")
    (hroute : Peer.Route.ofRequest Peer.defaultBasePath r = Peer.Route.below r.method [] rest)
    (hnames : Peer.Names rest group key) (later : List GroupEvent) :
    n.status? caller r later ≠ some 400 ∧ n.status? caller r later ≠ some 404 := by
  unfold status?
  rcases serve_cases hn hfind hnew hget hroute hnames later with
    ⟨-, hr⟩ | ⟨value, -, hr⟩ | ⟨e, -, hr⟩
  · rw [hr]
    exact ⟨nofun, nofun⟩
  · rw [hr]
    exact ⟨nofun, nofun⟩
  · rw [hr]
    exact ⟨nofun, nofun⟩

end Found

/-! ## Every request -/

/-- On a reached node, what a group looks up directly goes to no peer. -/
theorem Reached.staysLocal {n : Node} (hn : n.Reached) {name : String} {g : Group Caller}
    (hfind : n.groups.find? name = some g) : g.StaysLocal := by
  obtain ⟨cacheBytes, policy, before, rfl⟩ := hn name g hfind
  exact (Group.fed_run (Group.unused_new name cacheBytes policy false).fed before).staysLocal

section Every

variable {n : Node} {caller : Caller} {r : Http.Request} {rest : List UInt8}

/-- So the answer to a path that names no group and key is 400, and later events find the node as it
was. -/
theorem serve_malformed (hget : r.method = "GET")
    (hroute : Peer.Route.ofRequest Peer.defaultBasePath r = Peer.Route.below r.method [] rest)
    (hno : ∀ group key, ¬ Peer.Names rest group key) (n : Node) (caller : Caller)
    (later : List GroupEvent) :
    ∃ text, n.serve caller r later = (n.play later, some (.text 400 text)) := by
  obtain ⟨text, haccept⟩ := acceptPeer_malformed hget hroute hno n caller
  refine ⟨text, ?_⟩
  unfold serve
  rw [haccept]

/-- And the answer for a group that the node does not have is 404. -/
theorem serve_missing (hget : r.method = "GET")
    (hroute : Peer.Route.ofRequest Peer.defaultBasePath r = Peer.Route.below r.method [] rest)
    {group key : String} (hnames : Peer.Names rest group key) (hnone : n.groups.find? group = none)
    (later : List GroupEvent) : n.serve caller r later =
      (n.play later, some (.text 404 (CacheError.groupNotFound group).message)) := by
  unfold serve
  rw [acceptPeer_missing hget hroute hnames hnone]

/-- What is below the base path names nothing, or something in a group that there is or is not. -/
theorem names_cases (n : Node) (rest : List UInt8) :
    (∀ group key, ¬ Peer.Names rest group key) ∨ ∃ group key, Peer.Names rest group key ∧
      (n.groups.find? group = none ∨ ∃ g, n.groups.find? group = some g) := by
  by_cases hno : ∀ group key, ¬ Peer.Names rest group key
  · exact Or.inl hno
  · push Not at hno
    obtain ⟨group, key, hnames⟩ := hno
    refine Or.inr ⟨group, key, hnames, ?_⟩
    cases n.groups.find? group with
    | none => exact Or.inl rfl
    | some g => exact Or.inr ⟨g, rfl⟩

/-- A request leaves every group one that a run has led to. -/
theorem Reached.serve (hn : n.Reached) (hget : r.method = "GET")
    (hroute : Peer.Route.ofRequest Peer.defaultBasePath r = Peer.Route.below r.method [] rest)
    (later : List GroupEvent) : (n.serve caller r later).1.Reached := by
  rcases n.names_cases rest with hno | ⟨group, key, hnames, hnone | ⟨g, hfind⟩⟩
  · obtain ⟨text, hserve⟩ := serve_malformed hget hroute hno n caller later
    rw [hserve]
    exact hn.play later
  · rw [serve_missing hget hroute hnames hnone]
    exact hn.play later
  · rw [serve_found hget hroute hnames hfind]
    exact (hn.updateGroup group (.lookup caller .direct key)).play later

/-- **A request to the peer endpoint.** Take a node whose groups any runs have led to, and a `GET`
request of a new caller whose path is below the base path. What follows the base path names a group
and a key or does not. If it does not, the response is 400; if there is no such group, it is 404;
otherwise it is what the group answers to a direct lookup, 200 with the raw value or 500 with the
text of the error. A refusal changes nothing; a lookup, as long as nothing else happens, changes
this group only, its cache only if it is no failure, and makes nobody ask a peer. -/
theorem serve_request (hn : n.Reached)
    (hnew : ∀ name g, n.groups.find? name = some g → caller ∉ g.callers) (hget : r.method = "GET")
    (hrest : rest ≠ [])
    (hpath : (Http.Target.parse r.target).path = utf8 Peer.defaultBasePath ++ rest) :
    n.Endpoint caller r rest := by
  have hroute := Peer.ofRequest_below hrest hpath
  constructor
  -- Which of 400, 404 and an answer it is follows from what the path names, and each clause rules
  -- the other two out.
  case malformed =>
    intro later
    constructor
    · intro h400 group key hnames
      cases hfind : n.groups.find? group with
      | none =>
        unfold status? at h400
        rw [serve_missing hget hroute hnames hfind] at h400
        cases h400
      | some g =>
        exact (status?_of_found hn hfind (hnew group g hfind) hget hroute hnames later).1 h400
    · intro hno
      obtain ⟨text, hserve⟩ := serve_malformed hget hroute hno n caller later
      unfold status?
      rw [hserve]
      rfl
  case unknown =>
    intro later group key hnames
    constructor
    · intro h404
      cases hfind : n.groups.find? group with
      | none => rfl
      | some g =>
        exact absurd h404
          (status?_of_found hn hfind (hnew group g hfind) hget hroute hnames later).2
    · intro hnone
      unfold status?
      rw [serve_missing hget hroute hnames hnone]
      rfl
  case missing =>
    intro later group key hnames hnone
    rw [serve_missing hget hroute hnames hnone]
  case found =>
    intro group key g hnames hfind
    exact serves hn hfind (hnew group g hfind) hget hroute hnames
  case unchanged =>
    intro later hstatus
    rcases n.names_cases rest with hno | ⟨group, key, hnames, hnone | ⟨g, hfind⟩⟩
    · obtain ⟨text, hserve⟩ := serve_malformed hget hroute hno n caller later
      rw [hserve]
    · rw [serve_missing hget hroute hnames hnone]
    · obtain ⟨hnot400, hnot404⟩ :=
        status?_of_found hn hfind (hnew group g hfind) hget hroute hnames later
      exact (hstatus.elim hnot400 hnot404).elim
  case stays =>
    intro later name h leader request hfind hreq
    exact ((hn.serve hget hroute later).staysLocal hfind).isRemote hreq

end Every

/-! ## Two groups -/

/-- A node with two groups, one of which has an empty name. -/
def twoGroups : Node :=
  { new none with
    groups := (Table.empty.insert "" (.new "" 64 .skip)).insert "g" (.new "g" 64 .skip) }

theorem reached_twoGroups : twoGroups.Reached := by
  have hfirst : (new none).register (.new "" 64 .skip) =
      .ok { new none with groups := Table.empty.insert "" (.new "" 64 .skip) } := rfl
  have hsecond : Node.register { new none with groups := Table.empty.insert "" (.new "" 64 .skip) }
      (.new "g" 64 .skip) = .ok twoGroups := rfl
  exact ((reached_new none).register hfirst).register hsecond

/-- The source answers the request of question 0. -/
def answered (name : String) : List GroupEvent :=
  inGroup name (Group.completing (.question 0) (.question 0) (.ok [0x76]))

/-- A value with an encoded slash in its key. -/
theorem serve_request_value :
    twoGroups.Reached ∧
    (∀ name g, twoGroups.groups.find? name = some g → .question 0 ∉ g.callers) ∧
    (Http.Target.parse "/_distributed_cache/g/a%2Fb").path =
      utf8 Peer.defaultBasePath ++ utf8 "g/a%2Fb" ∧
    Peer.Names (utf8 "g/a%2Fb") "g" "a/b" ∧
    (twoGroups.serve (.question 0) ⟨"GET", "/_distributed_cache/g/a%2Fb"⟩ (answered "g")).2 =
      some ⟨200, some "application/octet-stream", none, [0x76]⟩ := by
  have hnew : ∀ name g, twoGroups.groups.find? name = some g → .question 0 ∉ g.callers := by
    intro name g hfind
    obtain ⟨e, he, rfl⟩ := Option.map_eq_some_iff.1 hfind
    have hmem := List.mem_of_find?_eq_some he
    simp [twoGroups, Table.insert, Table.erase, Table.empty] at hmem
    rcases hmem with rfl | rfl
    · exact List.not_mem_nil
    · exact List.not_mem_nil
  -- Only the request's own text is evaluated: how it is served is the theorem's.
  have hpath : (Http.Target.parse "/_distributed_cache/g/a%2Fb").path =
      utf8 Peer.defaultBasePath ++ utf8 "g/a%2Fb" := by decide +kernel
  have hnames : Peer.Names (utf8 "g/a%2Fb") "g" "a/b" :=
    ⟨utf8 "g", utf8 "a%2Fb", by decide +kernel, by decide +kernel, by decide +kernel,
      by decide +kernel, by decide +kernel⟩
  have hendpoint : twoGroups.Endpoint (.question 0) ⟨"GET", "/_distributed_cache/g/a%2Fb"⟩
      (utf8 "g/a%2Fb") :=
    serve_request reached_twoGroups hnew rfl (by decide +kernel) hpath
  have hvalue : (Group.new "g" 64 .skip : Group Caller).directly (.question 0) "a/b"
      (eventsIn "g" (answered "g")) = some (.ok ⟨[0x76]⟩) := by decide +kernel
  exact ⟨reached_twoGroups, hnew, hpath, hnames,
    (hendpoint.found "g" "a/b" (.new "g" 64 .skip) hnames rfl).value (answered "g") ⟨[0x76]⟩ hvalue⟩

/-- An empty group part is a name like any other: a path that has none is not refused. -/
theorem serve_empty_name :
    (Http.Target.parse "/_distributed_cache//k").path = utf8 Peer.defaultBasePath ++ utf8 "/k" ∧
    (¬ ∃ g k : List UInt8, utf8 "/k" = g ++ 0x2F :: k ∧ (0x2F : UInt8) ∉ g ∧ g ≠ [] ∧ k ≠ []) ∧
    (twoGroups.serve (.question 0) ⟨"GET", "/_distributed_cache//k"⟩ (answered "")).2 =
      some ⟨200, some "application/octet-stream", none, [0x76]⟩ := by
  refine ⟨by decide +kernel, ?_, by decide +kernel⟩
  rintro ⟨g, k, hcut, hslash, hg, -⟩
  have hbytes : utf8 "/k" = [0x2F, 0x6B] := by decide +kernel
  rw [hbytes] at hcut
  cases g with
  | nil => exact hg rfl
  | cons b g =>
    cases (List.cons.inj hcut).1
    exact hslash List.mem_cons_self

end Node

end PeerCache
