import Mathlib.Data.List.Induction
import PeerCache.Proofs.Cluster.Agreed
import PeerCache.Proofs.Cluster.Loads
import PeerCache.Proofs.Cluster.OneHop
/-!
# PeerCache — sources are asked by owners, or for want of an answer

In a cluster whose nodes agree, the source of a key's owner is the one that is asked for the key,
wherever the key is looked up. Another node asks its own source only in a load that has got an error
from the owner.

* **`MayBe`**, **`Placed`** — where a load may stand. The key of a direct load belongs to its node;
  a routed load asks the owner, or it has the owner's error behind it when it comes to the source.
* **`Guided`** — the invariant of a run: all loads are placed, every question is one to the owner of
  its key, and what a store holds has been put there by the owner or by a load that fell back.
-/

namespace PeerCache

namespace Cluster

variable {addrs : List String} {replicas : Nat} {c : Cluster} {e : Event} {events : List Event}

/-! ## The invariant -/

/-- What a load for a key may be doing after the events of a run. -/
def MayBe (addrs : List String) (replicas : Nat) (c : Cluster) (events : List Event) (l : LoadId)
    (key : String) : Phase → Prop
  | .queued router => l.access = .routed → router = true
  | .asking baseUrl =>
    ∃ o, ownerOf addrs replicas key = some o ∧ baseUrl = o ++ Peer.defaultBasePath
  | .loading => ∀ o, ownerOf addrs replicas key = some o →
    c.selfAddr? l.node = some o ∨
      l.access = .routed ∧ c.Failed events l (o ++ Peer.defaultBasePath) key

/-- Where a load stands after the events of a run. -/
structure Placed (addrs : List String) (replicas : Nat) (c : Cluster) (events : List Event)
    (l : LoadId) (key : String) (phase : Phase) : Prop where
  direct : l.access = .direct → c.Owns addrs replicas l.node key
  plain : l.access = .routed → Peer.Plain key
  mayBe : c.MayBe addrs replicas events l key phase

/-- What holds after the events of a run. -/
structure Guided (addrs : List String) (replicas : Nat) (c : Cluster) (events : List Event) :
    Prop where
  members : ∀ n ∈ (c.run events).nodes, n.Member addrs replicas
  loads : ∀ l key phase, (c.run events).load? l = some (key, phase) →
    c.Placed addrs replicas events l key phase
  questions : ∀ x ∈ (c.run events).questions, ∃ o key, ownerOf addrs replicas key = some o ∧
    Peer.Plain key ∧ Peer.request (o ++ Peer.defaultBasePath) x.load.group key = .ok x.url
  entries : ∀ i name g, (c.run events).group? i name = some g → g.policy = .skip →
    ∀ entry ∈ g.store.entries, ∀ o, ownerOf addrs replicas entry.1 = some o →
      c.selfAddr? i = some o ∨ c.FellBack events i name entry o

/-! ## Before the first event -/

theorem Agreed.fresh (h : c.Agreed addrs replicas) : c.Fresh where
  questions := h.unasked.questions
  nodes := by
    intro n hn
    refine ⟨fun p hp => ?_, h.unasked.groups n hn⟩
    obtain ⟨p', hp', hbase, -⟩ := (h.members n hn).pool
    cases hp'.symm.trans hp
    exact hbase

/-- And there are neither loads nor questions nor entries to be placed. -/
theorem Agreed.guided (h : c.Agreed addrs replicas) : c.Guided addrs replicas [] where
  members := h.members
  loads := by
    intro l key phase hload
    obtain ⟨g, hg, hload⟩ := group?_of_load? hload
    have hwork := (Group.load?_eq_some.1 hload).1
    rw [(h.fresh.unused hg).boards l.access] at hwork
    cases hwork
  questions := by
    intro x hx
    have hx : x ∈ c.questions := hx
    rw [h.unasked.questions] at hx
    cases hx
  entries := by
    intro i name g hg _ entry hentry
    rw [(h.fresh.unused hg).entries] at hentry
    cases hentry

/-! ## One event -/

/-- A failure remains one of the run, whatever follows. -/
theorem Failed.concat {l : LoadId} {baseUrl key : String} (h : c.Failed events l baseUrl key)
    (e : Event) : c.Failed (events ++ [e]) l baseUrl key := by
  obtain ⟨before, first, after, rfl, hfails⟩ := h
  exact ⟨before, first, after ++ [e], by simp, hfails⟩

theorem FellBack.concat {i : Nat} {name : String} {entry : String × ByteView} {o : String}
    (h : c.FellBack events i name entry o) (e : Event) :
    c.FellBack (events ++ [e]) i name entry o := by
  obtain ⟨before, l, after, rfl, hrest⟩ := h
  exact ⟨before, l, after ++ [e], by simp, hrest⟩

/-- A load that is placed stays so as long as it stays in its phase. -/
theorem Placed.concat {l : LoadId} {key : String} {phase : Phase}
    (h : c.Placed addrs replicas events l key phase) (e : Event) :
    c.Placed addrs replicas (events ++ [e]) l key phase := by
  refine ⟨h.direct, h.plain, ?_⟩
  have hmayBe := h.mayBe
  cases phase with
  | queued router => exact hmayBe
  | asking baseUrl => exact hmayBe
  | loading =>
    intro o ho
    exact (hmayBe o ho).imp_right fun ⟨haccess, hfailed⟩ => ⟨haccess, hfailed.concat e⟩

/-! ## Where an event puts a load -/

/-- A node's being the owner of a key does not change. -/
theorem owns_run {i : Nat} {key : String} (h : (c.run events).Owns addrs replicas i key) :
    c.Owns addrs replicas i key := by
  intro o ho
  rw [← selfAddr?_run c events i]
  exact h o ho

/-- A question that comes to a node asks for a key of the node's own. -/
theorem Guided.owns_of_arrive (h : c.Guided addrs replicas events)
    (hagreed : c.Agreed addrs replicas) {q i : Nat} (hleads : (c.run events).LeadsTo q i)
    {x : Question} {n : Node} {p : Peer.Pool} {name key : String}
    (hx : (c.run events).questions[q]? = some x) (hn : (c.run events).nodes[i]? = some n)
    (hp : n.pool = some p) (hasked : asked? p.basePath x.url = some (name, key)) :
    c.Owns addrs replicas i key := by
  obtain ⟨o, key', howner, hplain, hrequest⟩ := h.questions x (List.mem_of_getElem? hx)
  obtain ⟨p', hp', hbase, -, hself, -⟩ := (h.members n (List.mem_of_getElem? hn)).pool
  cases hp'.symm.trans hp
  have hmem : o ∈ addrs := Ring.mem_of_get howner
  have haddr := hagreed.addresses o hmem
  -- the key comes as it was sent
  rw [hbase] at hasked
  obtain ⟨hkey, -⟩ := Peer.asked_spec (Peer.atRoot_of_isAddress haddr) hrequest hasked
  rw [Peer.kept_eq_self_iff.2 hplain] at hkey
  cases String.toList_inj.1 hkey
  -- and the node is the one that was asked
  have hat : (c.run events).selfAddr? i = some p.selfAddr := by
    unfold selfAddr?
    rw [hn, Option.bind_some, hp]
    rfl
  have horigin := hleads x hx
  rw [hat] at horigin
  have hwhere := Peer.originOf?_of_request hrequest
  rw [Peer.originOf?_append haddr (Or.inr (by decide))] at hwhere
  have hsame : p.selfAddr = o := hagreed.apart _ hself _ hmem _ horigin hwhere
  have howns : (c.run events).Owns addrs replicas i key := by
    intro o' ho'
    cases howner.symm.trans ho'
    rw [hat, hsame]
  exact owns_run howns

/-- A load that starts asks the owner of its key, or it is on the owner. -/
theorem Guided.mayBe_of_start (h : c.Guided addrs replicas events) {l : LoadId} {key : String}
    {router : Bool} {picked : Option String}
    (hqueued : (c.run events).load? l = some (key, .queued router))
    (hpick : (c.run events).usesPool l = true → picked = (c.run events).peerFor l key) :
    c.MayBe addrs replicas (events ++ [e]) l key (Group.firstPhase router picked) := by
  have hold := h.loads l key _ hqueued
  obtain ⟨g, hg, -⟩ := group?_of_load? hqueued
  have hpicks := peerFor_of_members h.members hg key
  rw [← hpick (usesPool_of_members h.members hg).2] at hpicks
  cases hphase : Group.firstPhase router picked with
  | queued router' =>
    -- a load that starts is queued no more
    unfold Group.firstPhase at hphase
    split at hphase
    · cases hphase
    · cases hphase
  | asking baseUrl =>
    obtain ⟨-, rfl⟩ := Group.firstPhase_eq_asking.1 hphase
    rcases hpicks with ⟨hnone, -⟩ | ⟨o, howner, heq⟩
    · cases hnone
    · exact ⟨o, howner, Option.some.inj heq⟩
  | loading =>
    intro o ho
    left
    cases haccess : l.access with
    | direct => exact hold.direct haccess o ho
    | routed =>
      have hnone := Group.firstPhase_eq_loading.1 hphase (hold.mayBe haccess)
      rcases hpicks with ⟨-, howns⟩ | ⟨o, -, heq⟩
      · exact owns_run howns o ho
      · rw [hnone] at heq
        cases heq

/-- A load that a peer fails has asked the owner of its key. -/
theorem Guided.owner_of_fails (h : c.Guided addrs replicas events) {l : LoadId}
    {baseUrl key : String} (hfails : (c.run events).Fails e l baseUrl key) :
    ∃ phase o, (c.run events).load? l = some (key, phase) ∧ ownerOf addrs replicas key = some o ∧
      baseUrl = o ++ Peer.defaultBasePath := by
  rcases hfails.asks with hasking | ⟨hqueued, -, hpick⟩
  · obtain ⟨o, howner, heq⟩ := (h.loads l key _ hasking).mayBe
    exact ⟨_, o, hasking, howner, heq⟩
  · obtain ⟨g, hg, -⟩ := group?_of_load? hqueued
    rcases peerFor_of_members h.members hg key with ⟨hnone, -⟩ | ⟨o, howner, heq⟩
    · rw [hnone] at hpick
      cases hpick
    · exact ⟨_, o, hqueued, howner, Option.some.inj (hpick.symm.trans heq)⟩

/-- An event brings no load where it may not stand. -/
theorem Guided.placed (h : c.Guided addrs replicas events) (hagreed : c.Agreed addrs replicas)
    (hadmits : (c.run events).Admits addrs replicas e) {l : LoadId} {key : String} {phase : Phase}
    (henters : (c.run events).Enters e l key phase) :
    c.Placed addrs replicas (events ++ [e]) l key phase := by
  cases henters with
  | looked client hg event =>
    -- A client's lookup: what is admitted says all that there is to say of its key.
    subst event
    obtain ⟨hplain, howns⟩ := hadmits
    refine ⟨fun haccess => owns_run (howns haccess), fun _ => hplain, fun haccess => ?_⟩
    rw [haccess, (usesPool_of_members h.members hg).1]
    rfl
  | served event access question node pool asked =>
    -- A question is looked up directly, on the node that it was for, and that is the owner.
    subst event
    have hnot : l.access ≠ .routed := by
      rw [access]
      decide
    exact ⟨fun _ => h.owns_of_arrive hagreed hadmits question node pool asked,
      fun hrouted => absurd hrouted hnot, fun hrouted => absurd hrouted hnot⟩
  -- The pool picks by the ring, so it goes to the owner, or it is on it.
  | started picked queued pick =>
    have hold := h.loads l key _ queued
    exact ⟨hold.direct, hold.plain, h.mayBe_of_start queued pick⟩
  | failed baseUrl fails =>
    -- The peer that has failed the load is the owner, as it was asked as such.
    obtain ⟨phase, o, hload, howner, rfl⟩ := h.owner_of_fails fails
    have hold := h.loads l key _ hload
    refine ⟨hold.direct, hold.plain, fun o' ho' => ?_⟩
    cases howner.symm.trans ho'
    cases haccess : l.access with
    | direct => exact Or.inl (hold.direct haccess o howner)
    | routed => exact Or.inr ⟨rfl, events, e, [], rfl, fails⟩

/-- One more event that may happen keeps everything where it may be: loads, questions and
entries. -/
theorem Guided.concat (h : c.Guided addrs replicas events) (hagreed : c.Agreed addrs replicas)
    (hadmits : (c.run events).Admits addrs replicas e) :
    c.Guided addrs replicas (events ++ [e]) := by
  have hrun : c.run (events ++ [e]) = (c.run events).step e := c.run_append events [e]
  -- The loads come first: what is asked and what is kept is told by them.
  have hloads : ∀ l key phase, (c.run (events ++ [e])).load? l = some (key, phase) →
      c.Placed addrs replicas (events ++ [e]) l key phase := by
    intro l key phase hload
    rw [hrun] at hload
    rcases load?_step hload with hold | henters
    · exact (h.loads l key phase hold).concat e
    · exact h.placed hagreed hadmits henters
  refine ⟨?_, hloads, ?_, ?_⟩
  · rw [hrun]
    exact members_step h.members hadmits
  · intro x hx
    rw [hrun] at hx
    -- A question is an old one, or the load that asks it is with the owner now.
    rcases question_step hx with ⟨y, hy, hload, hurl⟩ | ⟨key, baseUrl, hload, hrequest⟩
    · rw [hload, hurl]
      exact h.questions y hy
    · rw [← hrun] at hload
      have hplaced := hloads _ key _ hload
      have hrouted := (hasAsked_of_load? (hagreed.unasked.hops.run _).groups hload).access
      obtain ⟨o, howner, rfl⟩ := hplaced.mayBe
      exact ⟨o, key, howner, hplaced.plain hrouted, hrequest⟩
  · intro i name g hg hpolicy entry hentry o ho
    rw [hrun] at hg
    have hstore : ∀ g, (c.run events).group? i name = some g → g.store.Sound :=
      fun g hg => hagreed.fresh.store_sound events hg
    -- An entry is an old one, or it came with an answer of the source to a load that was placed.
    rcases entry_step hstore hg hpolicy hentry with
      ⟨g₀, hg₀, hpolicy₀, hold⟩ | ⟨access, leader, rfl, hload⟩
    · exact (h.entries i name g₀ hg₀ hpolicy₀ entry hold o ho).imp_right (·.concat e)
    · rcases (h.loads _ _ _ hload).mayBe o ho with hself | ⟨-, hfailed⟩
      · exact Or.inl hself
      · exact Or.inr ⟨events, _, [], rfl, rfl, rfl, hload, hfailed⟩

/-! ## Runs -/

/-- The run lemma: an admitted run keeps everything where it may be. -/
theorem Agreed.guided_run (hagreed : c.Agreed addrs replicas)
    (hadmitted : c.Admitted addrs replicas events) : c.Guided addrs replicas events := by
  induction events using List.reverseRecOn with
  | nil => exact hagreed.guided
  | append_singleton events e ih =>
    obtain ⟨hbefore, hadmits⟩ := admitted_concat.1 hadmitted
    exact (ih hbefore).concat hagreed hadmits

/-! ## Whole runs -/

/-- **Owners and fallbacks.** Take a cluster whose pools have been told the same addresses, which
lead to different places, and any run in which clients look up keys without tabs and line ends and
each question comes to the node whose address it was asked at, or to none. At any moment all rings
name one owner for a key, which they do if there are points on them. A load that waits for its
group's own source is on the owner of its key, or it is a routed load of another node and has itself
got an error from the owner, which it asked for this key. And what the store of a group that keeps
no values of peers holds for a key was put there on the key's owner, or by the source's answer to a
load with such an error behind it. -/
theorem owner_or_fallback (hagreed : c.Agreed addrs replicas) (events : List Event)
    (hadmitted : c.Admitted addrs replicas events) :
    (∀ i n p, (c.run events).nodes[i]? = some n → n.pool = some p →
      c.selfAddr? i = some p.selfAddr ∧ (∀ key, p.ring.get key = ownerOf addrs replicas key) ∧
      (replicas ≠ 0 → ∀ key, ∃ o ∈ addrs, ownerOf addrs replicas key = some o)) ∧
    (∀ l key o, (c.run events).load? l = some (key, .loading) →
      ownerOf addrs replicas key = some o →
      c.selfAddr? l.node = some o ∨
        l.access = .routed ∧ c.Failed events l (o ++ Peer.defaultBasePath) key) ∧
    ∀ i name g entry o, (c.run events).group? i name = some g → g.policy = .skip →
      entry ∈ g.store.entries → ownerOf addrs replicas entry.1 = some o →
      c.selfAddr? i = some o ∨ c.FellBack events i name entry o := by
  have h := hagreed.guided_run hadmitted
  refine ⟨fun i n p hn hp => ?_, fun l key o hload ho => (h.loads l key _ hload).mayBe o ho,
    fun i name g entry o hg hpolicy hentry ho => h.entries i name g hg hpolicy entry hentry o ho⟩
  obtain ⟨p', hp', -, rfl, hself, hknows⟩ := (h.members n (List.mem_of_getElem? hn)).pool
  cases hp'.symm.trans hp
  refine ⟨?_, fun key => ?_, fun hreplicas key => ?_⟩
  · rw [← selfAddr?_run c events i]
    unfold selfAddr?
    rw [hn, Option.bind_some, hp]
    rfl
  · rw [hknows.ring]
    rfl
  · exact Ring.get_new_add HashFn.crc32 hreplicas (List.ne_nil_of_mem hself) key

/-! ### Two nodes -/

/-- The addresses of two nodes. -/
def pairAddrs : List String := ["http://[::1]:8001", "http://[::1]:8002"]

/-- A node with one of them and a group that keeps no values of peers. -/
def memberAt (addr : String) : Node where
  pool := some (Peer.Pool.setPeers ⟨addr, Peer.defaultBasePath, 1, .new 1 HashFn.crc32, .empty⟩
    pairAddrs)
  groups := Table.empty.insert "g" { Group.new "g" 0 .skip with hasRouter := true }
  routers := Table.empty.insert "g" .pool

def agreedPair : Cluster := ⟨pairAddrs.map memberAt, []⟩

/-- The first node's load for a key of the second node. -/
def fallback : LoadId := ⟨0, "g", .routed, .client 0⟩

/-- The second node is asked for the key, but its source fails. -/
def untilFailure : List Event := [
  .lookup 0 "g" .routed 0 "k",
  .start fallback none,
  .arrive 0 1,
  .start ⟨1, "g", .direct, .question 0⟩ none,
  .sourceReply ⟨1, "g", .direct, .question 0⟩ (.error "gone"),
  .respond 0]

/-- The one group of such a node is `g`, with a router. -/
theorem find?_memberAt {addr name : String} {g : Group Caller}
    (h : (memberAt addr).groups.find? name = some g) :
    name = "g" ∧ g = { (Group.new "g" 0 .skip : Group Caller) with hasRouter := true } := by
  have hfind := Table.find?_insert Table.empty "g" name
    { (Group.new "g" 0 .skip : Group Caller) with hasRouter := true }
  rw [show (memberAt addr).groups.find? name = _ from hfind] at h
  split at h
  next hname =>
    cases h
    exact ⟨hname, rfl⟩
  next => cases h

theorem member_memberAt {addr : String} (h : addr ∈ pairAddrs) :
    (memberAt addr).Member pairAddrs 1 where
  pool := ⟨_, rfl, rfl, rfl, h, Peer.Pool.knows_setPeers _ (by decide)⟩
  groups := by
    intro name g hg
    obtain ⟨rfl, rfl⟩ := find?_memberAt hg
    exact ⟨rfl, Table.find?_insert_self _ _ _⟩

/-- The two nodes agree, and their addresses lead to different places. -/
theorem agreed_agreedPair : agreedPair.Agreed pairAddrs 1 where
  unasked := by
    refine ⟨rfl, fun n hn name g hg => ?_⟩
    obtain ⟨addr, -, rfl⟩ := List.mem_map.1 hn
    obtain ⟨rfl, rfl⟩ := find?_memberAt hg
    exact ⟨0, .skip, true, rfl⟩
  members := by
    intro n hn
    obtain ⟨addr, haddr, rfl⟩ := List.mem_map.1 hn
    exact member_memberAt haddr
  addresses := by
    intro a ha
    rcases List.mem_cons.1 ha with rfl | ha
    · exact Peer.isAddress_http "[::1]:8001" (by decide) (by decide)
    · cases List.mem_singleton.1 ha
      exact Peer.isAddress_http "[::1]:8002" (by decide) (by decide)
  apart := by
    have hapart : Peer.originOf? "http://[::1]:8001" ≠ Peer.originOf? "http://[::1]:8002" := by
      decide +kernel
    -- Of the four pairs two are of one address, and the others would have one origin.
    intro a ha b hb origin hfirst hsecond
    have hsame := hfirst.trans hsecond.symm
    rcases List.mem_cons.1 ha with rfl | ha
    · rcases List.mem_cons.1 hb with rfl | hb
      · rfl
      · cases List.mem_singleton.1 hb
        exact absurd hsame hapart
    · cases List.mem_singleton.1 ha
      rcases List.mem_cons.1 hb with rfl | hb
      · exact absurd hsame.symm hapart
      · exact (List.mem_singleton.1 hb).symm

/-- Whether a question leads to a node can be computed from its URL. -/
theorem leadsTo_of_all {q i : Nat} (h : (c.questions[q]?.all fun x =>
    (c.selfAddr? i).bind Peer.originOf? = some x.url.origin) = true) : c.LeadsTo q i :=
  fun x hx => of_decide_eq_true ((Option.all_eq_true _ _).1 h x hx)

/-- The first node falls back on its own source. -/
theorem owner_or_fallback_agreedPair :
    agreedPair.Agreed pairAddrs 1 ∧
    agreedPair.Admitted pairAddrs 1 (untilFailure ++ [.sourceReply fallback (.ok [1])]) ∧
    ownerOf pairAddrs 1 "k" = some "http://[::1]:8002" ∧
    agreedPair.Failed untilFailure fallback ("http://[::1]:8002" ++ Peer.defaultBasePath) "k" ∧
    agreedPair.FellBack (untilFailure ++ [.sourceReply fallback (.ok [1])]) 0 "g" ("k", ⟨[1]⟩)
      "http://[::1]:8002" := by
  have hadmitted : agreedPair.Admitted pairAddrs 1
      (untilFailure ++ [.sourceReply fallback (.ok [1])]) :=
    ⟨⟨by decide, fun h => by cases h⟩, trivial, leadsTo_of_all (by decide +kernel),
      trivial, trivial, trivial, trivial, trivial⟩
  have howner : ownerOf pairAddrs 1 "k" = some "http://[::1]:8002" := by decide +kernel
  have hother : agreedPair.selfAddr? 0 ≠ some "http://[::1]:8002" := by decide
  refine ⟨agreed_agreedPair, hadmitted, howner, ?_, ?_⟩
  -- Before the source answers, the load is at the source of a node that is not the owner.
  · have hload : (agreedPair.run untilFailure).load? fallback = some ("k", .loading) := by
      decide +kernel
    obtain ⟨-, hloads, -⟩ :=
      owner_or_fallback agreed_agreedPair untilFailure (admitted_concat.1 hadmitted).1
    exact ((hloads fallback "k" _ hload howner).resolve_left hother).2
  -- After it has answered, the entry is in the store of that node.
  · have hstore : ((agreedPair.run (untilFailure ++ [.sourceReply fallback (.ok [1])])).group? 0
        "g").map (fun g => (g.policy, g.store.entries)) = some (.skip, [("k", ⟨[1]⟩)]) := by
      decide +kernel
    obtain ⟨g, hg, hentries⟩ := Option.map_eq_some_iff.1 hstore
    obtain ⟨hpolicy, hentries⟩ := Prod.mk.inj hentries
    obtain ⟨-, -, hstores⟩ := owner_or_fallback agreed_agreedPair _ hadmitted
    have hentry : ("k", ⟨[1]⟩) ∈ g.store.entries := by
      rw [hentries]
      exact List.mem_cons_self
    exact (hstores 0 "g" g _ _ hg hpolicy hentry howner).resolve_left hother

end Cluster

end PeerCache
