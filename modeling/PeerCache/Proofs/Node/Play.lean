import PeerCache.Node.Request
import PeerCache.Proofs.Group.Provenance
/-!
# PeerCache — what happens in the groups of a node

The groups of a node do not hear of one another: what has become of a group is what its own events
have made of it (**`find?_play`**), and of the rest of the node nothing has changed. So each group
of a node is one that a run has led to (**`Reached`**), whatever is done with the node.
-/

namespace PeerCache

namespace Node

theorem find?_updateGroup (n : Node) (name : String) (f : Group Caller → Group Caller)
    (k : String) : (n.updateGroup name f).groups.find? k =
      if k = name then (n.groups.find? k).map f else n.groups.find? k :=
  n.groups.find?_modify name k f

/-- The events of a group are picked out one by one. -/
theorem eventsIn_cons (name : String) (e : GroupEvent) (events : List GroupEvent) :
    eventsIn name (e :: events) =
      if e.1 = name then e.2 :: eventsIn name events else eventsIn name events := by
  unfold eventsIn
  by_cases h : e.1 = name
  · rw [if_pos h, List.filter_cons_of_pos (by simpa using h)]
    rfl
  · rw [if_neg h, List.filter_cons_of_neg (by simpa using h)]

/-- An event is one of a group's exactly if it stands in the run with the group's name. -/
theorem mem_eventsIn {name : String} {events : List GroupEvent} {e : Group.Event Caller} :
    e ∈ eventsIn name events ↔ (name, e) ∈ events := by
  induction events with
  | nil => simp [eventsIn]
  | cons x xs ih =>
    obtain ⟨k, d⟩ := x
    rw [eventsIn_cons]
    by_cases h : k = name
    · subst h
      rw [if_pos rfl, List.mem_cons, List.mem_cons, ih]
      simp
    · rw [if_neg h, List.mem_cons, ih, Prod.mk.injEq]
      simp [Ne.symm h]

theorem eventsIn_append (name : String) (before after : List GroupEvent) :
    eventsIn name (before ++ after) = eventsIn name before ++ eventsIn name after := by
  unfold eventsIn
  rw [List.filter_append, List.map_append]

theorem eventsIn_inGroup (name : String) (events : List (Group.Event Caller)) :
    eventsIn name (inGroup name events) = events := by
  induction events with
  | nil => rfl
  | cons e es ih =>
    show eventsIn name ((name, e) :: inGroup name es) = e :: es
    rw [eventsIn_cons, if_pos rfl, ih]

theorem eventsIn_inGroup_of_ne {name k : String} (h : k ≠ name)
    (events : List (Group.Event Caller)) : eventsIn k (inGroup name events) = [] := by
  refine List.eq_nil_iff_forall_not_mem.2 fun e he => ?_
  obtain ⟨d, -, hd⟩ := List.mem_map.1 (mem_eventsIn.1 he)
  exact h (congrArg Prod.fst hd).symm

/-- A group goes on by what happens in it. -/
theorem find?_play (n : Node) (events : List GroupEvent) (name : String) :
    (n.play events).groups.find? name =
      (n.groups.find? name).map fun g => g.run (eventsIn name events) := by
  induction events generalizing n with
  | nil =>
    show n.groups.find? name = (n.groups.find? name).map id
    rw [Option.map_id_fun, id]
  | cons e es ih =>
    show ((n.updateGroup e.1 fun g => g.step e.2).play es).groups.find? name = _
    rw [ih, find?_updateGroup, eventsIn_cons]
    by_cases h : name = e.1
    · rw [if_pos h, if_pos h.symm, Option.map_map]
      rfl
    · rw [if_neg h, if_neg fun heq => h heq.symm]

/-- What happens in the groups concerns neither the pool nor the routers. -/
theorem play_frame (n : Node) (events : List GroupEvent) :
    (n.play events).pool = n.pool ∧ (n.play events).routers = n.routers := by
  induction events generalizing n with
  | nil => exact ⟨rfl, rfl⟩
  | cons e es ih => exact ih (n.updateGroup e.1 fun g => g.step e.2)

/-! ## Groups that a run has led to -/

theorem reached_new (pool : Option Peer.Pool) : (new pool).Reached := by
  intro name g hg
  cases hg

/-- A group that is registered is new, so a node stays a reached one. -/
theorem Reached.register {n m : Node} (h : n.Reached) {name : String} {cacheBytes : Nat}
    {policy : RemotePolicy} (hm : n.register (.new name cacheBytes policy) = .ok m) :
    m.Reached := by
  intro k g hg
  unfold Node.register Registry.register at hm
  split at hm
  next => cases hm
  next =>
    cases hm
    have hgroup : (n.groups.insert name (.new name cacheBytes policy)).find? k = some g := hg
    rw [Table.find?_insert] at hgroup
    split at hgroup
    next hk =>
      cases hgroup
      exact ⟨cacheBytes, policy, [], by rw [hk]; rfl⟩
    next => exact h k g hgroup

/-- Telling the pool of other peers concerns no group. -/
theorem Reached.setPeers {n : Node} (h : n.Reached) (peers : List String) :
    (n.setPeers peers).Reached := h

/-- An event leaves a group one that a run has led to. -/
theorem Reached.updateGroup {n : Node} (h : n.Reached) (name : String) (e : Group.Event Caller) :
    (n.updateGroup name fun g => g.step e).Reached := by
  intro k g hg
  rw [find?_updateGroup] at hg
  split at hg
  next =>
    obtain ⟨g', hg', rfl⟩ := Option.map_eq_some_iff.1 hg
    obtain ⟨cacheBytes, policy, before, rfl⟩ := h k g' hg'
    exact ⟨cacheBytes, policy, before ++ [e], by rw [Group.run_append]; rfl⟩
  next => exact h k g hg

/-- A group that gets a router is still what events have made of it. -/
theorem Reached.registerPeers {n m : Node} (h : n.Reached) {name : String} {router : Router}
    (hm : n.registerPeers name router = .ok m) : m.Reached := by
  unfold Node.registerPeers at hm
  cases hfind : n.groups.find? name with
  | none =>
    rw [hfind] at hm
    cases hm
    exact h
  | some g =>
    rw [hfind] at hm
    cases hreg : g.registerPeers with
    | error e =>
      simp only [hreg] at hm
      cases hm
    | ok g' =>
      simp only [hreg] at hm
      cases hm
      -- Only the named group is another one now, by one more event of its run.
      intro k d hd
      have hgroup : (n.groups.modify name fun _ => g').find? k = some d := hd
      rw [Table.find?_modify] at hgroup
      split at hgroup
      next hk =>
        subst hk
        rw [hfind] at hgroup
        cases hgroup
        obtain ⟨cacheBytes, policy, before, rfl⟩ := h k g hfind
        refine ⟨cacheBytes, policy, before ++ [.registerPeers], ?_⟩
        rw [Group.run_append]
        show g' = ((Group.run _ before).registerPeers).toOption.getD _
        rw [hreg]
        rfl
      next => exact h k d hgroup

/-- What happens in the groups of a reached node leads to one. -/
theorem Reached.play {n : Node} (h : n.Reached) (events : List GroupEvent) :
    (n.play events).Reached := by
  induction events generalizing n with
  | nil => exact h
  | cons e es ih => exact ih (h.updateGroup e.1 e.2)

end Node

end PeerCache
