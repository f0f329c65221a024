import PeerCache.Proofs.Ring.Points
import PeerCache.Ring.History
/-!
# PeerCache — the owner of a key

A ring holds its points sorted, with the newest in front at each position. Both facts are kept by
one insertion (`ascending_place`, `find?_place`), and they are all that the search needs:

* **`exists_serves`** — the first point at or after a key's position, or the first of all, stands at
  the position that serves the key, and no newer point stands there.
* **`get_eq_some_iff`** — so the owner is the node that was the last to place a replica at that
  position, said of the list of replicas alone.

The last section has the result for every run of operations.
-/

namespace PeerCache.Ring

/-! ## Sorted points -/

/-- The points stand in the order of their positions. -/
def Ascending (ps : List (UInt32 × String)) : Prop := ps.Pairwise fun a b => a.1 ≤ b.1

/-- A point that is placed leaves the points in order. -/
theorem ascending_place (p : UInt32 × String) {ps : List (UInt32 × String)} (h : Ascending ps) :
    Ascending (place p ps) := by
  induction ps with
  | nil => simp [place, Ascending]
  | cons q rest ih =>
    obtain ⟨hq, hrest⟩ := List.pairwise_cons.1 h
    unfold place
    split
    next hle =>
      apply List.pairwise_cons.2 ⟨_, h⟩
      intro x hx
      rcases List.mem_cons.1 hx with rfl | hx
      · exact hle
      · exact UInt32.le_trans hle (hq x hx)
    next hlt =>
      apply List.pairwise_cons.2 ⟨_, ih hrest⟩
      intro x hx
      rcases List.mem_cons.1 ((place_perm p rest).mem_iff.1 hx) with rfl | hx
      · exact UInt32.le_of_lt (UInt32.not_le.1 hlt)
      · exact hq x hx

/-- At its position the new point is the first, and nothing changes at the others. -/
theorem find?_place (p : UInt32 × String) (ps : List (UInt32 × String)) (pos : UInt32) :
    (place p ps).find? (fun x => x.1 = pos) =
      if p.1 = pos then some p else ps.find? fun x => x.1 = pos := by
  induction ps with
  | nil => by_cases hp : p.1 = pos <;> simp [place, hp]
  | cons q rest ih =>
    unfold place
    split
    next => by_cases hp : p.1 = pos <;> simp [hp]
    next hlt =>
      by_cases hq : q.1 = pos
      · have hp : p.1 ≠ pos := fun hp => hlt (by simp [hp, hq])
        simp [hq, hp]
      · simp [hq, ih]

theorem ascending_foldl_place (new : List (UInt32 × String)) {ps : List (UInt32 × String)}
    (h : Ascending ps) : Ascending (new.foldl (fun ps p => place p ps) ps) := by
  induction new generalizing ps with
  | nil => exact h
  | cons p new ih => exact ih (ascending_place p h)

/-- The newest point at a position comes first there. -/
theorem find?_foldl_place (new ps : List (UInt32 × String)) (pos : UInt32) :
    (new.foldl (fun ps p => place p ps) ps).find? (fun x => x.1 = pos) =
      (new.reverse ++ ps).find? fun x => x.1 = pos := by
  induction new generalizing ps with
  | nil => rfl
  | cons p new ih =>
    rw [List.foldl_cons, ih, List.reverse_cons, List.append_assoc, List.find?_append,
      List.find?_append, find?_place]
    by_cases hp : p.1 = pos <;> simp [hp]

/-! ## The search -/

/-- One position at most serves a hash. -/
theorem Serves.unique {positions : List UInt32} {h p q : UInt32} (hp : Serves positions h p)
    (hq : Serves positions h q) : p = q := by
  rcases hp.first with ⟨hple, hpmin⟩ | ⟨hbefore, hpmin⟩
  · rcases hq.first with ⟨hqle, hqmin⟩ | ⟨hbefore, -⟩
    · exact UInt32.le_antisymm (hpmin q hq.taken hqle) (hqmin p hp.taken hple)
    · exact absurd hple (UInt32.not_le.2 (hbefore p hp.taken))
  · rcases hq.first with ⟨hqle, -⟩ | ⟨-, hqmin⟩
    · exact absurd hqle (UInt32.not_le.2 (hbefore q hq.taken))
    · exact UInt32.le_antisymm (hpmin q hq.taken) (hqmin p hp.taken)

/-- A position that serves a hash does so among fewer positions, if it is one of them. -/
theorem Serves.of_subset {positions fewer : List UInt32} {h p : UInt32}
    (hp : Serves positions h p) (hsub : fewer ⊆ positions) (hmem : p ∈ fewer) :
    Serves fewer h p := by
  refine ⟨hmem, ?_⟩
  rcases hp.first with ⟨hle, hmin⟩ | ⟨hbefore, hmin⟩
  · exact Or.inl ⟨hle, fun q hq => hmin q (hsub hq)⟩
  · exact Or.inr ⟨fun q hq => hbefore q (hsub hq), fun q hq => hmin q (hsub hq)⟩

/-- Which position serves a hash depends on the set of positions only. -/
theorem serves_congr {first second : List UInt32} (hsame : ∀ q, q ∈ first ↔ q ∈ second)
    {h p : UInt32} : Serves first h p ↔ Serves second h p :=
  ⟨fun hp => hp.of_subset (fun q hq => (hsame q).2 hq) ((hsame p).1 hp.taken),
    fun hp => hp.of_subset (fun q hq => (hsame q).1 hq) ((hsame p).2 hp.taken)⟩

/-- The search ends at the position that serves the key, on the first point there. -/
theorem exists_serves {ps : List (UInt32 × String)} (hps : Ascending ps) (hne : ps ≠ [])
    (h : UInt32) :
    ∃ x, Serves (ps.map Prod.fst) h x.1 ∧ ps.find? (fun y => y.1 = x.1) = some x ∧
      ownerOf ps h = some x.2 := by
  unfold ownerOf
  cases hfind : ps.find? fun y => h ≤ y.1 with
  | some x =>
    obtain ⟨hx, before, after, rfl, hbefore⟩ := List.find?_eq_some_iff_append.1 hfind
    simp only [decide_eq_true_eq] at hx
    simp only [Bool.not_eq_true', decide_eq_false_iff_not] at hbefore
    have hlast : ∀ y ∈ after, x.1 ≤ y.1 :=
      (List.pairwise_cons.1 (List.pairwise_append.1 hps).2.1).1
    refine ⟨x, ⟨by simp, Or.inl ⟨hx, ?_⟩⟩, ?_, rfl⟩
    · intro q hq hle
      obtain ⟨y, hy, rfl⟩ := List.mem_map.1 hq
      rcases List.mem_append.1 hy with hy | hy
      · exact absurd hle (hbefore y hy)
      · rcases List.mem_cons.1 hy with rfl | hy
        · exact UInt32.le_refl y.1
        · exact hlast y hy
    · -- what is before the key's position is not at the one that serves it
      have hnone : before.find? (fun y => y.1 = x.1) = none := by
        simp only [List.find?_eq_none, decide_eq_true_eq]
        intro y hy heq
        exact hbefore y hy (heq ▸ hx)
      simp [List.find?_append, hnone]
  | none =>
    obtain ⟨x, rest, rfl⟩ := List.exists_cons_of_ne_nil hne
    simp only [List.find?_eq_none, decide_eq_true_eq] at hfind
    refine ⟨x, ⟨by simp, Or.inr ⟨?_, ?_⟩⟩, by simp, rfl⟩
    · intro q hq
      obtain ⟨y, hy, rfl⟩ := List.mem_map.1 hq
      exact UInt32.not_le.1 (hfind y hy)
    · intro q hq
      obtain ⟨y, hy, rfl⟩ := List.mem_map.1 hq
      rcases List.mem_cons.1 hy with rfl | hy
      · exact UInt32.le_refl y.1
      · exact (List.pairwise_cons.1 hps).1 y hy

/-- The owner of a hash is the first node at the position that serves it. -/
theorem ownerOf_eq_some_iff {ps : List (UInt32 × String)} (hps : Ascending ps) (h : UInt32)
    (node : String) :
    ownerOf ps h = some node ↔
      ∃ p, Serves (ps.map Prod.fst) h p ∧
        (ps.find? fun x => x.1 = p).map Prod.snd = some node := by
  constructor
  · intro hget
    have hne : ps ≠ [] := by
      rintro rfl
      simp [ownerOf] at hget
    -- One position serves each hash; that is both directions.
    obtain ⟨x, hserves, hfind, howner⟩ := exists_serves hps hne h
    exact ⟨x.1, hserves, by rw [hfind, ← hget, howner]; rfl⟩
  · rintro ⟨p, hserves, hnode⟩
    have hne : ps ≠ [] := by
      rintro rfl
      simp at hnode
    obtain ⟨x, hserves', hfind, howner⟩ := exists_serves hps hne h
    rw [hserves.unique hserves', hfind] at hnode
    rw [howner, ← hnode]
    rfl

/-! ## The replicas -/

/-- The points of some nodes are their replicas at their positions. -/
theorem pointsOf_eq (hash : HashFn) (replicas : Nat) (nodes : List String) :
    pointsOf hash replicas nodes =
      (placed replicas nodes).map fun v => (v.position hash, v.node) := by
  simp only [pointsOf, placed, List.map_flatMap, List.map_map]
  rfl

/-- Each node is placed as many times as there are replicas. -/
theorem length_placed (replicas : Nat) (nodes : List String) :
    (placed replicas nodes).length = replicas * nodes.length := by
  simp [placed, List.length_flatMap, Nat.mul_comm]

/-- The last replica at a position is the first one there from the end. -/
theorem lastAt_iff {hash : HashFn} {vs : List Replica} {p : UInt32} {node : String} :
    LastAt hash vs p node ↔
      (vs.reverse.find? fun v => v.position hash = p).map Replica.node = some node := by
  constructor
  · rintro ⟨before, v, after, rfl, rfl, hv, hafter⟩
    have hnone : after.reverse.find? (fun v => v.position hash = p) = none := by
      simpa using hafter
    simp [hnone, hv]
  · intro h
    obtain ⟨v, hv, rfl⟩ := Option.map_eq_some_iff.1 h
    obtain ⟨hp, before, after, heq, hbefore⟩ := List.find?_eq_some_iff_append.1 hv
    refine ⟨after.reverse, v, before.reverse, ?_, rfl, by simpa using hp, by simpa using hbefore⟩
    simpa using congrArg List.reverse heq

/-- The points of a ring are those of its replicas. -/
theorem points_new_add (hash : HashFn) (replicas : Nat) (nodes : List String) :
    ((new replicas hash).add nodes).points =
      ((placed replicas nodes).map fun v => (v.position hash, v.node)).foldl
        (fun ps p => place p ps) [] := by
  rw [← pointsOf_eq]
  rfl

/-- A new ring that nodes are added to has the points of their replicas. -/
theorem points_perm (hash : HashFn) (replicas : Nat) (nodes : List String) :
    ((new replicas hash).add nodes).points.Perm
      ((placed replicas nodes).map fun v => (v.position hash, v.node)) := by
  have hperm := points_add_perm (new replicas hash) nodes
  rwa [pointsOf_eq, show (new replicas hash).points = [] from rfl, List.append_nil] at hperm

theorem mem_positions {hash : HashFn} {replicas : Nat} {nodes : List String} {p : UInt32} :
    p ∈ ((new replicas hash).add nodes).points.map Prod.fst ↔
      p ∈ (placed replicas nodes).map (Replica.position hash) := by
  rw [((points_perm hash replicas nodes).map Prod.fst).mem_iff]
  simp

/-- The newest point at a position is that of the last replica there. -/
theorem find?_points {hash : HashFn} {replicas : Nat} {nodes : List String} {p : UInt32}
    {node : String} :
    (((new replicas hash).add nodes).points.find? fun x => x.1 = p).map Prod.snd = some node ↔
      LastAt hash (placed replicas nodes) p node := by
  rw [points_new_add, find?_foldl_place, List.append_nil, ← List.map_reverse, List.find?_map,
    lastAt_iff, Option.map_map]
  rfl

/-- A key belongs to the node that is last at the position that serves its hash. -/
theorem get_eq_some_iff {hash : HashFn} {replicas : Nat} {nodes : List String} {key node : String} :
    ((new replicas hash).add nodes).get key = some node ↔
      ∃ p, Serves ((placed replicas nodes).map (Replica.position hash)) (hash (Text.utf8 key)) p ∧
        LastAt hash (placed replicas nodes) p node := by
  have hsorted : Ascending ((new replicas hash).add nodes).points :=
    ascending_foldl_place _ List.Pairwise.nil
  show ownerOf _ (hash (Text.utf8 key)) = some node ↔ _
  rw [ownerOf_eq_some_iff hsorted]
  apply exists_congr
  intro p
  rw [serves_congr fun q => mem_positions, find?_points]

/-- A key belongs to nobody exactly if nothing is placed. -/
theorem get_eq_none_iff {hash : HashFn} {replicas : Nat} {nodes : List String} {key : String} :
    ((new replicas hash).add nodes).get key = none ↔ placed replicas nodes = [] := by
  have hperm := points_perm hash replicas nodes
  constructor
  · intro hnone
    by_contra hne
    have hpoints : ((new replicas hash).add nodes).points ≠ [] := by
      intro hnil
      rw [hnil] at hperm
      exact hne (by simpa using hperm.nil_eq)
    obtain ⟨x, -, hget⟩ := exists_owner hpoints key
    rw [hnone] at hget
    cases hget
  · intro hnil
    have hpoints : ((new replicas hash).add nodes).points = [] := by
      rw [hnil] at hperm
      exact hperm.eq_nil
    simp [get, ownerOf, hpoints]

/-! ## Runs -/

/-- Adding nodes in two goes is adding them in one. -/
theorem add_add (r : Ring) (first second : List String) :
    (r.add first).add second = r.add (first ++ second) := by
  simp [add, pointsOf]

/-- A run of additions and lookups adds all that were named, in this order. -/
theorem run_eq_add (r : Ring) (ops : List Op) : r.run ops = r.add (named ops) := by
  induction ops generalizing r with
  | nil => rfl
  | cons op ops ih =>
    show (r.step op).run ops = r.add (op.nodes ++ named ops)
    rw [ih, ← add_add]
    cases op with
    | add nodes => rfl
    | get key => rfl

/-- **The owner of a key.** After any run of operations on a ring without nodes, a key belongs to
nobody exactly when no replica has been placed, and otherwise to the node that was the last to place
one at the position that serves the key. Nothing counts but the names in their order, however they
were split between the additions, and each of them has all its points on the ring, wherever they
coincide. -/
theorem owner_of_run (replicas : Nat) (hash : HashFn) (ops : List Op) (key : String) :
    (((new replicas hash).run ops).get key = none ↔ placed replicas (named ops) = []) ∧
    (∀ node, ((new replicas hash).run ops).get key = some node ↔
      ∃ p, Serves ((placed replicas (named ops)).map (Replica.position hash))
          (hash (Text.utf8 key)) p ∧
        LastAt hash (placed replicas (named ops)) p node) ∧
    ((new replicas hash).run ops).get key = ((new replicas hash).add (named ops)).get key ∧
    ((new replicas hash).run ops).length = replicas * (named ops).length := by
  rw [run_eq_add]
  refine ⟨get_eq_none_iff, fun node => get_eq_some_iff, rfl, ?_⟩
  rw [length, (points_perm hash replicas (named ops)).length_eq, List.length_map, length_placed]

end PeerCache.Ring
