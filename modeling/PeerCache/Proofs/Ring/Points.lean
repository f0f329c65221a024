import Mathlib.Data.List.Basic
import PeerCache.Ring.Basic
/-!
# PeerCache — the points of a ring

A ring holds the points of all nodes that were placed on it, each as often as it was placed
(**`points_add_perm`**), and a key belongs to the node of one of them (**`exists_owner`**).
-/

namespace PeerCache.Ring

/-! ## What is placed -/

/-- A point that is placed is one point more. -/
theorem place_perm (p : UInt32 × String) (ps : List (UInt32 × String)) :
    (place p ps).Perm (p :: ps) := by
  induction ps with
  | nil => exact List.Perm.refl _
  | cons q rest ih =>
    unfold place
    split
    · exact List.Perm.refl _
    · exact (ih.cons q).trans (List.Perm.swap p q rest)

theorem foldl_place_perm (new ps : List (UInt32 × String)) :
    (new.foldl (fun ps p => place p ps) ps).Perm (new ++ ps) := by
  induction new generalizing ps with
  | nil => exact List.Perm.refl _
  | cons p new ih =>
    show (new.foldl (fun ps p => place p ps) (place p ps)).Perm (p :: (new ++ ps))
    exact ((ih _).trans ((place_perm p ps).append_left new)).trans List.perm_middle

/-- A ring that nodes are added to has their points and those it had. -/
theorem points_add_perm (r : Ring) (nodes : List String) :
    (r.add nodes).points.Perm (pointsOf r.hash r.replicas nodes ++ r.points) :=
  foldl_place_perm _ _

/-- The points of some nodes are the hashes of their labels. -/
theorem mem_pointsOf {hash : HashFn} {replicas : Nat} {nodes : List String}
    {p : UInt32 × String} :
    p ∈ pointsOf hash replicas nodes ↔
      p.2 ∈ nodes ∧ ∃ i < replicas, p.1 = hash (Text.utf8 (label i p.2)) := by
  unfold pointsOf
  rw [List.mem_flatMap]
  constructor
  · rintro ⟨node, hnode, hp⟩
    obtain ⟨i, hi, rfl⟩ := List.mem_map.1 hp
    exact ⟨hnode, i, List.mem_range.1 hi, rfl⟩
  · rintro ⟨hnode, i, hi, hp⟩
    exact ⟨p.2, hnode, List.mem_map.2 ⟨i, List.mem_range.2 hi, Prod.ext hp.symm rfl⟩⟩

/-- The points of a ring that had none. -/
theorem mem_points_new_add {hash : HashFn} {replicas : Nat} {nodes : List String}
    {p : UInt32 × String} :
    p ∈ ((new replicas hash).add nodes).points ↔
      p.2 ∈ nodes ∧ ∃ i < replicas, p.1 = hash (Text.utf8 (label i p.2)) := by
  rw [(points_add_perm (new replicas hash) nodes).mem_iff, show (new replicas hash).points = []
    from rfl, List.append_nil]
  exact mem_pointsOf

/-! ## Who owns a key -/

/-- A ring with a point has an owner for every key. -/
theorem exists_owner {r : Ring} (h : r.points ≠ []) (key : String) :
    ∃ p ∈ r.points, r.get key = some p.2 := by
  unfold get ownerOf
  cases hfind : r.points.find? fun p => r.hash (Text.utf8 key) ≤ p.1 with
  | some p => exact ⟨p, List.mem_of_find?_eq_some hfind, rfl⟩
  | none =>
    -- past the last point it goes round to the first one
    obtain ⟨p, rest, hpoints⟩ := List.exists_cons_of_ne_nil h
    rw [hpoints]
    exact ⟨p, List.mem_cons_self, rfl⟩

/-- With nodes on the ring, every key belongs to one of them. -/
theorem get_new_add (hash : HashFn) {replicas : Nat} {nodes : List String}
    (hreplicas : replicas ≠ 0) (hnodes : nodes ≠ []) (key : String) :
    ∃ owner ∈ nodes, ((new replicas hash).add nodes).get key = some owner := by
  obtain ⟨node, hnode⟩ := List.exists_mem_of_ne_nil nodes hnodes
  have hpoint : (hash (Text.utf8 (label 0 node)), node) ∈
      ((new replicas hash).add nodes).points :=
    mem_points_new_add.2 ⟨hnode, 0, Nat.pos_of_ne_zero hreplicas, rfl⟩
  obtain ⟨p, hp, howner⟩ := exists_owner (List.ne_nil_of_mem hpoint) key
  exact ⟨p.2, (mem_points_new_add.1 hp).1, howner⟩

end PeerCache.Ring
