import PeerCache.Ring.Basic
/-!
# PeerCache — what happens to a ring

A ring is told of nodes and asked for keys, in any order. `placed` lists the replicas of the nodes
that it was told of in the order in which they were placed, and `Serves` and `LastAt` read the owner
of a key off this list: the position that serves the key, and the node that was the last to place a
replica there. Nodes are `Apart` when no two of them meet at a position.
-/

namespace PeerCache

namespace Ring

/-- One thing that is done with a ring. -/
inductive Op where
  | add (nodes : List String)
  | get (key : String)
deriving DecidableEq, Repr

/-- What an operation does to the ring; asking changes nothing. -/
def step (r : Ring) : Op → Ring
  | .add nodes => r.add nodes
  | .get _ => r

/-- What a list of operations does, one after another. -/
def run (r : Ring) (ops : List Op) : Ring := ops.foldl step r

/-- The nodes that an operation brings. -/
def Op.nodes : Op → List String
  | .add nodes => nodes
  | .get _ => []

/-- The nodes that a list of operations brings, in order and each as often as it is named. -/
def named (ops : List Op) : List String := ops.flatMap Op.nodes

/-- One of the points of a node. -/
structure Replica where
  index : Nat
  node : String
deriving DecidableEq, Repr

/-- Where a replica stands. -/
def Replica.position (hash : HashFn) (v : Replica) : UInt32 :=
  hash (Text.utf8 (label v.index v.node))

/-- The replicas of a list of nodes, in the order in which they are placed. -/
def placed (replicas : Nat) (nodes : List String) : List Replica :=
  nodes.flatMap fun node => (List.range replicas).map fun i => ⟨i, node⟩

/-- Of some positions, `p` is the one that serves a key at position `h`: the least that is not
before `h`, or the least of all when all are before `h`. -/
structure Serves (positions : List UInt32) (h p : UInt32) : Prop where
  taken : p ∈ positions
  first : (h ≤ p ∧ ∀ q ∈ positions, h ≤ q → p ≤ q) ∨
    ((∀ q ∈ positions, q < h) ∧ ∀ q ∈ positions, p ≤ q)

/-- Of some replicas, the last one at position `p` is one of `node`. -/
def LastAt (hash : HashFn) (vs : List Replica) (p : UInt32) (node : String) : Prop :=
  ∃ before v after, vs = before ++ v :: after ∧ v.node = node ∧ v.position hash = p ∧
    ∀ w ∈ after, w.position hash ≠ p

/-- No two different nodes of a list have replicas at one position. -/
def Apart (hash : HashFn) (replicas : Nat) (nodes : List String) : Prop :=
  ∀ v ∈ placed replicas nodes, ∀ w ∈ placed replicas nodes,
    v.position hash = w.position hash → v.node = w.node

instance (hash : HashFn) (replicas : Nat) (nodes : List String) :
    Decidable (Apart hash replicas nodes) :=
  inferInstanceAs (Decidable (∀ v ∈ placed replicas nodes, ∀ w ∈ placed replicas nodes,
    v.position hash = w.position hash → v.node = w.node))

end Ring

end PeerCache
