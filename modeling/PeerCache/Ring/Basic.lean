import PeerCache.Ring.Hash
/-!
# PeerCache — the ring of nodes

Every node stands on the ring at `replicas` points, one for each label `0name`, `1name`, and so
on. A key belongs to the node at the first point at or after the key's own position, or at the
first point of all when there is none.

Points are kept in ascending order of position; of the points at one position the newest comes
first, and it is the one that counts.
-/

namespace PeerCache

/-- A consistent-hash ring. -/
structure Ring where
  hash : HashFn
  /-- The number of points of each node. -/
  replicas : Nat
  /-- The points with their nodes, by position and, at one position, the newest first. -/
  points : List (UInt32 × String)

namespace Ring

/-- The ring without nodes. -/
def new (replicas : Nat) (hash : HashFn) : Ring := ⟨hash, replicas, []⟩

/-- The label of a node's point. -/
def label (i : Nat) (node : String) : String := toString i ++ node

/-- Puts a point in front of all points at its position or after it. -/
def place (p : UInt32 × String) : List (UInt32 × String) → List (UInt32 × String)
  | [] => [p]
  | q :: rest => if p.1 ≤ q.1 then p :: q :: rest else q :: place p rest

/-- The points that a list of nodes brings, in the order in which they are placed. -/
def pointsOf (hash : HashFn) (replicas : Nat) (nodes : List String) : List (UInt32 × String) :=
  nodes.flatMap fun node =>
    (List.range replicas).map fun i => (hash (Text.utf8 (label i node)), node)

/-- Places nodes on the ring, in the order given. -/
def add (r : Ring) (nodes : List String) : Ring :=
  { r with points := (pointsOf r.hash r.replicas nodes).foldl (fun ps p => place p ps) r.points }

/-- The node at the first point at or after a position, going round at the end of the ring. -/
def ownerOf (points : List (UInt32 × String)) (position : UInt32) : Option String :=
  ((points.find? fun p => position ≤ p.1) <|> points.head?).map Prod.snd

/-- The node that a key belongs to; none if the ring is empty. -/
def get (r : Ring) (key : String) : Option String := ownerOf r.points (r.hash (Text.utf8 key))

/-- The number of points. -/
def length (r : Ring) : Nat := r.points.length

/-- Whether there are no points. -/
def isEmpty (r : Ring) : Bool := r.points.isEmpty

/-- A short description of a ring, for people to read; no result is about it. -/
def describe (r : Ring) : String :=
  "HashRing \x7b replicas: " ++ toString r.replicas ++ ", virtual_nodes: "
    ++ toString r.length ++ " \x7d"

end Ring

end PeerCache
