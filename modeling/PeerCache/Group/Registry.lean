import PeerCache.Group.Basic
/-!
# PeerCache — the groups of a node

A registry holds the groups of a node by name. A name is taken once and for good.
-/

namespace PeerCache

/-- The groups of a node, by name. -/
abbrev Registry (ι : Type) := Table String (Group ι)

namespace Registry

variable {ι : Type}

/-- Adds a group under its name, unless the name is taken. -/
def register (r : Registry ι) (g : Group ι) : Except CacheError (Registry ι) :=
  if r.contains g.name then
    .error (.configuration ("group " ++ g.name ++ " is already registered"))
  else .ok (r.insert g.name g)

/-- The names of the groups, in ascending order. -/
def names (r : Registry ι) : List String := r.keys.mergeSort fun a b => decide (a ≤ b)

/-- The groups by ascending name. -/
def groups (r : Registry ι) : List (Group ι) := r.names.filterMap r.find?

/-- The statistics of the groups by ascending name. -/
def stats (r : Registry ι) : List GroupStats := r.groups.map Group.stats

end Registry

end PeerCache
