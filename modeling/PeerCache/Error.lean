/-!
# PeerCache — failures of a lookup

Every failure that a cache operation can answer with, as a cause with its text. `message` is the
one place where the wording stands.
-/

namespace PeerCache

/-- Why an operation of the cache failed. -/
inductive CacheError where
  /-- The request itself is unusable, such as a lookup of the empty key. -/
  | invalidArgument (text : String)
  /-- No group is registered under the requested name. -/
  | groupNotFound (name : String)
  /-- The group's own source could not produce the value. -/
  | source (text : String)
  /-- Another node could not serve the value. -/
  | peer (text : String)
  /-- The node was set up wrongly: a name taken twice, settings that do not fit. -/
  | configuration (text : String)
deriving DecidableEq, Repr, Inhabited

namespace CacheError

/-- The text of a failure as users see it; a failure of the source is shown as it is. -/
def message : CacheError → String
  | invalidArgument text => "invalid argument: " ++ text
  | groupNotFound name => "no such group: " ++ name
  | source text => text
  | peer text => "peer error: " ++ text
  | configuration text => "configuration error: " ++ text

end CacheError

end PeerCache
