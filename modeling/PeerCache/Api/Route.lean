import PeerCache.Http.Message
import PeerCache.Group.Registry
import PeerCache.Text.Form
/-!
# PeerCache — the front endpoint

Clients look values up at `/api?key=…` and read the statistics of the node's groups at
`/api/stats`. No other path leads anywhere. The query holds form fields; one that is named `key`
is needed, and only one.
-/

namespace PeerCache.Api

open Http

/-- Where a request to the front endpoint leads. -/
inductive Route where
  | notFound
  | methodNotAllowed
  | stats
  /-- The query names the key twice. -/
  | duplicateKey
  /-- The query names no key. -/
  | missingKey
  | value (key : String)
deriving DecidableEq, Repr

namespace Route

/-- Where a lookup leads whose query has these fields. -/
def ofFields (fields : List (String × String)) : Route :=
  match fields.filter fun f => f.1 = "key" with
  | [] => missingKey
  | [f] => value f.2
  | _ => duplicateKey

/-- Where a request leads. -/
def ofRequest (r : Request) : Route :=
  let t := Target.parse r.target
  if t.path = Text.utf8 "/api" then
    if isServed r.method then ofFields (Text.Form.pairs t.query) else methodNotAllowed
  else if t.path = Text.utf8 "/api/stats" then
    if isServed r.method then stats else methodNotAllowed
  else notFound

end Route

/-- The report on a group. -/
def groupReport (s : GroupStats) : Text.Json :=
  .object [
    ("name", .text s.name),
    ("gets", .number s.counters.gets),
    ("hits", .number s.counters.hits),
    ("peer_loads", .number s.counters.peerLoads),
    ("peer_errors", .number s.counters.peerErrors),
    ("local_loads", .number s.counters.localLoads),
    ("local_errors", .number s.counters.localErrors),
    ("cache", .object [("entries", .number s.cache.entries), ("bytes", .number s.cache.bytes)])]

/-- The report on the groups of a node. -/
def report (stats : List GroupStats) : Text.Json :=
  .object [("groups", .list (stats.map groupReport))]

/-- The response to a request that needs no lookup, for groups with these statistics. -/
def response? (stats : List GroupStats) : Route → Option Response
  | .notFound => some .notFound
  | .methodNotAllowed => some .methodNotAllowed
  | .stats => some (.json (report stats))
  | .duplicateKey =>
    some (.text 400 "Failed to deserialize query string: duplicate field `key`")
  | .missingKey => some (.text 400 "missing query parameter: key")
  | .value _ => none

end PeerCache.Api
