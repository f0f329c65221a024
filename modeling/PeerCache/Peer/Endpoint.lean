import PeerCache.Error
import PeerCache.Url.Parser
/-!
# PeerCache — where a peer is asked

A peer is asked for a value at its base URL with two more segments, the group and the key. Both
are encoded so that each stays one segment.
-/

namespace PeerCache.Peer

/-- The URL under which a peer is asked for a key of a group. -/
def urlFor (baseUrl group key : String) : Except CacheError Url :=
  match Url.parse baseUrl with
  | .error e => .error (.peer ("invalid peer url " ++ baseUrl ++ ": " ++ e.message))
  | .ok u =>
    if u.isOpaque then .error (.peer ("invalid peer url " ++ baseUrl))
    -- A base URL that ends in a slash has an empty last segment.
    else .ok ((u.popIfEmpty.push group).push key)

end PeerCache.Peer
