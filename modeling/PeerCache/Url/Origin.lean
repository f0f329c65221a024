import PeerCache.Url.Basic
/-!
# PeerCache — the origin of a URL

Which node a URL leads to: its scheme, its host and the port that it means. Neither the path nor the
user matters.
-/

namespace PeerCache.Url

/-- The scheme, the host and the port of a URL. -/
def origin (u : Url) : String × Option Host × Option Nat := (u.scheme, u.host?, u.port?)

theorem origin_popIfEmpty (u : Url) : u.popIfEmpty.origin = u.origin := rfl

theorem origin_push (u : Url) (segment : String) : (u.push segment).origin = u.origin := rfl

theorem origin_withoutUserinfo (u : Url) : u.withoutUserinfo.origin = u.origin := by
  obtain ⟨scheme, authority, path, shielded, query, fragment⟩ := u
  cases authority with
  | none => rfl
  | some a => rfl

end PeerCache.Url
