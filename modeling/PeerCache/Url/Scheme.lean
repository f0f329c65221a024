/-!
# PeerCache — URL schemes

The schemes fall into three kinds, which decide how the rest of a URL is read. The *special* ones
have a host and a default port; `file` is special too, with rules of its own for hosts and paths.
-/

namespace PeerCache.Url

/-- How a scheme makes the rest of a URL read. -/
inductive SchemeKind where
  /-- `http` and the like. -/
  | web
  | file
  /-- Any other scheme. -/
  | other
deriving DecidableEq, Repr

namespace SchemeKind

/-- The kind of a scheme in lower case. -/
def of (scheme : String) : SchemeKind :=
  if scheme ∈ ["http", "https", "ws", "wss", "ftp"] then web
  else if scheme = "file" then file
  else other

/-- Whether a backslash counts as a slash and a path is never empty. -/
def isSpecial : SchemeKind → Bool
  | web => true
  | file => true
  | other => false

end SchemeKind

/-- The port that a URL of a scheme means when it names none. -/
def defaultPort? (scheme : String) : Option Nat :=
  match scheme with
  | "http" => some 80
  | "https" => some 443
  | "ws" => some 80
  | "wss" => some 443
  | "ftp" => some 21
  | _ => none

end PeerCache.Url
