import PeerCache.Url.Host
import PeerCache.Url.Path
/-!
# PeerCache — URLs

A URL in its parts. All texts are held as they are written, that is encoded; `render` puts the
parts together again.
-/

namespace PeerCache

namespace Url

/-- What stands between two slashes and the path. -/
structure Authority where
  username : String
  password : Option String
  /-- Absent if the host is empty. -/
  host : Option Host
  /-- Absent if the URL means the default port of its scheme. -/
  port : Option Nat
deriving DecidableEq, Repr

/-- Whether a user name or a password is written. -/
def Authority.hasUserinfo (a : Authority) : Bool := a.username ≠ "" || a.password.isSome

/-- The written form of an authority. -/
def Authority.render (a : Authority) : String :=
  let userinfo :=
    if a.hasUserinfo then
      a.username ++ (match a.password with
        | some p => ":" ++ p
        | none => "") ++ "@"
    else ""
  let port := match a.port with
    | some p => ":" ++ toString p
    | none => ""
  userinfo ++ ((a.host.map Host.render).getD "") ++ port

end Url

/-- A URL. -/
structure Url where
  /-- The scheme in lower case. -/
  scheme : String
  authority : Option Url.Authority
  path : List Char
  /-- Whether the path is written after `/.`, so that it does not read as an authority. -/
  shielded : Bool
  query : Option String
  fragment : Option String
deriving DecidableEq, Repr

namespace Url

/-- The kind of the URL's scheme. -/
def kind (u : Url) : SchemeKind := SchemeKind.of u.scheme

/-- The written form of a URL. -/
def render (u : Url) : String :=
  u.scheme ++ ":"
    ++ (match u.authority with
        | some a => "//" ++ a.render
        | none => if u.shielded then "/." else "")
    ++ String.ofList u.path
    ++ (match u.query with
        | some q => "?" ++ q
        | none => "")
    ++ (match u.fragment with
        | some f => "#" ++ f
        | none => "")

/-- The host of a URL. -/
def host? (u : Url) : Option Host := u.authority.bind Authority.host

/-- The port that a URL means: the one it names or the default of its scheme. -/
def port? (u : Url) : Option Nat := (u.authority.bind Authority.port) <|> defaultPort? u.scheme

/-- Whether a URL has no path of segments, like `data:text`. -/
def isOpaque (u : Url) : Bool :=
  u.authority.isNone && !u.shielded && u.path.head? ≠ some '/'

/-- Drops the last segment of the path if it is empty. -/
def popIfEmpty (u : Url) : Url := { u with path := Path.popIfEmpty u.path }

/-- Appends a segment to the path, encoded so that it stays one. -/
def push (u : Url) (segment : String) : Url :=
  { u with path := Path.push u.kind u.path segment.toList }

/-- The URL without user name and password. -/
def withoutUserinfo (u : Url) : Url :=
  { u with authority := u.authority.map fun a => { a with username := "", password := none } }

end Url

end PeerCache
