import PeerCache.Error
import PeerCache.ByteView
import PeerCache.Text.Json
import PeerCache.Url.Encode
/-!
# PeerCache — requests and responses

What a node needs of HTTP: the path and the query of a request target, still encoded, and a
response with the headers that matter. Responses are made in one place for every kind of answer,
so that the same failure looks the same on every route.
-/

namespace PeerCache.Http

open PeerCache

/-- A request without a body. -/
structure Request where
  method : String
  /-- What is asked for: a path, or a whole URL. -/
  target : String
deriving DecidableEq, Repr

/-- The path of a request and its query, encoded as they came. -/
structure Target where
  path : List UInt8
  query : List UInt8
deriving DecidableEq, Repr

/-- What follows the scheme and the authority of a URL, if the text is one. -/
def afterAuthority? (cs : List Char) : Option (List Char) :=
  match Url.cutAt (· = ':') cs with
  | (_, ':' :: '/' :: '/' :: rest) =>
    let after := (Url.cutAt (fun c => c = '/' || c = '?') rest).2
    some (if after.head? = some '/' then after else '/' :: after)
  | _ => none

/-- Reads a request target. The fragment is dropped; of a URL only what follows its authority
counts, and an authority alone has no path. -/
def Target.parse (target : String) : Target :=
  let cs := (Url.cutAt (· = '#') target.toList).1
  let local_ := match cs with
    | '/' :: _ => cs
    | ['*'] => cs
    | _ => (afterAuthority? cs).getD []
  let (path, query) := Url.cutAt (· = '?') local_
  ⟨Text.utf8 (String.ofList path), Text.utf8 (String.ofList (query.drop 1))⟩

/-- Whether a route that answers `GET` serves a method. -/
def isServed (method : String) : Bool := method = "GET" || method = "HEAD"

/-- A response. -/
structure Response where
  status : Nat
  contentType : Option String
  allow : Option String
  body : List UInt8
deriving DecidableEq, Repr

namespace Response

/-- The response to a path that leads nowhere. -/
def notFound : Response := ⟨404, none, none, []⟩

/-- The response to a method that a route does not serve. -/
def methodNotAllowed : Response := ⟨405, none, some "GET,HEAD", []⟩

/-- A response with a text. -/
def text (status : Nat) (s : String) : Response :=
  ⟨status, some "text/plain; charset=utf-8", none, Text.utf8 s⟩

/-- A response with a value's raw bytes. -/
def value (v : ByteView) : Response := ⟨200, some "application/octet-stream", none, v.toList⟩

/-- A response with a report. -/
def json (j : Text.Json) : Response :=
  ⟨200, some "application/json", none, Text.utf8 j.render⟩

/-- The status of a failed lookup: a request that cannot be used is the client's fault, all else
is the server's. -/
def failureStatus : CacheError → Nat
  | .invalidArgument _ => 400
  | _ => 500

/-- The response to a lookup: the value, or the text of the failure. -/
def ofOutcome : Except CacheError ByteView → Response
  | .ok v => value v
  | .error e => text (failureStatus e) e.message

/-- A response as a method wants it: `HEAD` leaves the body out. -/
def forMethod (method : String) (r : Response) : Response :=
  if method = "HEAD" then { r with body := [] } else r

end Response

end PeerCache.Http
