import PeerCache.Http.Message
import PeerCache.Peer.BasePath
import PeerCache.Text.Percent
/-!
# PeerCache — the peer endpoint

Other nodes ask for values under the base path: `{base}/{group}/{key}`. The group is one segment,
which may be empty; the key is all that follows the next slash, and is not empty. Paths are
compared as they came, still encoded, and only the group and the key are decoded.

A base path with parameters has texts of its own in a path, which come before the group and the
key: the first two of all these are what a request asks for.

Anything else under the base path is refused, the base path with exactly one slash behind it
apart, which leads nowhere like all other paths. A route that serves a value refuses a method
before it decodes anything.
-/

namespace PeerCache.Peer

open Http

/-- Where a request to the peer endpoint leads. -/
inductive Route where
  | notFound
  | badRequest
  | methodNotAllowed
  /-- The named part of the path does not decode to a text. -/
  | undecodable (part : String)
  | value (group key : String)
deriving DecidableEq, Repr

namespace Route

/-- The group and the key of a path below the base path, still encoded. -/
def split? (rest : List UInt8) : Option (List UInt8 × List UInt8) :=
  match Url.cutAt (· = 0x2F) rest with
  | (group, _ :: key) => if key = [] then none else some (group, key)
  | (_, []) => none

/-- Decodes the named parts of a path; the failure is the name of the first part that does not
decode to a text. -/
def decodeAll : List (String × List UInt8) → Except String (List String)
  | [] => .ok []
  | (name, bytes) :: rest =>
    match Text.utf8? (Text.Percent.decode bytes) with
    | none => .error name
    | some text => (decodeAll rest).map (text :: ·)

/-- Where the named parts of a path lead. -/
def ofParts (parts : List (String × List UInt8)) : Route :=
  match decodeAll parts with
  | .error name => undecodable name
  | .ok (group :: key :: _) => value group key
  -- The group and the key make two parts at least.
  | .ok _ => badRequest

/-- Where a path leads that is not empty below the base path; `values` stand in place of the
parameters of the base path. -/
def below (method : String) (values : List (String × List UInt8)) (rest : List UInt8) : Route :=
  match split? rest with
  | none => badRequest
  | some (group, key) =>
    if isServed method then ofParts (values ++ [("group", group), ("key", key)])
    else methodNotAllowed

/-- Where a request leads. -/
def ofRequest (basePath : String) (r : Request) : Route :=
  match capture? (pieces basePath) (Target.parse r.target).path with
  | none => notFound
  | some (_, []) => badRequest
  | some (values, c :: rest) =>
    -- A longer segment that begins like the last one of the base path is another one.
    if c ≠ 0x2F ∨ rest = [] then notFound else below r.method values rest

end Route

/-- The response to a request that the endpoint itself refuses; none for one that asks for a
value. -/
def refusal? : Route → Option Response
  | .notFound => some .notFound
  | .badRequest => some (.text 400 "bad request")
  | .methodNotAllowed => some .methodNotAllowed
  | .undecodable part => some (.text 400 ("Invalid URL: Invalid UTF-8 in `" ++ part ++ "`"))
  | .value _ _ => none

/-- Whether the response of a route leaves its body out for `HEAD`: those of the endpoint's own
route do, those of the fallback do not. -/
def isRouted : Route → Bool
  | .undecodable _ => true
  | .value _ _ => true
  | _ => false

end PeerCache.Peer
