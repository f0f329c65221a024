import PeerCache.Text.Blank
import PeerCache.Text.Utf8
import PeerCache.Url.Encode
/-!
# PeerCache — base paths

The base path is the part of the URL space under which nodes ask each other for values. It looks
like `/segment/`; the root alone is refused. A segment may hold a parameter, as in `/:name/`; any
text without a slash stands in a path in its place.
-/

namespace PeerCache.Peer

/-- The base path of a node that is not told another one. -/
def defaultBasePath : String := "/_distributed_cache/"

/-- Whether a text can be a base path: it has more than one byte, and a slash on both ends. -/
def isValidBasePath (path : String) : Bool :=
  1 < path.utf8ByteSize && path.toList.head? = some '/' && path.toList.getLast? = some '/'

/-- The text of the refusal of a base path. -/
def basePathRefusal (path : String) : String :=
  "base path must start and end with '/': " ++ path

/-! ## Paths under a base path -/

/-- What follows a list at the front of another one. -/
def after? {α : Type} [DecidableEq α] : List α → List α → Option (List α)
  | [], rest => some rest
  | _ :: _, [] => none
  | x :: xs, y :: ys => if x = y then after? xs ys else none

/-- A piece of a base path. -/
inductive Piece where
  /-- Bytes that have to stand in a path as they are. -/
  | text (bytes : List UInt8)
  /-- What stands in a path up to the next slash. -/
  | parameter (name : String)
deriving DecidableEq, Repr

/-- The pieces of a base path. A colon begins a parameter, and the next slash ends it. -/
def pieces (basePath : String) : List Piece :=
  let bytes := fun (cs : List Char) => Text.utf8 (String.ofList cs)
  match (Text.trimSlashes basePath).toList.splitOnP (· = ':') with
  | [] => []
  | first :: rest =>
    .text (bytes first) :: rest.flatMap fun cs =>
      let (name, text) := Url.cutAt (· = '/') cs
      [.parameter (String.ofList name), .text (bytes text)]

/-- What a path has in place of the parameters, and what follows the last piece. A parameter needs
something to stand in the path where it begins, if only a slash. -/
def capture? : List Piece → List UInt8 → Option (List (String × List UInt8) × List UInt8)
  | [], path => some ([], path)
  | .text bytes :: more, path => (after? bytes path).bind (capture? more)
  | .parameter name :: more, path =>
    if path = [] then none
    else
      let (here, rest) := Url.cutAt (· = 0x2F) path
      (capture? more rest).map fun (values, rest) => ((name, here) :: values, rest)

/-- The default base path has no parameters. -/
theorem pieces_defaultBasePath :
    pieces defaultBasePath = [.text (Text.utf8 "/_distributed_cache")] := by decide +kernel

/-- Without parameters, a path is only compared with the base path. -/
theorem capture?_text (bytes path : List UInt8) :
    capture? [.text bytes] path = (after? bytes path).map fun rest => ([], rest) := by
  simp only [capture?]
  cases after? bytes path <;> rfl

end PeerCache.Peer
