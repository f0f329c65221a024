import PeerCache.Text.Percent
/-!
# PeerCache — form-encoded queries

A query is a list of fields between ampersands. A field splits at its first equals sign into a
name and a value; a plus sign is a space, `%XX` is a byte, and bytes that are no text are
replaced. Empty fields do not count.
-/

namespace PeerCache.Text.Form

/-- Cuts a list at every member that equals `sep`. -/
def splitAt {α : Type} [DecidableEq α] (sep : α) : List α → List (List α)
  | [] => [[]]
  | x :: rest =>
    if x = sep then [] :: splitAt sep rest
    else
      match splitAt sep rest with
      | part :: parts => (x :: part) :: parts
      | [] => [[x]]

/-- The text that a name or a value stands for. -/
def field (bytes : List UInt8) : String :=
  lossy (Percent.decode (bytes.map fun b => if b = 0x2B then 0x20 else b))

/-- The names and values of a query, in order. -/
def pairs (query : List UInt8) : List (String × String) :=
  ((splitAt 0x26 query).filter (· ≠ [])).map fun part =>
    (field (part.takeWhile (· ≠ 0x3D)), field ((part.dropWhile (· ≠ 0x3D)).drop 1))

end PeerCache.Text.Form
