import PeerCache.Text.Percent
/-!
# PeerCache — characters of a URL

Every part of a URL has its own set of characters that are written percent-encoded, byte by byte
of their UTF-8 form. Controls and characters outside ASCII are in all of these sets.
-/

namespace PeerCache.Url

/-- The characters that one part of a URL writes encoded. -/
abbrev EncodeSet := Char → Bool

namespace EncodeSet

/-- Controls and everything outside ASCII. -/
def controls : EncodeSet := fun c => c.toNat < 0x20 || 0x7F ≤ c.toNat

/-- The set of a fragment. -/
def fragment : EncodeSet := fun c => controls c || c ∈ [' ', '"', '<', '>', '\x60']

/-- The set of a path that is read as a whole. -/
def path : EncodeSet := fun c => fragment c || c ∈ ['#', '?', '\x7b', '\x7d']

/-- The set of a segment that is appended to a path: what would end the segment or read as an
escape is encoded as well. -/
def segment (special : Bool) : EncodeSet := fun c =>
  path c || c = '/' || c = '%' || (special && c = '\\')

/-- The set of a user name and password. -/
def userinfo : EncodeSet := fun c =>
  path c || c ∈ ['/', ':', ';', '=', '@', '[', '\\', ']', '^', '|']

/-- The set of a query. -/
def query (special : Bool) : EncodeSet := fun c =>
  controls c || c ∈ [' ', '"', '#', '<', '>'] || (special && c = '\x27')

end EncodeSet

/-- The escapes for the bytes of a character. -/
def escape (c : Char) : List Char :=
  (String.utf8EncodeChar c).flatMap fun b => (Text.Percent.encodeByte b).map Char.ofUInt8

/-- Characters as one part of a URL writes them. -/
def encode (set : EncodeSet) (cs : List Char) : List Char :=
  cs.flatMap fun c => if set c then escape c else [c]

/-- Tab, line feed and carriage return are dropped wherever they stand in a URL. -/
def isDropped (c : Char) : Bool := c = '\t' || c = '\n' || c = '\r'

/-- A text without what is dropped. -/
def kept (cs : List Char) : List Char := cs.filter fun c => !isDropped c

/-- What stands behind the first `n` characters of a text that are kept. -/
def behind : Nat → List Char → List Char
  | 0, cs => cs
  | _ + 1, [] => []
  | n + 1, c :: rest => if isDropped c then behind (n + 1) rest else behind n rest

/-- Cuts a list at its first member that satisfies `p`, which starts the second part. -/
def cutAt {α : Type} (p : α → Bool) (xs : List α) : List α × List α :=
  (xs.takeWhile fun x => !p x, xs.dropWhile fun x => !p x)

end PeerCache.Url
