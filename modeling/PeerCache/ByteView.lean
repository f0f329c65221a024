import PeerCache.Text.Utf8
/-!
# PeerCache — cached values

A `ByteView` is an immutable snapshot of the bytes of a value. It can be read and copied, never
changed. `Sized` is what a cache asks of the values it holds: how many bytes they occupy.
-/

namespace PeerCache

/-- Values that occupy a number of bytes. -/
class Sized (ν : Type) where
  size : ν → Nat

export Sized (size)

/-- An immutable snapshot of a cached value. -/
structure ByteView where
  bytes : List UInt8
deriving DecidableEq, Repr, Inhabited

namespace ByteView

/-- The view without bytes. -/
def empty : ByteView := ⟨[]⟩

/-- The snapshot of a sequence of bytes. -/
def ofList (bytes : List UInt8) : ByteView := ⟨bytes⟩

/-- The snapshot of a text. -/
def ofText (s : String) : ByteView := ⟨Text.utf8 s⟩

/-- The bytes, as a copy that the caller owns. -/
def toList (v : ByteView) : List UInt8 := v.bytes

/-- The number of bytes. -/
def length (v : ByteView) : Nat := v.bytes.length

/-- Whether there are no bytes. -/
def isEmpty (v : ByteView) : Bool := v.bytes.isEmpty

/-- The bytes as a text, invalid ones replaced. -/
def display (v : ByteView) : String := Text.lossy v.bytes

instance : Sized ByteView := ⟨length⟩

end ByteView

end PeerCache
