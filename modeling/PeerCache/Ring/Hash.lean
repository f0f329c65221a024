import PeerCache.Text.Utf8
import PeerCache.Text.Numeral
/-!
# PeerCache — positions on the ring

A hash function gives every text a position on a ring of 2^32 places. `crc32` is the one that
nodes use, and what is proved of rings holds for any. The others are for trying rings out: with
`decimal`, `length`, `sum` and `highSum` the layout can be read off the names, `first` and `last`
put everything at one end, and `fnv1a` is a second hash that scatters.
-/

namespace PeerCache

/-- A function from bytes to positions on the ring. -/
abbrev HashFn := List UInt8 → UInt32

namespace HashFn

/-- One bit of a division by the reflected polynomial `EDB88320`. -/
def crcBit (r : UInt32) : UInt32 :=
  if r &&& 1 = 1 then (r >>> 1) ^^^ 0xEDB88320 else r >>> 1

/-- Takes one byte into the remainder. -/
def crcByte (r : UInt32) (b : UInt8) : UInt32 :=
  crcBit (crcBit (crcBit (crcBit (crcBit (crcBit (crcBit (crcBit (r ^^^ b.toUInt32))))))))

/-- The checksum CRC-32 of IEEE 802.3. -/
def crc32 : HashFn := fun bytes => (bytes.foldl crcByte 0xFFFFFFFF) ^^^ 0xFFFFFFFF

/-- The number that a text of decimal digits spells, zero for any other text. -/
def decimal : HashFn := fun bytes =>
  ((Text.utf8? bytes).bind Text.Numeral.word?).getD 0

/-- The number of bytes. -/
def length : HashFn := fun bytes => UInt32.ofNat bytes.length

/-- The sum of the bytes. -/
def sum : HashFn := fun bytes => bytes.foldl (fun n b => n + b.toUInt32) 0

/-- The sum of the bytes, counted down from the last position. -/
def highSum : HashFn := fun bytes => 0xFFFFFFFF - sum bytes

/-- The hash FNV-1a of 32 bits. -/
def fnv1a : HashFn := fun bytes =>
  bytes.foldl (fun h b => (h ^^^ b.toUInt32) * 0x01000193) 0x811C9DC5

/-- The first position for every text. -/
def first : HashFn := fun _ => 0

/-- The last position for every text. -/
def last : HashFn := fun _ => 0xFFFFFFFF

end HashFn

end PeerCache
