import PeerCache.Text.Form
/-!
# PeerCache — IPv4 addresses as hosts

A host whose last part is a number is an IPv4 address. It has one to four parts between dots,
each decimal, octal after a leading `0`, or hexadecimal after `0x`; the last part fills all the
bytes that the parts before it leave.
-/

namespace PeerCache.Url

/-- An IPv4 address as one number. -/
abbrev Ipv4 := UInt32

namespace Ipv4

/-- The digits of a number and its base, as its first characters tell. -/
def digitsOf : List Char → Nat × List Char
  | '0' :: 'x' :: rest => (16, rest)
  | '0' :: 'X' :: rest => (16, rest)
  | '0' :: d :: rest => (8, d :: rest)
  | cs => (10, cs)

/-- The value of a hexadecimal digit. -/
def digitValue? (c : Char) : Option Nat :=
  (Text.Percent.value? c.toUInt8).bind fun v => if c.toNat < 0x80 then some v.toNat else none

/-- One part of an address: a number of any size. A lone `0x` is zero. -/
def number? (part : List Char) : Option Nat :=
  if part.isEmpty then none
  else
    let (base, digits) := digitsOf part
    digits.foldlM (fun n c => do
      let d ← digitValue? c
      if d < base then some (n * base + d) else none) 0

/-- The parts of a host between dots; a dot at the end is dropped. -/
def parts (host : List Char) : List (List Char) :=
  let ps := Text.Form.splitAt '.' host
  if ps.getLast? = some [] then ps.dropLast else ps

/-- Whether the last part of a host is a number, which makes the host an IPv4 address. -/
def endsInNumber (host : List Char) : Bool :=
  match (parts host).getLast? with
  | none => false
  | some last => (!last.isEmpty && last.all Char.isDigit) || (number? last).isSome

/-- How many numbers a number of bytes can hold. -/
def room : Nat → Nat
  | 0 => 1
  | bytes + 1 => 256 * room bytes

/-- The number that bytes spell, the highest byte first. -/
def valueOf (bytes : List Nat) : Nat := bytes.foldl (fun n b => n * 256 + b) 0

/-- The address with these four bytes. -/
def ofBytes (bytes : List Nat) : Ipv4 := UInt32.ofNat (valueOf bytes)

/-- The address that the parts of a host spell. -/
def parse? (host : List Char) : Option Ipv4 := do
  let ps := parts host
  if 4 < ps.length then none
  let numbers ← ps.mapM number?
  let last ← numbers.getLast?
  let front := numbers.dropLast
  -- The last part fills all the bytes that are left.
  let left := room (4 - front.length)
  if front.any (255 < ·) ∨ left ≤ last then none
  pure (UInt32.ofNat (valueOf front * left + last))

/-- The four bytes of an address. -/
def bytes (a : Ipv4) : List Nat :=
  [a.toNat / 0x1000000 % 256, a.toNat / 0x10000 % 256, a.toNat / 0x100 % 256, a.toNat % 256]

/-- The dotted form of an address. -/
def render (a : Ipv4) : String := ".".intercalate (a.bytes.map toString)

end Ipv4

end PeerCache.Url
