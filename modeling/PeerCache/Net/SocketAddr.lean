import PeerCache.Url.Ipv6
/-!
# PeerCache — socket addresses

A socket address is an IP address and a port: `1.2.3.4:80`, or `[::1]:80` with brackets. The
forms are stricter than those of a URL's host: four decimal bytes without leading zeros, eight
pieces of which two colons stand for at least one, and always a port. An IPv6 address may carry a
zone number after a percent sign.
-/

namespace PeerCache.Net

open Url (Ipv4 Ipv6)

/-- An IP address with a port. -/
inductive SocketAddr where
  | v4 (address : Ipv4) (port : Nat)
  /-- `zone` is zero if none is given. -/
  | v6 (address : Ipv6) (zone port : Nat)
deriving DecidableEq, Repr

/-- A reader: what it reads at the front of a text, and the rest. -/
abbrev Reader (α : Type) := List Char → Option (α × List Char)

/-- Reads one given character. -/
def readChar (c : Char) : Reader Unit
  | [] => none
  | d :: rest => if c = d then some ((), rest) else none

/-- Whether a character is a digit of a base up to sixteen. -/
def isDigitOf (base : Nat) (c : Char) : Bool :=
  match Ipv4.digitValue? c with
  | some d => d < base
  | none => false

/-- Reads as many digits as there are, as a number that is at most `max`. There must be one digit
at least and `width` at most, and no needless zero in front unless `padded`. -/
def readNumber (base max : Nat) (width : Option Nat) (padded : Bool) : Reader Nat := fun cs =>
  let digits := cs.takeWhile (isDigitOf base)
  let n := digits.foldl (fun n c => n * base + (Ipv4.digitValue? c).getD 0) 0
  let fits := width.all fun w => digits.length ≤ w
  let clean := padded || digits.length ≤ 1 || digits.head? ≠ some '0'
  if !digits.isEmpty && fits && clean && n ≤ max then some (n, cs.drop digits.length) else none

/-- Reads four decimal bytes between dots. -/
def readIpv4 : Reader Ipv4 := fun cs => do
  let byte := readNumber 10 255 (some 3) false
  let (a, cs) ← byte cs
  let (_, cs) ← readChar '.' cs
  let (b, cs) ← byte cs
  let (_, cs) ← readChar '.' cs
  let (c, cs) ← byte cs
  let (_, cs) ← readChar '.' cs
  let (d, cs) ← byte cs
  pure (Ipv4.ofBytes [a, b, c, d], cs)

/-- Reads what follows a colon, or what stands at the front of the first piece. -/
def readPart {α : Type} (first : Bool) (r : Reader α) : Reader α := fun cs =>
  if first then r cs else (readChar ':' cs).bind fun p => r p.2

/-- Reads up to `room` pieces between colons, the last two of them perhaps as a dotted IPv4
address. The answer tells whether that was so. -/
def readPieces (first : Bool) : Nat → List Char → List Nat × Bool × List Char
  | 0, cs => ([], false, cs)
  | room + 1, cs =>
    -- A dotted address is the last thing and needs room for two pieces.
    match (if 1 ≤ room then readPart first readIpv4 cs else none) with
    | some (a, rest) => ([a.toNat / 0x10000, a.toNat % 0x10000], true, rest)
    | none =>
      match readPart first (readNumber 16 65535 (some 4) true) cs with
      | none => ([], false, cs)
      | some (n, rest) =>
        let (pieces, dotted, rest) := readPieces false room rest
        (n :: pieces, dotted, rest)

/-- Reads an IPv6 address. -/
def readIpv6 : Reader Ipv6 := fun cs => do
  let (front, dotted, cs) := readPieces true 8 cs
  if front.length = 8 then pure (⟨front⟩, cs)
  else if dotted then none
  else do
    let (_, cs) ← readChar ':' cs
    let (_, cs) ← readChar ':' cs
    -- Two colons stand for one piece at least.
    let (back, _, cs) := readPieces true (7 - front.length) cs
    pure (⟨front ++ List.replicate (8 - front.length - back.length) 0 ++ back⟩, cs)

/-- Reads a colon and a port. -/
def readPort : Reader Nat := fun cs => do
  let (_, cs) ← readChar ':' cs
  readNumber 10 65535 none true cs

/-- Reads a percent sign and a zone number, or nothing. -/
def readZone (cs : List Char) : Nat × List Char :=
  match (readChar '%' cs).bind fun p => readNumber 10 (UInt32.size - 1) none true p.2 with
  | some (zone, rest) => (zone, rest)
  | none => (0, cs)

namespace SocketAddr

/-- The IPv4 address with a port that a text spells. -/
def parseV4? (cs : List Char) : Option SocketAddr :=
  match readIpv4 cs with
  | none => none
  | some (a, cs) =>
    match readPort cs with
    | some (port, []) => some (v4 a port)
    | _ => none

/-- The bracketed IPv6 address with a port that a text spells. -/
def parseV6? (cs : List Char) : Option SocketAddr := do
  let (_, cs) ← readChar '[' cs
  let (a, cs) ← readIpv6 cs
  let (zone, cs) := readZone cs
  let (_, cs) ← readChar ']' cs
  match readPort cs with
  | some (port, []) => some (v6 a zone port)
  | _ => none

/-- The socket address that a text spells. -/
def parse? (s : String) : Option SocketAddr := parseV4? s.toList <|> parseV6? s.toList

/-- The IP address that a text spells by itself, with a port beside it. An IPv6 address has neither
brackets nor a zone here. -/
def ofHost? (host : String) (port : Nat) : Option SocketAddr :=
  match readIpv4 host.toList with
  | some (a, []) => some (v4 a port)
  | _ =>
    match readIpv6 host.toList with
    | some (a, []) => some (v6 a 0 port)
    | _ => none

/-- An IPv6 address as it stands in a socket address: one that stands for an IPv4 address shows
it in its dotted form. -/
def renderIpv6 (a : Ipv6) : String :=
  match a.pieces with
  | [0, 0, 0, 0, 0, 65535, high, low] =>
    "::ffff:" ++ Ipv4.render (UInt32.ofNat (high * 0x10000 + low))
  | _ => a.render

/-- The written form of a socket address. -/
def render : SocketAddr → String
  | v4 a port => a.render ++ ":" ++ toString port
  | v6 a zone port =>
    "[" ++ renderIpv6 a ++ (if zone = 0 then "" else "%" ++ toString zone) ++ "]:"
      ++ toString port

end SocketAddr

end PeerCache.Net
