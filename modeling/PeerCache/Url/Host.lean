import PeerCache.Url.Encode
import PeerCache.Url.Ipv6
import PeerCache.Url.Domain
/-!
# PeerCache — hosts of a URL

A host is a domain, an IPv4 address, an IPv6 address in brackets, or, for schemes that are not
special, a text of its own. Reading one can fail in the ways that `Url.ParseError` lists.
-/

namespace PeerCache.Url

/-- Why a text is no URL. -/
inductive ParseError where
  | emptyHost
  | invalidDomain
  | invalidPort
  | invalidIpv4
  | invalidIpv6
  | invalidDomainCharacter
  | relativeWithoutBase
deriving DecidableEq, Repr

/-- The wording of an error. -/
def ParseError.message : ParseError → String
  | emptyHost => "empty host"
  | invalidDomain => "invalid international domain name"
  | invalidPort => "invalid port number"
  | invalidIpv4 => "invalid IPv4 address"
  | invalidIpv6 => "invalid IPv6 address"
  | invalidDomainCharacter => "invalid domain character"
  | relativeWithoutBase => "relative URL without a base"

/-- The host of a URL. -/
inductive Host where
  | domain (name : String)
  | ipv4 (address : Ipv4)
  | ipv6 (address : Ipv6)
deriving DecidableEq, Repr

namespace Host

/-- The written form of a host. -/
def render : Host → String
  | domain name => name
  | ipv4 a => a.render
  | ipv6 a => "[" ++ a.render ++ "]"

/-- Reads the address between brackets. -/
def parseBracketed (cs : List Char) : Except ParseError Host :=
  if cs.getLast? = some ']' then
    match Ipv6.parse? cs.dropLast with
    | some a => .ok (.ipv6 a)
    | none => .error .invalidIpv6
  else .error .invalidIpv6

/-- Reads the host of a URL with a special scheme. -/
def parse : List Char → Except ParseError Host
  | '[' :: rest => parseBracketed rest
  | cs =>
    match Domain.toAscii? (Text.Percent.decode (Text.utf8 (String.ofList cs))) with
    | none => .error .invalidDomain
    | some [] => .error .emptyHost
    | some name =>
      if Ipv4.endsInNumber name then
        match Ipv4.parse? name with
        | some a => .ok (.ipv4 a)
        | none => .error .invalidIpv4
      else .ok (.domain (String.ofList name))

/-- Whether a character cannot stand in the host of a scheme that is not special. -/
def isForbidden (c : Char) : Bool :=
  c ∈ ['\x00', '\t', '\n', '\r', ' ', '#', '/', ':', '<', '>', '?', '@', '[', '\\', ']', '^', '|']

/-- Reads the host of a URL whose scheme is not special. -/
def parseOpaque : List Char → Except ParseError Host
  | '[' :: rest => parseBracketed rest
  | cs =>
    if cs.any isForbidden then .error .invalidDomainCharacter
    else .ok (.domain (String.ofList (encode EncodeSet.controls cs)))

end Host

end PeerCache.Url
