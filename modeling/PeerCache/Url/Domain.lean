import PeerCache.Text.Form
import PeerCache.Url.Direction
import PeerCache.Url.Label
import PeerCache.Url.Punycode
/-!
# PeerCache — domain names as hosts

A domain name is compared and sent in ASCII. Its characters are folded and composed; each label
that then has characters beyond ASCII is sent in its Punycode form after `xn--`, unless it is too
long. A label that comes in that form has to spell a label that would be sent so. Some ASCII
characters cannot stand in a domain.
-/

namespace PeerCache.Url.Domain

/-- Whether an ASCII character cannot stand in a domain. -/
def isForbidden (c : Char) : Bool :=
  c.toNat ≤ 0x20 || c.toNat = 0x7F
    || c ∈ ['#', '%', '/', ':', '<', '>', '?', '@', '[', '\\', ']', '^', '|']

/-- Whether all characters of a label are ASCII. -/
def isAscii (label : List Char) : Bool := label.all fun c => c.toNat < 0x80

/-- The most characters of a label that is not ASCII. -/
def mostCharacters : Nat := 1000

/-- The most characters of a Punycode form that is read. -/
def mostDigits : Nat := 2000

/-- Whether a label is short enough to have an ASCII form; a label that is ASCII needs none. -/
def fits (label : List Char) : Bool := isAscii label || label.length ≤ mostCharacters

/-- Whether a label is the Punycode form of another one. -/
def isEncodedLabel (label : List Char) : Bool := label.take 4 = ['x', 'n', '-', '-']

/-- The folded and composed form of a domain; `none` if a character cannot stand in it. -/
def fold? (cs : List Char) : Option (List Char) :=
  (cs.mapM Folding.fold?).map fun images => Text.Composed.compose images.flatten

/-- The label that a folded label spells; `none` if it claims to be a Punycode form and is
none. -/
def spelled? (label : List Char) : Option (List Char) :=
  if isEncodedLabel label then
    if isAscii label && (label.drop 4).length ≤ mostDigits then
      match Punycode.decode? (label.drop 4) with
      | some cs => if isAscii cs || fold? cs ≠ some cs then none else some cs
      | none => none
    else none
  else some label

/-- The ASCII form of a folded label. -/
def asciiLabel (label : List Char) : List Char :=
  if isAscii label then label else ['x', 'n', '-', '-'] ++ Punycode.encode label

/-- The ASCII form of a domain given by its UTF-8 bytes. -/
def toAscii? (bytes : List UInt8) : Option (List Char) := do
  let s ← Text.utf8? bytes
  let labels := Text.Form.splitAt '.' (← fold? s.toList)
  let spelled ← labels.mapM spelled?
  -- Labels may be empty, and so may the domain: the host decides about that.
  if spelled.all (fun l => fits l && Label.isValid l) && Direction.areClear spelled then
    let ascii := ['.'].intercalate (labels.map asciiLabel)
    if ascii.any isForbidden then none else pure ascii
  else none

end PeerCache.Url.Domain
