/-!
# PeerCache — unsigned numbers

An unsigned number is an optional plus sign followed by one or more ASCII digits, up to a largest
value.
-/

namespace PeerCache.Text.Numeral

/-- The number that decimal digits spell; `none` if a character is no digit. -/
def digits? (cs : List Char) : Option Nat :=
  cs.foldlM (fun n c => if c.isDigit then some (n * 10 + (c.toNat - 48)) else none) 0

/-- Reads an unsigned number that is at most `max`. -/
def unsigned? (max : Nat) (s : String) : Option Nat :=
  let body := match s.toList with
    | '+' :: rest => rest
    | cs => cs
  if body.isEmpty then none
  else (digits? body).filter (· ≤ max)

/-- Reads an unsigned number of 64 bits. -/
def size? (s : String) : Option Nat := unsigned? (UInt64.size - 1) s

/-- Reads an unsigned number of 32 bits. -/
def word? (s : String) : Option UInt32 := (unsigned? (UInt32.size - 1) s).map UInt32.ofNat

end PeerCache.Text.Numeral
