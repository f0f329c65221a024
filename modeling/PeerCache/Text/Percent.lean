import PeerCache.Text.Utf8
/-!
# PeerCache — percent-encoding

A byte is written `%XX` with two upper-case hexadecimal digits. Reading takes digits of either
case; a percent sign that two digits do not follow stands for itself.

`decode_encodeByte` and `decode_cons_of_ne` say how the two meet: an encoded byte reads back as
itself whatever follows, and so does any byte other than the percent sign.
-/

namespace PeerCache.Text.Percent

/-- The byte of the percent sign. -/
def sign : UInt8 := 0x25

/-- The byte of an upper-case hexadecimal digit. -/
def digit (n : UInt8) : UInt8 := if n < 10 then 0x30 + n else 0x37 + n

/-- The value of a hexadecimal digit of either case. -/
def value? (b : UInt8) : Option UInt8 :=
  if 0x30 ≤ b ∧ b ≤ 0x39 then some (b - 0x30)
  else if 0x41 ≤ b ∧ b ≤ 0x46 then some (b - 0x37)
  else if 0x61 ≤ b ∧ b ≤ 0x66 then some (b - 0x57)
  else none

/-- The three bytes that stand for one. -/
def encodeByte (b : UInt8) : List UInt8 := [sign, digit (b / 16), digit (b % 16)]

/-- The byte that two hexadecimal digits spell. -/
def pair? (hi lo : UInt8) : Option UInt8 :=
  match value? hi, value? lo with
  | some h, some l => some (h * 16 + l)
  | _, _ => none

/-- Reads `%XX` as one byte; all else stands for itself. -/
def decode : List UInt8 → List UInt8
  | [] => []
  | [b] => [b]
  | [b, c] => [b, c]
  | b :: hi :: lo :: rest =>
    if b = sign then
      match pair? hi lo with
      | some v => v :: decode rest
      | none => b :: decode (hi :: lo :: rest)
    else b :: decode (hi :: lo :: rest)

/-- The two digits that a byte is written with read as that byte. -/
theorem pair?_digits (b : UInt8) : pair? (digit (b / 16)) (digit (b % 16)) = some b := by
  have h : ∀ n : Fin 256, pair? (digit (UInt8.ofFin n / 16)) (digit (UInt8.ofFin n % 16))
      = some (UInt8.ofFin n) := by decide +kernel
  simpa using h b.toFin

/-- An encoded byte reads back as itself. -/
theorem decode_encodeByte (b : UInt8) (rest : List UInt8) :
    decode (encodeByte b ++ rest) = b :: decode rest := by
  simp only [encodeByte, List.cons_append, List.nil_append, decode, if_true, pair?_digits]

/-- A byte other than the percent sign reads as itself. -/
theorem decode_cons_of_ne (b : UInt8) (h : b ≠ sign) (rest : List UInt8) :
    decode (b :: rest) = b :: decode rest := by
  match rest with
  | [] => rfl
  | [_] => simp [decode]
  | hi :: lo :: rest => simp [decode, h]

end PeerCache.Text.Percent
