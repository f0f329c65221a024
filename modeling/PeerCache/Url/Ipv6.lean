import PeerCache.Url.Ipv4
/-!
# PeerCache — IPv6 addresses as hosts

An IPv6 address is eight pieces of sixteen bits in hexadecimal, between colons. Two colons stand
for one or more pieces that are zero, once; the last two pieces may be written as a dotted IPv4
address. It is written in lower case without leading zeros, and two colons stand for the first of
its longest runs of zeros.
-/

namespace PeerCache.Url

/-- An IPv6 address as its eight pieces. -/
structure Ipv6 where
  pieces : List Nat
deriving DecidableEq, Repr

namespace Ipv6

/-- The value of up to four hexadecimal digits at the front, how many there were, and the rest. -/
def takeHex : Nat → Nat → Nat → List Char → Nat × Nat × List Char
  | 0, value, count, cs => (value, count, cs)
  | _, value, count, [] => (value, count, [])
  | n + 1, value, count, c :: rest =>
    match Ipv4.digitValue? c with
    | some d => takeHex n (value * 16 + d) (count + 1) rest
    | none => (value, count, c :: rest)

/-- Hexadecimal digits are taken off the front, so no more characters are left than there were. -/
theorem takeHex_length (n value count : Nat) (cs : List Char) :
    (takeHex n value count cs).2.2.length ≤ cs.length := by
  fun_induction takeHex n value count cs with
  | case1 => simp
  | case2 => simp
  | case3 n value count c rest d h ih => simp only [List.length_cons]; omega
  | case4 => simp

/-- A decimal byte without leading zeros. -/
def byte? (digits : List Char) : Option Nat :=
  match digits with
  | [] => none
  | ['0'] => some 0
  | '0' :: _ => none
  | ds =>
    if ds.all Char.isDigit ∧ ds.length ≤ 3 then
      let n := ds.foldl (fun n c => n * 10 + (c.toNat - 48)) 0
      if n ≤ 255 then some n else none
    else none

/-- The two pieces that a dotted IPv4 address spells. -/
def dotted? (cs : List Char) : Option (List Nat) :=
  match (Text.Form.splitAt '.' cs).mapM byte? with
  | some [a, b, c, d] => some [a * 256 + b, c * 256 + d]
  | _ => none

-- `h` is consumed by `decreasing_by`, which the unused-variable linter does not see.
set_option linter.unusedVariables false in
/-- Reads pieces; `gap` is where two colons stood. The answer has the pieces and the gap. -/
def readPieces (cs : List Char) (pieces : List Nat) (gap : Option Nat) :
    Option (List Nat × Option Nat) :=
  match cs with
  | [] => some (pieces, gap)
  | c :: rest =>
    if pieces.length = 8 then none
    else if c = ':' then
      if gap.isSome then none
      else readPieces rest (pieces ++ [0]) (some (pieces.length + 1))
    else
      let read := takeHex 4 0 0 (c :: rest)
      if read.2.1 = 0 then none
      else
        match h : read.2.2 with
        | [] => some (pieces ++ [read.1], gap)
        | ':' :: more => if more = [] then none else readPieces more (pieces ++ [read.1]) gap
        | '.' :: _ =>
          -- The dotted form takes the place of two pieces.
          if 6 < pieces.length then none
          else (dotted? (c :: rest)).map fun two => (pieces ++ two, gap)
        | _ => none
  termination_by cs.length
  decreasing_by
    · simp
    · have hle := takeHex_length 4 0 0 (c :: rest)
      have hread : (takeHex 4 0 0 (c :: rest)).2.2 = ':' :: more := h
      rw [hread] at hle
      simp only [List.length_cons] at hle ⊢
      omega

/-- The address that the text between the brackets spells. -/
def parse? (cs : List Char) : Option Ipv6 := do
  let (pieces, gap) ←
    match cs with
    | ':' :: ':' :: rest => readPieces rest [0] (some 1)
    | ':' :: _ => none
    | [] => none
    | [_] => none
    | _ => readPieces cs [] none
  match gap with
  | some g =>
    if pieces.length ≤ 8 then
      some ⟨pieces.take g ++ List.replicate (8 - pieces.length) 0 ++ pieces.drop g⟩
    else none
  | none => if pieces.length = 8 then some ⟨pieces⟩ else none

/-- The length of the run of zeros at the front. -/
def zeros (ps : List Nat) : Nat := (ps.takeWhile (· = 0)).length

/-- Where the first of the longest runs of at least two zeros starts, and its length. -/
def longestRun (ps : List Nat) : Option (Nat × Nat) :=
  (List.range ps.length).foldl (fun best i =>
    let n := zeros (ps.drop i)
    if n < 2 then best
    else
      match best with
      | some (_, m) => if m < n then some (i, n) else best
      | none => some (i, n)) none

/-- A piece in lower-case hexadecimal. -/
def piece (n : Nat) : String := String.ofList (Nat.toDigits 16 n)

/-- The written form of an address, without brackets. -/
def render (a : Ipv6) : String :=
  match longestRun a.pieces with
  | none => ":".intercalate (a.pieces.map piece)
  | some (i, n) =>
    ":".intercalate ((a.pieces.take i).map piece) ++ "::"
      ++ ":".intercalate ((a.pieces.drop (i + n)).map piece)

end Ipv6

end PeerCache.Url
