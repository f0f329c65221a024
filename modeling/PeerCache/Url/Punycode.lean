/-!
# PeerCache — Punycode

The ASCII form of a label with other characters: its ASCII characters, a hyphen, and then the
others, in ascending order of code point, each as the number of steps from the one before it.
Numbers are written in base 36 with thresholds that adapt to the sizes seen so far.

No loop needs a bound from outside: `settle` divides, `number` divides, `encode` goes through the
code points in order, and `decode` consumes its input.
-/

namespace PeerCache.Url.Punycode

/-- The digit of a value below 36: letters, then decimal digits. -/
def digit (d : Nat) : Char := if d < 26 then Char.ofNat (0x61 + d) else Char.ofNat (0x30 + d - 26)

/-- The value of a digit; letters count in either case. -/
def value? (c : Char) : Option Nat :=
  let n := c.toNat
  if 0x61 ≤ n ∧ n ≤ 0x7A then some (n - 0x61)
  else if 0x41 ≤ n ∧ n ≤ 0x5A then some (n - 0x41)
  else if 0x30 ≤ n ∧ n ≤ 0x39 then some (n - 0x30 + 26)
  else none

/-- The threshold of the digit at position `k`, counted in steps of 36. -/
def threshold (k bias : Nat) : Nat :=
  if k ≤ bias then 1 else if bias + 26 ≤ k then 26 else k - bias

/-- No digit has a threshold of zero, so a weight always grows. -/
theorem threshold_pos (k bias : Nat) : 1 ≤ threshold k bias := by
  unfold threshold
  split
  · exact Nat.le_refl 1
  · split <;> omega

/-- Divides until a number is small; the second part counts 36 for every division. -/
def settle (delta k : Nat) : Nat × Nat :=
  if 455 < delta then settle (delta / 35) (k + 36) else (delta, k)
  termination_by delta
  decreasing_by exact Nat.div_lt_self (by omega) (by omega)

/-- The bias after a number has been written. -/
def adapt (delta count : Nat) (first : Bool) : Nat :=
  let d := if first then delta / 700 else delta / 2
  let (d, k) := settle (d + d / count) 0
  k + 36 * d / (d + 38)

/-- A number in base 36 with thresholds. -/
def number (bias k q : Nat) : List Char :=
  let t := threshold k bias
  if q < t then [digit q]
  else digit (t + (q - t) % (36 - t)) :: number bias (k + 36) ((q - t) / (36 - t))
  termination_by q
  decreasing_by
    have hpos := threshold_pos k bias
    calc (q - threshold k bias) / (36 - threshold k bias)
        ≤ q - threshold k bias := Nat.div_le_self _ _
      _ < q := by omega

/-- What is known in the middle of writing: the digits so far, the steps since the last character
written, the bias, and how many characters are written. -/
structure Writing where
  out : List Char
  delta : Nat
  bias : Nat
  done : Nat

/-- Goes past one character of the label while the characters with code point `m` are written. -/
def pass (basic m : Nat) (w : Writing) (c : Char) : Writing :=
  if c.toNat < m then { w with delta := w.delta + 1 }
  else if c.toNat = m then
    { out := w.out ++ number w.bias 36 w.delta
      delta := 0
      bias := adapt w.delta (w.done + 1) (w.done == basic)
      done := w.done + 1 }
  else w

/-- Writes the characters with the code points given, the smallest first; `n` is the least code
point not yet looked at. -/
def writeAll (label : List Char) (basic : Nat) : List Nat → Nat → Writing → Writing
  | [], _, w => w
  | m :: rest, n, w =>
    let w := label.foldl (pass basic m) { w with delta := w.delta + (m - n) * (w.done + 1) }
    writeAll label basic rest (m + 1) { w with delta := w.delta + 1 }

/-- The ASCII form of a label, without a mark that it is one. -/
def encode (label : List Char) : List Char :=
  let basic := label.filter fun c => c.toNat < 0x80
  let others := (label.filter fun c => 0x80 ≤ c.toNat).map Char.toNat
  let points := (others.mergeSort fun a b => a ≤ b).eraseDups
  -- All code points below `80` are written already.
  let w := writeAll label basic.length points 0x80 ⟨[], 0, 72, basic.length⟩
  (if basic.isEmpty then [] else basic ++ ['-']) ++ w.out

/-- Reads a number in base 36 with thresholds; the answer has the number and the rest. -/
def readNumber (bias : Nat) : Nat → Nat → Nat → List Char → Option (Nat × List Char)
  | _, _, _, [] => none
  | k, i, weight, c :: rest =>
    match value? c with
    | none => none
    | some d =>
      let t := threshold k bias
      if d < t then some (i + d * weight, rest)
      else readNumber bias (k + 36) (i + d * weight) (weight * (36 - t)) rest

/-- A number that reads has taken a digit at least, so reading the next one gets on. -/
theorem readNumber_length (bias k i weight : Nat) (cs : List Char) (r : Nat × List Char)
    (h : readNumber bias k i weight cs = some r) : r.2.length < cs.length := by
  fun_induction readNumber bias k i weight cs with
  | case1 => simp at h
  | case2 => simp at h
  | case3 k i weight c rest d hd t hlt =>
    simp only [Option.some.injEq] at h
    subst h
    simp
  | case4 k i weight c rest d hd t hlt ih =>
    have := ih h
    simp only [List.length_cons]
    omega

-- `h` is consumed by `decreasing_by`, which the unused-variable linter does not see.
set_option linter.unusedVariables false in
/-- Reads the characters that are not ASCII and puts each in its place. -/
def readAll (cs : List Char) (out : List Char) (n i bias : Nat) : Option (List Char) :=
  match cs with
  | [] => some out
  | c :: rest =>
    match h : readNumber bias 36 i 1 (c :: rest) with
    | none => none
    | some (j, left) =>
      let len := out.length + 1
      let point := n + j / len
      if point < 0xD800 ∨ (0xDFFF < point ∧ point < 0x110000) then
        let out := out.take (j % len) ++ Char.ofNat point :: out.drop (j % len)
        readAll left out point (j % len + 1) (adapt (j - i) len (i == 0))
      else none
  termination_by cs.length
  decreasing_by
    exact readNumber_length _ _ _ _ _ _ h

/-- The label that an ASCII form spells. What stands before the last hyphen is itself; there is no
hyphen if nothing does. -/
def decode? (cs : List Char) : Option (List Char) :=
  let back := cs.reverse.dropWhile (· ≠ '-')
  let basic := (back.drop 1).reverse
  let tail := if basic.isEmpty then cs else (cs.reverse.takeWhile (· ≠ '-')).reverse
  if basic.all (fun c => c.toNat < 0x80) then readAll tail basic 0x80 0 72 else none

end PeerCache.Url.Punycode
