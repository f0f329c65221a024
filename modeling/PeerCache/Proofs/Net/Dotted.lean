import PeerCache.Net.SocketAddr
/-!
# PeerCache — the dotted form of an address

An IPv4 address is written as four decimal bytes, and `readIpv4` takes decimal bytes back that have
neither more than three digits nor a needless zero in front. So what is written is read
(**`readIpv4_render`**), whatever stands behind it that is no digit.

A host in brackets spells no address by itself (**`ofHost?_brackets`**): no reader takes the
bracket.
-/

namespace PeerCache

namespace Net

open Url (Ipv4)

/-! ## Decimal numbers -/

/-- A digit is one of the ten. -/
theorem exists_digitChar {c : Char} (h : c.isDigit = true) : ∃ d < 10, c = d.digitChar := by
  have hrange : 48 ≤ c.toNat ∧ c.toNat ≤ 57 := by
    rw [Char.isDigit, Bool.and_eq_true, decide_eq_true_eq, decide_eq_true_eq] at h
    exact ⟨UInt32.le_iff_toNat_le.1 h.1, UInt32.le_iff_toNat_le.1 h.2⟩
  have hall : ∀ n ≤ 57, 48 ≤ n → Char.ofNat n = (n - 48).digitChar := by decide
  refine ⟨c.toNat - 48, by omega, ?_⟩
  rw [← hall c.toNat hrange.2 hrange.1, Char.ofNat_toNat]

/-- A digit reads as the number it is written for. -/
theorem digitValue?_digitChar : ∀ d < 10, Ipv4.digitValue? d.digitChar = some d := by
  decide

/-- Whatever counts as a digit reads as its distance from zero. -/
theorem digitValue?_of_isDigit {c : Char} (h : c.isDigit = true) :
    Ipv4.digitValue? c = some (c.toNat - '0'.toNat) ∧ isDigitOf 10 c = true := by
  obtain ⟨d, hd, rfl⟩ := exists_digitChar h
  have hvalue : ∀ d < 10, d.digitChar.toNat - '0'.toNat = d := by decide
  unfold isDigitOf
  rw [digitValue?_digitChar d hd, hvalue d hd]
  exact ⟨rfl, decide_eq_true hd⟩

/-- The value that is read off decimal digits is the number that they are the digits of. -/
theorem foldl_digitValue {cs : List Char} (h : ∀ c ∈ cs, c.isDigit = true) (k : Nat) :
    cs.foldl (fun n c => n * 10 + (Ipv4.digitValue? c).getD 0) k = Nat.ofDigitChars 10 cs k := by
  induction cs generalizing k with
  | nil => rfl
  | cons c cs ih =>
    obtain ⟨hc, hcs⟩ := List.forall_mem_cons.1 h
    rw [List.foldl_cons, ih hcs, (digitValue?_of_isDigit hc).1, Option.getD_some, Nat.mul_comm]
    rfl

/-- A number with more than one digit does not begin with a zero. -/
theorem head?_toDigits {n : Nat} (h : 10 ≤ n) : (Nat.toDigits 10 n).head? ≠ some '0' := by
  induction n using Nat.strongRecOn with
  | ind n ih =>
    rw [Nat.toDigits_of_base_le (by decide) h]
    by_cases hsmall : n / 10 < 10
    · rw [Nat.toDigits_of_lt_base hsmall]
      have hdigit : ∀ d < 10, 1 ≤ d → d.digitChar ≠ '0' := by decide
      simpa using hdigit (n / 10) hsmall (by omega)
    · rw [List.head?_append, Option.or_of_isSome
        (List.isSome_head?.2 Nat.toDigits_ne_nil)]
      exact ih (n / 10) (by omega) (by omega)

/-- A number that is written without needless zeros is read, up to what is no digit. -/
theorem readNumber_toDigits {n max width : Nat} (hmax : n ≤ max)
    (hwidth : (Nat.toDigits 10 n).length ≤ width) {rest : List Char}
    (hrest : rest.takeWhile (isDigitOf 10) = []) :
    readNumber 10 max (some width) false (Nat.toDigits 10 n ++ rest) = some (n, rest) := by
  have hdigits : ∀ c ∈ Nat.toDigits 10 n, c.isDigit = true :=
    fun c hc => Nat.isDigit_of_mem_toDigits (by decide) (by decide) hc
  -- What the reader takes is the numeral, as `rest` opens with no digit.
  have htake : (Nat.toDigits 10 n ++ rest).takeWhile (isDigitOf 10) = Nat.toDigits 10 n := by
    rw [List.takeWhile_append_of_pos fun c hc => (digitValue?_of_isDigit (hdigits c hc)).2, hrest,
      List.append_nil]
  have hvalue : (Nat.toDigits 10 n).foldl
      (fun n c => n * 10 + (Ipv4.digitValue? c).getD 0) 0 = n := by
    rw [foldl_digitValue hdigits, Nat.ofDigitChars_ten_toDigits]
  -- A leading zero is refused, and a numeral has one only if it is `0`.
  have hclean : (Nat.toDigits 10 n).length ≤ 1 ∨ (Nat.toDigits 10 n).head? ≠ some '0' := by
    by_cases hsmall : n < 10
    · exact .inl (Nat.le_of_eq (by rw [Nat.toDigits_of_lt_base hsmall]; rfl))
    · exact .inr (head?_toDigits (by omega))
  have hne : (Nat.toDigits 10 n).isEmpty = false := by
    simp [Nat.toDigits_ne_nil]
  unfold readNumber
  simp only [htake, hvalue, hne, List.drop_left]
  rw [if_pos]
  simp [hwidth, hclean, hmax]

/-! ## Four bytes between dots -/

/-- An address is what its four bytes make. -/
theorem ofBytes_bytes (a : Ipv4) : Ipv4.ofBytes a.bytes = a := by
  have hlt : a.toNat < 2 ^ 32 := a.toNat_lt
  have hvalue : Ipv4.valueOf a.bytes = a.toNat := by
    simp only [Ipv4.valueOf, Ipv4.bytes, List.foldl_cons, List.foldl_nil]
    omega
  unfold Ipv4.ofBytes
  rw [hvalue, UInt32.ofNat_toNat]

/-- An address is written as its bytes in decimal, with a dot between any two. -/
theorem toList_render (a : Ipv4) : (Ipv4.render a).toList =
    ['.'].intercalate (a.bytes.map fun b => Nat.toDigits 10 b) := by
  unfold Ipv4.render
  rw [String.toList_intercalate, List.map_map]
  congr 2
  funext b
  rw [Function.comp_apply, Nat.toString_eq_ofList_toDigits, String.toList_ofList]

/-- What is written is read, up to what is no digit. -/
theorem readIpv4_render (a : Ipv4) {rest : List Char}
    (hrest : rest.takeWhile (isDigitOf 10) = []) :
    readIpv4 ((Ipv4.render a).toList ++ rest) = some (a, rest) := by
  have hbyte : ∀ b < 256, ∀ cs : List Char, cs.takeWhile (isDigitOf 10) = [] →
      readNumber 10 255 (some 3) false (Nat.toDigits 10 b ++ cs) = some (b, cs) := by
    intro b hb cs hcs
    have hlength : (Nat.toDigits 10 b).length ≤ 3 :=
      (Nat.length_toDigits_le_iff (by decide) (by decide)).2 (by omega)
    exact readNumber_toDigits (by omega) hlength hcs
  -- A dot ends each of the first three numerals, and `hrest` the last.
  have hdot : ∀ cs : List Char, ('.' :: cs).takeWhile (isDigitOf 10) = [] :=
    fun cs => List.takeWhile_cons_of_neg (by decide)
  have hall : ∀ b ∈ a.bytes, b < 256 := by
    simp only [Ipv4.bytes, List.mem_cons, List.not_mem_nil, or_false]
    omega
  suffices hread : readIpv4 ((Ipv4.render a).toList ++ rest) = some (Ipv4.ofBytes a.bytes, rest) by
    rwa [ofBytes_bytes] at hread
  rw [toList_render]
  -- The four bytes are named before the reader is opened, which keeps its terms small.
  generalize hbytes : a.bytes = bytes at hall
  obtain ⟨b₀, b₁, b₂, b₃, rfl⟩ : ∃ b₀ b₁ b₂ b₃, bytes = [b₀, b₁, b₂, b₃] :=
    ⟨_, _, _, _, hbytes.symm⟩
  simp only [List.forall_mem_cons, List.not_mem_nil, false_implies, implies_true, and_true] at hall
  obtain ⟨h₀, h₁, h₂, h₃⟩ := hall
  simp only [List.map_cons, List.map_nil, List.intercalate_cons_cons, List.intercalate_singleton,
    List.append_assoc, List.cons_append, List.nil_append]
  unfold readIpv4
  simp only [hbyte _ h₀ _ (hdot _), hbyte _ h₁ _ (hdot _), hbyte _ h₂ _ (hdot _),
    hbyte _ h₃ _ hrest, readChar, if_true, Option.bind_eq_bind, Option.bind_some]
  rfl

namespace SocketAddr

/-- What an address is written as is read as a socket address with this address. -/
theorem ofHost?_render (a : Ipv4) (port : Nat) : ofHost? a.render port = some (v4 a port) := by
  have hread : readIpv4 (a.render.toList ++ []) = some (a, []) := readIpv4_render a rfl
  rw [List.append_nil] at hread
  unfold ofHost?
  rw [hread]

/-- A text in brackets is no host of a socket address. -/
theorem ofHost?_brackets (text : String) (port : Nat) :
    ofHost? ("[" ++ text ++ "]") port = none := by
  have hlist : ("[" ++ text ++ "]").toList = '[' :: (text.toList ++ [']']) := by simp
  have hnumber : ∀ base max width padded (cs : List Char), isDigitOf base '[' = false →
      readNumber base max width padded ('[' :: cs) = none := by
    intro base max width padded cs hbase
    simp [readNumber, hbase]
  have hdotted : ∀ cs, readIpv4 ('[' :: cs) = none := by
    intro cs
    simp [readIpv4, hnumber 10 255 (some 3) false cs (by decide)]
  have hpieces : ∀ cs, readIpv6 ('[' :: cs) = none := by
    intro cs
    simp [readIpv6, readPieces, readPart, hdotted, readChar,
      hnumber 16 65535 (some 4) true cs (by decide)]
  unfold ofHost?
  rw [hlist, hdotted, hpieces]

end SocketAddr

end Net

end PeerCache
