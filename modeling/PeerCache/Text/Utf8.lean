/-!
# PeerCache — texts as bytes

`utf8` gives the bytes of a text and `utf8?` reads them back, strictly. `lossy` reads any bytes:
each maximal run of bytes that starts a character but does not complete one becomes one
replacement character, and so does each byte that cannot start a character.
-/

namespace PeerCache.Text

/-- The UTF-8 bytes of a text. -/
def utf8 (s : String) : List UInt8 := s.toByteArray.data.toList

/-- The text whose UTF-8 bytes these are, if they are valid. -/
def utf8? (bytes : List UInt8) : Option String := String.fromUTF8? ⟨bytes.toArray⟩

/-- What a text is written as reads as that text again. -/
theorem utf8?_utf8 (s : String) : utf8? (utf8 s) = some s := by
  have h : (⟨(utf8 s).toArray⟩ : ByteArray) = s.toByteArray := by simp [utf8]
  unfold utf8?
  rw [h]
  unfold String.fromUTF8?
  simp [s.isValidUTF8]
  rfl

/-! ## Reading bytes that may be invalid -/

/-- The ranges of the bytes that have to follow a first byte, or `none` if no character starts
with it. The second range is narrower after `E0`, `ED`, `F0` and `F4`, so that overlong forms,
surrogates and values above `10FFFF` are refused as early as possible. -/
def followers (first : UInt8) : Option (List (UInt8 × UInt8)) :=
  let any : UInt8 × UInt8 := (0x80, 0xBF)
  if first < 0x80 then some []
  -- Two bytes that start with `C0` or `C1` would spell an ASCII character.
  else if first < 0xC2 then none
  else if first < 0xE0 then some [any]
  else if first = 0xE0 then some [(0xA0, 0xBF), any]
  else if first = 0xED then some [(0x80, 0x9F), any]
  else if first < 0xF0 then some [any, any]
  else if first = 0xF0 then some [(0x90, 0xBF), any, any]
  else if first < 0xF4 then some [any, any, any]
  else if first = 0xF4 then some [(0x80, 0x8F), any, any]
  else none

/-- Takes the bytes that fit the ranges one after another. The result is what was taken if every
range was met, and what is left after the last byte that fitted. -/
def takeFollowers : List (UInt8 × UInt8) → List UInt8 → Option (List UInt8) × List UInt8
  | [], rest => (some [], rest)
  | _ :: _, [] => (none, [])
  | r :: rs, b :: rest =>
    if r.1 ≤ b ∧ b ≤ r.2 then
      let (taken, left) := takeFollowers rs rest
      (taken.map (b :: ·), left)
    else (none, b :: rest)

/-- Followers are taken off the front, so no more bytes are left than there were. -/
theorem takeFollowers_length (rs : List (UInt8 × UInt8)) (bytes : List UInt8) :
    (takeFollowers rs bytes).2.length ≤ bytes.length := by
  fun_induction takeFollowers rs bytes with
  | case1 => simp
  | case2 => simp
  | case3 r rs b rest h taken left heq ih =>
    simp only [heq] at ih
    simp only [List.length_cons]
    omega
  | case4 => simp

/-- The code point that a first byte and its followers spell. -/
def codePoint (first : UInt8) (rest : List UInt8) : Nat :=
  let lead := first.toNat % (match rest.length with
    | 0 => 128
    | 1 => 32
    | 2 => 16
    | _ => 8)
  rest.foldl (fun n b => n * 64 + b.toNat % 64) lead

/-- The character that stands for bytes that are no character. -/
def replacement : Char := '\ufffd'

/-- The characters of a sequence of bytes, invalid ones replaced. -/
def lossyChars : List UInt8 → List Char
  | [] => []
  | b :: rest =>
    match followers b with
    | none => replacement :: lossyChars rest
    | some rs =>
      let read := takeFollowers rs rest
      let c := match read.1 with
        | some taken => Char.ofNat (codePoint b taken)
        | none => replacement
      c :: lossyChars read.2
  termination_by bytes => bytes.length
  decreasing_by
    · simp
    · have hle := takeFollowers_length rs rest
      simp only [List.length_cons]
      omega

/-- The text of a sequence of bytes, invalid ones replaced. -/
def lossy (bytes : List UInt8) : String := String.ofList (lossyChars bytes)

end PeerCache.Text
