/-!
# PeerCache — blanks and trimming

A blank is a character with the Unicode property `White_Space`. Trimming works on both ends of a
text or, for one kind of character, on its end only.
-/

namespace PeerCache.Text

/-- Whether a character has the Unicode property `White_Space`. -/
def isBlank (c : Char) : Bool :=
  let n := c.toNat
  (0x09 ≤ n && n ≤ 0x0D) || n == 0x20 || n == 0x85 || n == 0xA0 || n == 0x1680
    || (0x2000 ≤ n && n ≤ 0x200A) || n == 0x2028 || n == 0x2029 || n == 0x202F
    || n == 0x205F || n == 0x3000

/-- Drops the longest run at the end whose members satisfy `p`. -/
def dropEndWhile {α : Type} (p : α → Bool) (xs : List α) : List α :=
  (xs.reverse.dropWhile p).reverse

/-- A text without the blanks around it. -/
def trim (s : String) : String :=
  String.ofList (dropEndWhile isBlank (s.toList.dropWhile isBlank))

/-- A text without the slashes at its end. -/
def trimSlashes (s : String) : String :=
  String.ofList (dropEndWhile (· == '/') s.toList)

end PeerCache.Text
