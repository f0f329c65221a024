import PeerCache.Text.Printable
/-!
# PeerCache — characters of late

The tables of `Printable` are about the characters that a quoted text shows. More have been given
a glyph since then: a quoted text still escapes them, while a domain may hold them.
-/

namespace PeerCache.Text

/-- The code points that have got a glyph after the table `glyphless` was made and stand for
themselves, as closed ranges in ascending order. -/
def recent : List (Nat × Nat) :=
    [(0x5C8, 0x5C9), (0xB53, 0xB54), (0x1ADE, 0x1ADE), (0x1AEC, 0x1AF0), (0x208F, 0x208F),
    (0x20C2, 0x20C4), (0x2E60, 0x2E62), (0x10EC9, 0x10ECF), (0x10ED9, 0x10EEE),
    (0x10EF0, 0x10EF9), (0x11B0A, 0x11B0A), (0x11DF0, 0x11DF0), (0x1246F, 0x1246F),
    (0x12475, 0x1247F), (0x12550, 0x1268E), (0x18CD6, 0x18CD8), (0x18D1F, 0x18D20),
    (0x18E00, 0x191E8), (0x1B168, 0x1B168), (0x1CED1, 0x1CED2), (0x1CEDE, 0x1CEDF),
    (0x1CEF1, 0x1CEF7), (0x1D127, 0x1D128), (0x1D1EB, 0x1D1FF), (0x1D250, 0x1D28F),
    (0x1DB00, 0x1DB1C), (0x1DF2B, 0x1DF99), (0x1F1AE, 0x1F1AE), (0x1F6D9, 0x1F6D9),
    (0x1F7DA, 0x1F7DB), (0x1F7F1, 0x1F7FF), (0x1FA8B, 0x1FA8D), (0x1FACC, 0x1FACC),
    (0x1FADD, 0x1FADD), (0x1FAEB, 0x1FAEB), (0x1FAF9, 0x1FAFA), (0x2B81E, 0x2B81F),
    (0x3D000, 0x3FC3F)]

/-- Those of them that are marks without a place of their own. -/
def recentMarks : List (Nat × Nat) :=
    [(0x5C8, 0x5C9), (0xB53, 0xB54), (0x1ADE, 0x1ADE), (0x1AEC, 0x1AF0), (0x10ECD, 0x10ECF),
    (0x10EF0, 0x10EF9), (0x11DF0, 0x11DF0), (0x1D127, 0x1D128), (0x1D250, 0x1D251),
    (0x1D25C, 0x1D25F)]

/-- Whether a character has a glyph, be it of late. -/
def hasGlyph (c : Char) : Bool := !inRanges glyphless c.toNat || inRanges recent c.toNat

end PeerCache.Text
