import LoxLexer.Text.CodePoints

/-!
# Characters that are ignored in display

The characters with the Unicode property Default_Ignorable_Code_Point, version 17.0. A program that
has no special support for such a character shows nothing in its place. Nearly all of them are
formats, marks or code points without a character. The four fillers among the Hangul letters are
letters by their general category, and only this property tells that they have no shape.
-/

namespace LoxLexer.Text

/-- The code points with the property Default_Ignorable_Code_Point. -/
def defaultIgnorable : CodePoints :=
  [(0x00AD, 0x00AD), (0x034F, 0x034F), (0x061C, 0x061C), (0x115F, 0x1160), (0x17B4, 0x17B5),
    (0x180B, 0x180F), (0x200B, 0x200F), (0x202A, 0x202E), (0x2060, 0x206F), (0x3164, 0x3164),
    (0xFE00, 0xFE0F), (0xFEFF, 0xFEFF), (0xFFA0, 0xFFA0), (0xFFF0, 0xFFF8), (0x1BCA0, 0x1BCA3),
    (0x1D173, 0x1D17A), (0xE0000, 0xE0FFF)]

theorem isAscending_defaultIgnorable : defaultIgnorable.isAscending = true := by decide +kernel

/-- The character is shown as nothing by a program without support for it. -/
def isDefaultIgnorable (c : Char) : Bool := defaultIgnorable.contains c.toNat

theorem isDefaultIgnorable_iff (c : Char) :
    isDefaultIgnorable c = true ↔ ∃ r ∈ defaultIgnorable, r.1 ≤ c.toNat ∧ c.toNat ≤ r.2 :=
  CodePoints.contains_iff isAscending_defaultIgnorable c.toNat

end LoxLexer.Text
