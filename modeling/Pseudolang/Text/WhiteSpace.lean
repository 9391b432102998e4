import Pseudolang.Text.Ranges

/-!
# White space

The property `White_Space` of the Unicode standard, version 17.  The excerpt under a diagnostic
drops these from the end of its line.
-/

namespace Pseudolang.Text

/-- The code points with the property `White_Space`. -/
def whiteSpace : Ranges where
  list :=
    [(0x0009, 0x000D), (0x0020, 0x0020), (0x0085, 0x0085), (0x00A0, 0x00A0), (0x1680, 0x1680),
     (0x2000, 0x200A), (0x2028, 0x2029), (0x202F, 0x202F), (0x205F, 0x205F), (0x3000, 0x3000)]
  ascending := by decide +kernel

/-- Whether the character is white space of any kind. -/
def isWhiteSpace (c : Char) : Bool :=
  whiteSpace.covers c.toNat

end Pseudolang.Text
