import ShaderLibrary.Text.Basic
import ShaderLibrary.Text.CodeRange

/-!
Blank characters: the white space of Unicode together with the four information separators.
Names are trimmed, and directives cut into words, at these characters.
-/

namespace ShaderLibrary.Text

/-- The blank characters: 29 code points. -/
def blankRanges : List (Nat × Nat) :=
  [(0x09, 0x0D), (0x1C, 0x20), (0x85, 0x85), (0xA0, 0xA0), (0x1680, 0x1680), (0x2000, 0x200A),
   (0x2028, 0x2029), (0x202F, 0x202F), (0x205F, 0x205F), (0x3000, 0x3000)]

/-- Whether the character separates words. -/
def isBlank (c : Char) : Bool := inRanges blankRanges c

/-- The text without the blanks at either end. -/
def trim (t : Text) : Text :=
  ((t.dropWhile isBlank).reverse.dropWhile isBlank).reverse

/-- The longest parts without blanks, in order. -/
def words (t : Text) : List Text := (t.splitOnP isBlank).filter (· ≠ [])

end ShaderLibrary.Text
