/-!
Sets of code points given as closed ranges, the form in which character properties are tabulated.
-/

namespace ShaderLibrary.Text

/-- Whether the character lies in one of the closed ranges of code points. -/
def inRanges (ranges : List (Nat × Nat)) (c : Char) : Bool :=
  ranges.any fun range => range.1 ≤ c.toNat && c.toNat ≤ range.2

end ShaderLibrary.Text
