/-!
# Sets of characters as ranges of code points

A class of characters is written down as the ranges of code points it is made of.

* `Text.inRanges`: whether a character belongs to such a class.
-/

namespace ShapeFlow.Text

/-- Whether the code point of a character lies in one of the ranges, both ends of which belong to
the range. -/
def inRanges (ranges : List (Nat × Nat)) (c : Char) : Bool :=
  ranges.any (fun range => range.1 ≤ c.toNat && c.toNat ≤ range.2)

end ShapeFlow.Text
