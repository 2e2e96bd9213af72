/-!
# Sets of characters as ranges

A property of characters is given as a list of closed ranges of code points.
-/

namespace StaticSite.Text

def inRanges (ranges : List (Nat × Nat)) (codePoint : Nat) : Bool :=
  ranges.any fun (first, last) => decide (first ≤ codePoint) && decide (codePoint ≤ last)

end StaticSite.Text
