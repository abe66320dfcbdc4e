/-!
# `MiniC.Text.Range` — sets of characters given as ranges of code points

A property of the Unicode standard is a list of closed ranges, in increasing order.
-/

namespace MiniC.Text

/-- Whether the code point of `c` lies in one of the closed ranges. -/
def inRanges (ranges : List (Nat × Nat)) (c : Char) : Bool :=
  ranges.any fun range => range.1 ≤ c.toNat && c.toNat ≤ range.2

end MiniC.Text
