/-!
# Sets of characters as ranges of code points

A property of characters is stored as the list of the closed intervals of code points that have
it. `Ranges.contains` looks a code point up.
-/

namespace QuotedLisp.Text

/-- Closed intervals of code points, in increasing order. -/
abbrev Ranges := List (Nat × Nat)

/-- Some interval holds the code point. -/
def Ranges.contains (ranges : Ranges) (codePoint : Nat) : Bool :=
  ranges.any fun range => range.1 ≤ codePoint && codePoint ≤ range.2

end QuotedLisp.Text
